import AstSchema.Features

/-! Making objects: arguments are matched with the fields of a class, and what the class settles
about its fields is settled. -/
namespace AstSchema

def Blank.value : Blank → Except Error Value
  | .list => .ok (.list [])
  | .tuple => .ok (.tuple [])
  | .mapping => .ok (.mapping [])
  | .scalar s => .ok (.scalar s)
  | .part => .error .wrongType

namespace Class

/-- One value for each field: arguments by position first, the others by name, blanks for what is
left out. No argument may be left over or given twice. -/
def matchArguments (cls : Class) (args : List Value) (named : List (String × Value)) :
    Except Error (List Value) := do
  let rest := cls.fields.drop args.length
  if cls.fields.length < args.length then .error .wrongType
  else if named.any fun (name, _) => !rest.any (·.name == name) then .error .wrongType
  else
    let others ← rest.mapM fun spec =>
      match named.lookup spec.name, spec.blank? with
      | some v, _ => .ok v
      | none, some blank => blank.value
      | none, none => .error .wrongType
    return args ++ others

section

variable {m : Type → Type} [Monad m]

def revise (name : String) (change : Value → m Value) :
    List FieldSpec → List Value → m (List Value)
  | spec :: specs, v :: vs =>
    if spec.name == name then return (← change v) :: vs
    else return v :: (← revise name change specs vs)
  | _, vs => return vs

/-- How single fields are settled: as a tuple, as gates that a node owns, or as the flags of
gates. -/
structure Settling (m : Type → Type) where
  tuple : Value → m Value
  gates : Value → m Value
  flags : Value → m Value

/-- What a role settles about its fields: a node owns its gates, before anything else; what holds
several types, fields or variants holds them as a tuple. -/
def settleBy (s : Settling m) (cls : Class) (fields : List Value) : m (List Value) :=
  let change (name : String) (f : Value → m Value) (vs : List Value) := revise name f cls.fields vs
  match cls.role with
  | .tuple => change "elements" s.tuple fields
  | .variant => change "fields" s.tuple fields
  | .node => change "features" s.gates fields
  | .struct => do change "fields" s.tuple (← change "features" s.gates fields)
  | .enum => do change "variants" s.tuple (← change "features" s.gates fields)
  | .features => change "flags" s.flags fields
  | _ => return fields

end

def asTuple (v : Value) : Except Error Value := return .tuple (← v.items)

/-- Gates of their own, with the flags of the given ones. -/
def ownGates (v : Value) : Except Error Value := do
  return Features.toValue (← Features.ofValue (← v.field "flags"))

/-- Gates are their flags here: whether others hold them too makes no difference while nothing
changes. -/
def settle (cls : Class) (fields : List Value) : Except Error (List Value) :=
  cls.settleBy ⟨asTuple, ownGates, fun v => return .list (← Features.ofValue v)⟩ fields

def make (cls : Class) (fields : List Value) : Except Error Value :=
  return .object cls (← cls.settle fields)

def apply (cls : Class) (args : List Value) (named : List (String × Value)) :
    Except Error Value := do
  cls.make (← cls.matchArguments args named)

end Class

end AstSchema
