import AstSchema.Value.Collection

/-! Gates: the flags of a node, in order. A node is present if at least one of its flags is on, and
always if it has none. Repeated declarations of a node join their gates if one set of flags holds
the other. -/
namespace AstSchema.Features

/-- The flags that a value holds. A text would be taken for its characters, so it is refused. -/
def ofValue : Value → Except Error (List Value)
  | .scalar (.text s) => .error (.flagsFromText s)
  | v => v.items

def toValue (flags : List Value) : Value := .object .features [.list flags]

def contains (flags : List Value) (flag : Value) : Bool := flags.any (·.equal flag)

def isSubset (smaller larger : List Value) : Bool := smaller.all (contains larger)

/-- The larger of two nested sets of flags. Empty gates adopt the other side; with as many flags on
either side each has to hold the other, and the other side's spelling wins. -/
def join (mine theirs : List Value) : Except Error (List Value) :=
  if mine.isEmpty then .ok theirs
  else if mine.length < theirs.length then
    if isSubset mine theirs then .ok theirs else .error (.unnestedFeatures mine theirs)
  else if theirs.length < mine.length then
    if isSubset theirs mine then .ok mine else .error (.unnestedFeatures mine theirs)
  else if isSubset theirs mine && isSubset mine theirs then .ok theirs
  else .error (.unnestedFeatures mine theirs)

/-- Whether a collection holds every one of these flags. The first that it lacks settles it. -/
def allHeld (collection : Value) : List Value → Except Error Bool
  | [] => .ok true
  | flag :: rest => do
    if ← collection.holds flag then allHeld collection rest else return false

/-- Join with any other collection. It can be held, but only what has flags of its own can be
adopted. -/
def joinCollection (mine : List Value) (other : Value) : Except Error (List Value) := do
  let adopted : Except Error (List Value) := do (← other.field "flags").items
  if mine.isEmpty then adopted
  else
    let theirs ← other.items
    let conflict : Except Error (List Value) := .error (.unnestedFeatures mine theirs)
    if mine.length < theirs.length then
      if ← allHeld other mine then adopted else conflict
    else if !isSubset theirs mine then conflict
    else if theirs.length < mine.length then return mine
    else if ← allHeld other mine then adopted else conflict

def joinWith (mine : List Value) (other : Value) : Except Error (List Value) :=
  match other with
  | .object ⟨_, _, .features, _, _⟩ [flags] => do join mine (← flags.items)
  | other => joinCollection mine other

@[simp] theorem joinWith_toValue (mine theirs : List Value) :
    joinWith mine (toValue theirs) = join mine theirs := rfl

/-- The flag at a position. The range is asked for first, by value; positions are not counted from
the end. -/
def get (flags : List Value) (index : Value) : Except Error Value :=
  match index with
  | .scalar s =>
    match s.meaning with
    | .number p =>
      if p.lt (.ofInt 0) || !p.lt (.ofInt flags.length) then
        .error (.noSuchFlag s flags.length)
      else Value.itemAt "list" flags index
    | .noNumber => .error (.noSuchFlag s flags.length)
    | _ => .error .wrongType
  | _ => .error .wrongType

end AstSchema.Features
