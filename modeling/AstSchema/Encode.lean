import AstSchema.Decode
import AstSchema.Json.Writer

/-! Documents from objects: the tag of a type is the single key of an object, that of a node the
first member, and every field has the member that its class names. -/
namespace AstSchema.Value

/-- The entries of an object in its document; a key that comes up again keeps its first place. -/
def entriesOf (pairs : List (Scalar × Value)) : List (Scalar × Value) :=
  Entries.ofPairs Scalar.same pairs

mutual
/-- A value without objects. Flags are taken as they are. -/
def encode : Value → Except Error Value
  | .scalar s => .ok (.scalar s)
  | .list items | .tuple items => return .list (← encodeItems items)
  | .mapping entries => return .mapping (← encodeEntries entries)
  | .object cls fields =>
    match cls.family, cls.role with
    | .type, _ => do
      let payload ← match cls.fields, fields with
        | [_], [v] => encode v
        | specs, fields => pure (.mapping (entriesOf (← encodeFields specs fields)))
      match cls.tag? with
      | some tag => return .mapping [(tag, payload)]
      | none => .error .noAttribute
    | .node, _ => do
      match cls.tag? with
      | some tag =>
        let members ← encodeFields cls.fields fields
        return .mapping (entriesOf ((.text nodeKey, .scalar tag) :: members))
      | none => .error .noAttribute
    | .plain, .features =>
      return .mapping [(.text flagsKey, .list (match fields with
        | .list flags :: _ => flags
        | _ => []))]
    | .plain, _ => return .mapping (entriesOf (← encodeFields cls.fields fields))
termination_by structural v => v
def encodeItems : List Value → Except Error (List Value)
  | [] => .ok []
  | v :: vs => return (← encode v) :: (← encodeItems vs)
termination_by structural vs => vs
def encodeEntries : List (Scalar × Value) → Except Error (List (Scalar × Value))
  | [] => .ok []
  | (k, v) :: rest => return (k, ← encode v) :: (← encodeEntries rest)
termination_by structural entries => entries
def encodeFields : List FieldSpec → List Value → Except Error (List (Scalar × Value))
  | spec :: specs, v :: vs => do
    let document ← encode v
    match spec.key? with
    | some key => return (key, document) :: (← encodeFields specs vs)
    | none => .error .wrongType
  | _, _ => .ok []
termination_by structural _ vs => vs
end

def keyText : Scalar → String
  | .text s => s
  | s => String.ofList (Json.writeScalar s)

mutual
def toJson : Value → Except Error Json
  | .scalar s => .ok (.scalar s)
  | .list items | .tuple items => return .array (← toJsonItems items)
  | .mapping entries => return .object (← toJsonMembers entries)
  | .object .. => .error .wrongType
termination_by structural v => v
def toJsonItems : List Value → Except Error (List Json)
  | [] => .ok []
  | v :: vs => return (← toJson v) :: (← toJsonItems vs)
termination_by structural vs => vs
def toJsonMembers : List (Scalar × Value) → Except Error (List (String × Json))
  | [] => .ok []
  | (k, v) :: rest => return (keyText k, ← toJson v) :: (← toJsonMembers rest)
termination_by structural entries => entries
end

def encodeText (layout : Json.Layout) (v : Value) : Except Error String := do
  return Json.render layout (← toJson (← v.encode))

end AstSchema.Value
