import AstSchema.Object
import AstSchema.Registry

/-! Objects from documents. A node names its tag in a member of its own; a type is an object whose
single key is its tag. -/
namespace AstSchema

def nodeKey : String := "node"

def flagsKey : String := "any"

namespace Registry

mutual
def decodeType (r : Registry) : Json → Except Error Value
  | .object members => decodeTagged r members
  | found => .error (.notSingleKey found)
termination_by structural j => j
/-- The type that the members of an object say. A class of one field has its payload for that field;
any other has an object with a member for each. -/
def decodeTagged (r : Registry) : List (String × Json) → Except Error Value
  | [(tag, payload)] =>
    match r.type? (.text tag) with
    | none => .error (.unknownTypeTag tag)
    | some cls =>
      match cls.fields with
      | [spec] => do cls.make [← decodePayload r tag spec payload]
      | specs =>
        match payload with
        | .object members => do cls.make (← specs.mapM fun spec => decodeMember r tag spec members)
        | found => .error (.notObjectPayload tag found)
  | members => .error (.notSingleKey (.object members))
termination_by structural members => members
def decodePayload (r : Registry) (tag : String) (spec : FieldSpec) : Json → Except Error Value
  | .scalar (.text s) =>
    match spec.shape with
    | .text => .ok (.text s)
    | shape => .error (.badPayload tag spec.name shape (.text s))
  | .array items =>
    match spec.shape with
    | .types => return .tuple (← decodeTypes r items)
    | shape => .error (.badPayload tag spec.name shape (.array items))
  | .object members =>
    match spec.shape with
    | .type => decodeTagged r members
    | shape => .error (.badPayload tag spec.name shape (.object members))
  | found => .error (.badPayload tag spec.name spec.shape found)
termination_by structural j => j
def decodeMember (r : Registry) (tag : String) (spec : FieldSpec) :
    List (String × Json) → Except Error Value
  | [] => .error (spec.key?.elim .wrongType fun key => .missingKey (.scalar key))
  | (key, j) :: rest =>
    if spec.key? == some (.text key) then decodePayload r tag spec j
    else decodeMember r tag spec rest
termination_by structural members => members
def decodeTypes (r : Registry) : List Json → Except Error (List Value)
  | [] => .ok []
  | j :: js => return (← decodeType r j) :: (← decodeTypes r js)
termination_by structural js => js
end

def decodeFeatures (j : Json) : Except Error Value := do
  return Features.toValue (← Features.ofValue (.ofJson (← j.member flagsKey)))

def decodeField (r : Registry) (j : Json) : Except Error Value := do
  let ident ← j.member "ident"
  let ty ← r.decodeType (← j.member "type")
  Class.field.make [.ofJson ident, ty]

def decodeVariant (r : Registry) (j : Json) : Except Error Value := do
  let ident ← j.member "ident"
  let types ← (← (← j.member "fields").items).mapM r.decodeType
  Class.variant.make [.ofJson ident, .tuple types]

/-- The value of a node's field: gates, fields and variants have forms of their own, and any other
document is taken as it is. -/
def decodeNodeField (r : Registry) (name : String) (j : Json) : Except Error Value :=
  if name == "features" then decodeFeatures j
  else if name == "fields" then do return .tuple (← (← j.items).mapM r.decodeField)
  else if name == "variants" then do return .tuple (← (← j.items).mapM r.decodeVariant)
  else .ok (.ofJson j)

/-- The node that a document says. Each field is looked for and read before the next one. -/
def decodeNode (r : Registry) (j : Json) : Except Error Value := do
  let tag ← j.member nodeKey
  match tag with
  | .scalar tag =>
    match r.node? tag with
    | none => .error (.unknownNodeTag tag r.nodeTags)
    | some cls =>
      let fields ← cls.fields.mapM fun spec => do
        let key ← spec.key?.elim (.error .wrongType) .ok
        match j.member? key with
        | some found => r.decodeNodeField spec.name found
        | none => .error (.missingField key tag)
      cls.make fields
  | _ => .error .wrongType

def startsWithTypeTag (r : Registry) (j : Json) : Except Error Bool := do
  match ← j.items with
  | [.scalar tag] => return (r.type? tag).isSome
  | [_] => .error .wrongType
  | _ => return false

def decode (r : Registry) (j : Json) : Except Error Value := do
  if ← j.has nodeKey then r.decodeNode j
  else if ← r.startsWithTypeTag j then r.decodeType j
  else .error .noDiscriminator

def decodeText (r : Registry) (text : String) : Except Error Value :=
  match Json.read text with
  | .error fault => .error (.malformed fault)
  | .ok (.object members) => r.decode (.object members)
  | .ok _ => .error .notTagged

end Registry

end AstSchema
