import AstSchema.Encode
import AstSchema.Event
import AstSchema.Tokens
import AstSchema.Value.Update

/-! Definitions: the declared nodes in order, and the table of token spellings. A repeated
declaration of an ident is joined with the stored one. -/
namespace AstSchema

/-- Any values may stand for the nodes and the table; what is asked of them decides. As values,
nodes have nothing in common: a change to one is seen nowhere else. -/
structure Definitions where
  types : Value
  tokens : Value

/-- The stored node at a position is to have these gates. -/
structure Joining where
  position : Nat
  stored : Value
  gates : Value

/-- What is to become of a declaration: it comes last, or a stored node is joined with it, and the
log tells so. -/
inductive Receipt where
  | appended
  | joined (j : Joining) (event? : Except Error (Option Event))

/-- What became of a declaration: the definitions after it, the position of the node now stored, and
what the log says of it. Without an event the node itself was appended. The log tells flags, and it
may find none to tell when the gates are joined already. -/
structure Addition where
  definitions : Definitions
  position : Nat
  event? : Except Error (Option Event)

namespace Definitions

def toValue (d : Definitions) : Value := .object .definitions [d.types, d.tokens]

def ofValue? : Value → Option Definitions
  | .object ⟨_, _, .definitions, _, _⟩ [types, tokens] => some ⟨types, tokens⟩
  | _ => none

def nodes (d : Definitions) : Except Error (List Value) := d.types.items

def withNodes (d : Definitions) (nodes : List Value) : Definitions :=
  { d with types := d.types.withItems nodes }

def resolve (d : Definitions) (ident : Value) : Except Error (Nat × Value) := do
  let nodes ← d.nodes
  match ← Value.locate ident nodes with
  | some found => return found
  | none => .error (.undeclared ident (← nodes.mapM (·.field "ident")))

def contains (d : Definitions) (ident : Value) : Except Error Bool :=
  d.toValue.holds ident

/-- The tag by which messages call a node: a field of that name goes before the tag of the class. -/
def tagOf (v : Value) : Except Error String :=
  match v, v.field? "tag" with
  | _, some own => .ok own.display
  | .object ⟨_, _, _, some tag, _⟩ _, none => .ok tag.display
  | _, none => .error .noAttribute

def sameKind : Value → Value → Bool
  | .object c _, .object d _ => c == d
  | _, _ => false

/-- Gates can be joined, and so can texts: what is joined by a text is other texts. -/
def canJoin : Value → Bool
  | .object ⟨_, _, .features, _, _⟩ _ | .scalar (.text _) => true
  | _ => false

/-- What gates are once another value is joined with them. A text stays as it is. -/
def joinGates (gates other : Value) : Except Error Value :=
  match gates with
  | .scalar (.text _) => do
    if (← other.items).all (·.isText) then return gates else .error .wrongType
  | gates => do
    return gates.withItems (← Features.joinWith (← gates.items) other)

def withGates (d : Definitions) (nodes : List Value) (j : Joining) : Definitions :=
  d.withNodes (nodes.set j.position (j.stored.withField "features" j.gates))

/-- How a declaration is received. The first one of an ident is kept; a later one has to be of its
kind and only joins its gates. -/
def receive (d : Definitions) (node : Value) : Except Error Receipt := do
  let ident ← node.field "ident"
  let nodes ← d.nodes
  match ← Value.locate ident nodes with
  | none =>
    match d.types with
    | .list _ => return .appended
    | _ => .error .noAttribute
  | some (position, stored) =>
    if sameKind stored node then
      let gates ← stored.field "features"
      let before ← gates.items
      if !canJoin gates then .error (gates.cannot "join")
      let other ← node.field "features"
      let joined ← joinGates gates other
      return .joined ⟨position, stored, joined⟩ do
        return some (.consolidated ident before (← other.items) (← joined.items))
    else .error (.kindsDiffer ident (← tagOf stored) (← tagOf node))

def add (d : Definitions) (node : Value) : Except Error Addition := do
  let receipt ← d.receive node
  let nodes ← d.nodes
  match receipt with
  | .appended => return ⟨d.withNodes (nodes ++ [node]), nodes.length, .ok none⟩
  | .joined j event? => return ⟨d.withGates nodes j, j.position, event?⟩

/-- How flags are received that are to be joined with the gates of a declared node. -/
def receiveFlags (d : Definitions) (ident flags : Value) : Except Error Joining := do
  let (position, node) ← d.resolve ident
  let gates ← node.field "features"
  if !canJoin gates then .error (gates.cannot "join")
  return ⟨position, node, ← joinGates gates (Features.toValue (← Features.ofValue flags))⟩

def joinFlags (d : Definitions) (ident flags : Value) : Except Error Definitions := do
  let j ← d.receiveFlags ident flags
  return d.withGates (← d.nodes) j

def token (d : Definitions) (spelling : Value) : Except Error Value :=
  Tokens.find d.tokens spelling

/-- The document of definitions, as a value: the table comes in ascending order of spelling. -/
def toDocument (d : Definitions) : Except Error Value := do
  let types ← (← d.nodes).mapM Value.encode
  match d.tokens with
  | .mapping entries =>
    return .mapping [(.text "types", .list types),
      (.text "tokens", .mapping (← Tokens.sort entries))]
  | tokens => .error (tokens.cannot "items")

def toText (d : Definitions) (layout : Json.Layout) : Except Error String := do
  return Json.render layout (← (← d.toDocument).toJson)

def decodeEntry (r : Registry) (j : Json) : Except Error Value := do
  match ← r.decode j with
  | .object cls fields =>
    if cls.family == .node then return .object cls fields else .error (.notNode cls.name)
  | v => return v

def decode (r : Registry) (j : Json) : Except Error Definitions := do
  if !(← j.has "types") then .error (.missingSection "types")
  if !(← j.has "tokens") then .error (.missingSection "tokens")
  let types ← (← (← j.member "types").items).mapM (decodeEntry r)
  let tokens ← Tokens.decode (← j.member "tokens")
  return ⟨.list types, .mapping tokens⟩

def decodeText (r : Registry) (text : String) : Except Error Definitions :=
  match Json.read text with
  | .error fault => .error (.malformed fault)
  | .ok j => decode r j

end Definitions

end AstSchema
