import AstSchema.Error

/-! Values as collections: what they hold, in which order, and what is refused. -/
namespace AstSchema

def characters (s : String) : List String := s.toList.map String.singleton

def containsText (part whole : String) : Bool := occurs part.toList whole.toList
where
  occurs (part : List Char) : List Char → Bool
    | [] => part.isEmpty
    | c :: cs => part.isPrefixOf (c :: cs) || occurs part cs

namespace Value

def field (v : Value) (name : String) : Except Error Value :=
  match v.field? name with
  | some found => .ok found
  | none => .error .noAttribute

/-- Why a value cannot do what is asked of it by name: it has nothing of that name, or a field, and
what stands in a field does nothing. -/
def cannot (v : Value) (name : String) : Error :=
  if (v.field? name).isSome then .wrongType else .noAttribute

/-- What a value holds: items, keys, characters, flags or nodes. -/
def items : Value → Except Error (List Value)
  | .list xs | .tuple xs => .ok xs
  | .mapping entries => .ok (entries.map fun (k, _) => .scalar k)
  | .scalar (.text s) => .ok ((characters s).map text)
  | .object ⟨_, _, .features, _, _⟩ (flags :: _) => items flags
  | .object ⟨_, _, .definitions, _, _⟩ (types :: _) => items types
  | _ => .error .wrongType

def size (v : Value) : Except Error Nat := return (← v.items).length

/-- Emptiness, zero, null and false are not true, and every other value is. -/
def isTrue (v : Value) : Except Error Bool :=
  match v with
  | .scalar s => .ok s.isTrue
  | .object ⟨_, _, .features, _, _⟩ _ | .object ⟨_, _, .definitions, _, _⟩ _
  | .list _ | .tuple _ | .mapping _ => return (← v.size) != 0
  | .object .. => .ok true

/-- The key that a hashable scalar makes. No other hashable value is the same as a scalar. -/
def lookup (key : Value) (entries : List (Scalar × Value)) : Except Error (Option Value) :=
  match key with
  | .scalar k => .ok (Entries.find? Scalar.same k entries)
  | v => if v.isHashable then .ok none else .error .wrongType

def locate (ident : Value) : List Value → Except Error (Option (Nat × Value))
  | [] => .ok none
  | node :: rest => do
    if (← node.field "ident").equal ident then return some (0, node)
    else return (← locate ident rest).map fun (i, found) => (i + 1, found)

/-- Whether a value is among those a collection holds: a text within a text, an equal flag, a node
of that ident, a key, or an item that is the same. -/
def holds (collection member : Value) : Except Error Bool :=
  match collection with
  | .list xs | .tuple xs => .ok (xs.any (·.same member))
  | .mapping entries => return (← lookup member entries).isSome
  | .scalar (.text whole) =>
    match member with
    | .scalar (.text part) => .ok (containsText part whole)
    | _ => .error .wrongType
  | .object ⟨_, _, .features, _, _⟩ _ => return (← collection.items).any (·.equal member)
  | .object ⟨_, _, .definitions, _, _⟩ _ => do return (← locate member (← collection.items)).isSome
  | _ => .error .wrongType

/-- The whole number that a position is: truth values count as zero and one. -/
def position? : Value → Option Int
  | .scalar (.int n) => some n
  | .scalar (.bool b) => some (if b then 1 else 0)
  | _ => none

/-- Positions take part of a machine word: a number from here on is none, and neither is one below
the negative of it. -/
def positionLimit : Int := Int.pow 2 63

/-- The item at a position; negative positions count from the end. `collection` is what a message
calls the collection. -/
def itemAt (collection : String) (xs : List Value) (index : Value) : Except Error Value :=
  match index.position? with
  | none => .error .wrongType
  | some position =>
    if position < -positionLimit || positionLimit ≤ position then .error .positionTooLarge
    else
      let place := if position < 0 then position + xs.length else position
      match if place < 0 then none else xs[place.toNat]? with
      | some v => .ok v
      | none => .error (.noSuchPosition collection)

end Value

namespace Json

/-- Whether a document holds a text: as a key, as an item, or within a text. -/
def has (key : String) : Json → Except Error Bool
  | .object members => .ok (members.any fun (k, _) => k == key)
  | .array items => .ok (items.any fun
    | .scalar (.text s) => s == key
    | _ => false)
  | .scalar (.text s) => .ok (containsText key s)
  | .scalar _ => .error .wrongType

/-- The member of an object under a key. Only texts are keys of documents. -/
def member? (key : Scalar) : Json → Option Json
  | .object members =>
    match key with
    | .text key => members.lookup key
    | _ => none
  | _ => none

def member (key : String) (j : Json) : Except Error Json :=
  match j with
  | .object _ => (j.member? (.text key)).elim (.error (.missingKey (.text key))) .ok
  | _ => .error .wrongType

/-- What a document holds: items, keys or characters. -/
def items : Json → Except Error (List Json)
  | .array items => .ok items
  | .object members => .ok (members.map fun (k, _) => .text k)
  | .scalar (.text s) => .ok ((characters s).map .text)
  | .scalar _ => .error .wrongType

end Json

end AstSchema
