import AstSchema.Class

/-! Values: scalars, containers, and objects of a class. Any value may stand in any field. -/
namespace AstSchema

/-- The fields of an object are in the order of its class. The keys of a mapping are scalars, as
they are in documents and in tables of tokens: the tuples and objects that could be keys as well are
left out. -/
inductive Value where
  | scalar (s : Scalar)
  | list (items : List Value)
  | tuple (items : List Value)
  | mapping (entries : List (Scalar × Value))
  | object (cls : Class) (fields : List Value)
deriving Inhabited

/-- A fingerprint is a row of marks: what scalars stand for, and where composite values begin and
end. -/
inductive Mark where
  | atom (m : Meaning)
  | opening
  | closing
deriving DecidableEq

namespace Value

abbrev text (s : String) : Value := .scalar (.text s)

abbrev int (n : Int) : Value := .scalar (.int n)

abbrev bool (b : Bool) : Value := .scalar (.bool b)

def isText : Value → Bool
  | .scalar (.text _) => true
  | _ => false

def field? (name : String) : Value → Option Value
  | .object cls fields => (cls.fieldNames.zip fields).lookup name
  | _ => none

mutual
/-- Sameness: equal scalars, lists or tuples item by item, mappings whatever their order, objects of
one class field by field. -/
def same : Value → Value → Bool
  | .scalar a, .scalar b => a.same b
  | .list as, .list bs => sameItems as bs
  | .tuple as, .tuple bs => sameItems as bs
  | .mapping as, .mapping bs => as.length == bs.length && sameEntries as bs
  | .object c as, .object d bs => c == d && sameItems as bs
  | _, _ => false
termination_by structural a => a
def sameItems : List Value → List Value → Bool
  | [], [] => true
  | a :: as, b :: bs => same a b && sameItems as bs
  | _, _ => false
termination_by structural as => as
def sameEntries : List (Scalar × Value) → List (Scalar × Value) → Bool
  | [], _ => true
  | (k, a) :: rest, bs =>
    (match Entries.find? Scalar.same k bs with
      | some b => same a b
      | none => false) && sameEntries rest bs
termination_by structural as => as
end

/-- A NaN by itself is the one value that is not equal to itself. -/
def isNaN : Value → Bool
  | .scalar s => s.isNaN
  | _ => false

/-- Equality as a question on its own. -/
def equal (a b : Value) : Bool := a.same b && !a.isNaN

mutual
/-- What a look-up of a value goes by. Only what cannot change has it: not a list, a mapping, gates,
definitions or a report, nor what holds one of them in a field that counts. -/
def fingerprint? : Value → Option (List Mark)
  | .scalar s => some [.atom s.meaning]
  | .tuple items => return .opening :: (← fingerprints? items) ++ [.closing]
  | .list _ | .mapping _ => none
  | .object cls fields =>
    match cls.role with
    | .features | .definitions | .report => none
    | _ => return .opening :: (← fieldFingerprints? cls.fields fields) ++ [.closing]
termination_by structural v => v
def fingerprints? : List Value → Option (List Mark)
  | [] => some []
  | v :: vs => return (← fingerprint? v) ++ (← fingerprints? vs)
termination_by structural vs => vs
def fieldFingerprints? : List FieldSpec → List Value → Option (List Mark)
  | spec :: specs, v :: vs =>
    if spec.hashed then return (← fingerprint? v) ++ (← fieldFingerprints? specs vs)
    else fieldFingerprints? specs vs
  | _, _ => some []
termination_by structural _ vs => vs
end

def isHashable (v : Value) : Bool := v.fingerprint?.isSome

/-- Whether a look-up of one value finds the other: their fingerprints agree, and they are the
same. -/
def isFoundBy (stored sought : Value) : Bool :=
  stored.fingerprint? == sought.fingerprint? && stored.same sought

mutual
/-- A document as a value: arrays become lists and objects mappings. -/
def ofJson : Json → Value
  | .scalar s => .scalar s
  | .array items => .list (ofJsonItems items)
  | .object members => .mapping (ofJsonMembers members)
termination_by structural j => j
def ofJsonItems : List Json → List Value
  | [] => []
  | j :: js => ofJson j :: ofJsonItems js
termination_by structural js => js
def ofJsonMembers : List (String × Json) → List (Scalar × Value)
  | [] => []
  | (k, j) :: ms => (.text k, ofJson j) :: ofJsonMembers ms
termination_by structural ms => ms
end

end Value

end AstSchema
