import AstSchema.Sort
import AstSchema.Value.Entry

/-! The table of token spellings: a mapping from each spelling to the name of its token type. Any
value may stand for it; what is asked of it decides. -/
namespace AstSchema.Tokens

def find (table spelling : Value) : Except Error Value := do
  if ← table.holds spelling then table.entry spelling else .error (.unknownSpelling spelling)

def isBelow (a b : Scalar × Value) : Bool := a.1.lt? b.1 == some true

/-- Whether the keys of all entries have an order: they are texts, or numbers. A single key needs
none. -/
def haveOrder : List (Scalar × Value) → Bool
  | [] => true
  | first :: rest => rest.all fun entry => (entry.1.lt? first.1).isSome

/-- Entries in ascending order of their keys. A NaN is neither below nor above any number, so next to
one it matters how the sort goes about it; the other tables have one ascending order. -/
def sort (entries : List (Scalar × Value)) : Except Error (List (Scalar × Value)) :=
  if !haveOrder entries then .error .wrongType
  else if entries.any (·.1.isNaN) then .ok (Sort.byRuns isBelow entries)
  else .ok (entries.mergeSort fun a b => !isBelow b a)

/-- No key is below the one before it, so the whole table is one run and stays as it is. -/
example : (sort [(.int 2, .text "a"), (.float .nan, .text "b"), (.int 1, .text "c")]).toOption.map
    (·.map (·.1)) = some [.int 2, .float .nan, .int 1] := by decide +kernel

/-- A table from a document: an object as it is, or any other collection of pairs, one after the
other. -/
def decode : Json → Except Error (List (Scalar × Value))
  | .object members => .ok (Value.ofJsonMembers members)
  | j => do go 0 [] (← j.items)
where
  go (position : Nat) (table : List (Scalar × Value)) :
      List Json → Except Error (List (Scalar × Value))
    | [] => .ok table
    | pair :: rest => do
      match ← pair.items with
      | [.scalar key, value] =>
        go (position + 1) (Entries.put Scalar.same key (.ofJson value) table) rest
      | [_, _] => .error .wrongType
      | items => .error (.badPair position items.length)

end AstSchema.Tokens
