import AstSchema.Value.Collection

/-! Counting values. Values that are the same count as one, under the first spelling of it. -/
namespace AstSchema.Value

/-- Only hashable values can be counted and looked for. -/
def hashable (v : Value) : Except Error Value :=
  if v.isHashable then .ok v else .error .wrongType

def bump (v : Value) : List (Value × Nat) → List (Value × Nat)
  | [] => [(v, 1)]
  | (w, n) :: rest => if w.isFoundBy v then (w, n + 1) :: rest else (w, n) :: bump v rest

/-- How often each value occurs, in the order of first occurrence. -/
def tally (vs : List Value) : List (Value × Nat) := vs.foldl (fun counts v => bump v counts) []

def countDistinct (collection : Value) : Except Error Nat := do
  return (tally (← (← collection.items).mapM hashable)).length

end AstSchema.Value
