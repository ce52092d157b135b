/-! Rows of keys and values in the order of first appearance. `same` says which keys are one key. -/
namespace AstSchema.Entries

variable {α β : Type}

def find? (same : α → α → Bool) (key : α) : List (α × β) → Option β
  | [] => none
  | (k, v) :: rest => if same k key then some v else find? same key rest

/-- Put a value under a key: a known key keeps its place and its spelling, a new one comes last. -/
def put (same : α → α → Bool) (key : α) (value : β) : List (α × β) → List (α × β)
  | [] => [(key, value)]
  | (k, v) :: rest =>
    if same k key then (k, value) :: rest else (k, v) :: put same key value rest

/-- Each key once, at its first place, with its last value. -/
def ofPairs (same : α → α → Bool) (pairs : List (α × β)) : List (α × β) :=
  pairs.foldl (fun entries (k, v) => put same k v entries) []

@[simp] theorem find?_put {same : α → α → Bool} (key : α) (hkey : same key key) (value : β)
    (entries : List (α × β)) : find? same key (put same key value entries) = some value := by
  induction entries with
  | nil => simp [put, find?, hkey]
  | cons entry rest ih =>
    obtain ⟨k, v⟩ := entry
    by_cases h : same k key <;> simp [put, find?, h, ih]

end AstSchema.Entries
