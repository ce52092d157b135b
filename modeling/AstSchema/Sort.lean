import AstSchema.Sort.Merge
import AstSchema.Sort.Runs

/-! A stable sort by runs. Neighbouring runs are merged in the order in which a balanced tree over the
whole list would merge them. With a total order all stable sorts give the same; this one also says
what becomes of items that cannot be compared. -/
namespace AstSchema.Sort

variable {α : Type}

def runLimit : Nat := 64

/-- The least length of a run: the length halved until it is below the limit, and one more if a half
was not even. -/
def leastRun (length : Nat) : Nat :=
  halve false length
where
  halve (uneven : Bool) (n : Nat) : Nat :=
    if n < runLimit then n + uneven.toNat else halve (uneven || n % 2 == 1) (n / 2)
  termination_by n
  decreasing_by simp only [runLimit] at *; omega

/-- Runs of about equal length come out at a power of two in number. -/
example : leastRun 63 = 63 ∧ leastRun 64 = 32 ∧ leastRun 65 = 33 ∧ leastRun 2112 = 33 := by
  decide +kernel

/-- The depth of the boundary between two neighbouring runs: the first binary digit in which the
middles of the two, as fractions of the whole length, differ. -/
def depth (length start left right : Nat) : Nat :=
  let middle := 2 * start + left
  let nextMiddle := middle + left + right
  let differ (k : Nat) := middle * Nat.pow 2 k / length != nextMiddle * Nat.pow 2 k / length
  ((List.range (length.log2 + 1)).find? differ).getD length.log2 + 1

/-- A run that waits to be merged with the one after it, and the depth of the boundary between
them. -/
structure Waiting (α : Type) where
  run : List α
  depth : Nat

/-- Merge a run with the ones that wait before it, as long as their boundaries are deeper. -/
def collapse (below : α → α → Bool) (depth : Nat) :
    List (Waiting α) → Merged α → List (Waiting α) × Merged α
  | [], current => ([], current)
  | top :: rest, current =>
    if depth < top.depth then
      collapse below depth rest (mergeRuns below current.patience top.run current.items)
    else (top :: rest, current)

/-- Merge all that waits. The last run waits itself if the one before the top is shorter. -/
def finish (below : α → α → Bool) (waiting : List (Waiting α)) (current : Merged α) : List α :=
  match waiting with
  | [] => current.items
  | [top] => (mergeRuns below current.patience top.run current.items).items
  | top :: next :: rest =>
    if next.run.length < current.items.length then
      let merged := mergeRuns below current.patience next.run top.run
      finish below (⟨merged.items, next.depth⟩ :: rest) ⟨current.items, merged.patience⟩
    else finish below (next :: rest) (mergeRuns below current.patience top.run current.items)
termination_by waiting.length

/-- Merge the runs of a list of that length. `start` is where the current run begins. -/
def mergeAll (below : α → α → Bool) (length : Nat) (waiting : List (Waiting α)) (start : Nat)
    (current : Merged α) : List (List α) → List α
  | [] => finish below waiting current
  | next :: rest =>
    let size := current.items.length
    let depth := depth length start size next.length
    let (waiting, merged) := collapse below depth waiting current
    mergeAll below length (⟨merged.items, depth⟩ :: waiting) (start + size)
      ⟨next, merged.patience⟩ rest

def byRuns (below : α → α → Bool) (items : List α) : List α :=
  match runs below (leastRun items.length) items with
  | [] => []
  | first :: rest => mergeAll below items.length [] 0 ⟨first, Merging.longReach⟩ rest

end AstSchema.Sort
