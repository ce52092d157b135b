/-! Runs: the stretches of a list that are in order already, or in strictly falling order. Sorting
starts from them. Where some items cannot be compared, the outcome of a sort depends on which pairs
it compares, so these definitions settle that too. -/
namespace AstSchema.Sort

variable {α : Type} (below : α → α → Bool)

def streak (falling : Bool) (last : α) : List α → Nat
  | [] => 0
  | item :: rest => if below item last == falling then streak falling item rest + 1 else 0

/-- The run that a list begins with, turned to rise, and what follows it. -/
def splitRun : List α → List α × List α
  | first :: second :: rest =>
    let falling := below second first
    let items := first :: second :: rest
    let (run, others) := items.splitAt (1 + streak below falling first (second :: rest))
    (if falling then run.reverse else run, others)
  | items => (items, [])

/-- The place between two places of a row where an item belongs: the item in the middle tells which
half is left. -/
def placeWithin (item : α) (row : Array α) (low high : Nat) : Nat :=
  if _h : low < high then
    let middle := low + (high - low) / 2
    match row[middle]? with
    | some other =>
      if below item other then placeWithin item row low middle
      else placeWithin item row (middle + 1) high
    | none => low
  else low
termination_by high - low

/-- Put an item where halving the row leads. -/
def insertByHalves (row : List α) (item : α) : List α :=
  let (before, after) := row.splitAt (placeWithin below item row.toArray 0 row.length)
  before ++ item :: after

/-- The run that a list begins with, filled up to a least length from what follows it. -/
def splitFullRun (least : Nat) (items : List α) : List α × List α :=
  let (run, others) := splitRun below items
  let (fill, rest) := others.splitAt (least - run.length)
  (fill.foldl (insertByHalves below) run, rest)

theorem length_splitRun (items : List α) :
    (splitRun below items).1.length + (splitRun below items).2.length = items.length := by
  unfold splitRun
  split
  · simp only [List.splitAt_eq]
    split <;> simp <;> omega
  · simp

theorem splitRun_ne_nil {items : List α} (h : items ≠ []) : (splitRun below items).1 ≠ [] := by
  unfold splitRun
  split
  · simp only [List.splitAt_eq]
    split <;> simp [Nat.add_comm 1]
  · exact h

theorem length_splitFullRun_lt (least : Nat) {items : List α} (h : items ≠ []) :
    (splitFullRun below least items).2.length < items.length := by
  have total := length_splitRun below items
  have := List.length_pos_iff.2 (splitRun_ne_nil below h)
  simp only [splitFullRun, List.splitAt_eq, List.length_drop]
  omega

def runs (least : Nat) (items : List α) : List (List α) :=
  if _h : items = [] then []
  else
    (splitFullRun below least items).1 :: runs least (splitFullRun below least items).2
termination_by items.length
decreasing_by exact length_splitFullRun_lt below least ‹_›

end AstSchema.Sort
