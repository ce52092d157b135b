/-! Merging two neighbouring runs into one. A merge works from the front, or from the back with both
runs turned round; it goes item by item, and in strides as long as one side gives many items in a
row. Equal items keep their order. -/
namespace AstSchema.Sort

variable {α : Type}

inductive Direction where
  | forwards
  | backwards

namespace Direction

/-- Of two middles the one that comes first in the whole row. -/
def middle : Direction → Nat → Nat → Nat
  | .forwards, low, high => low + (high - low) / 2
  | .backwards, low, high => high - 1 - (high - low) / 2

/-- Whether the next item is one of the left run, given the next items of both. -/
def takesLeft (below : α → α → Bool) : Direction → α → α → Bool
  | .forwards, a, b => !below b a
  | .backwards, a, b => below b a

end Direction

/-- Leap on in a row, each leap twice as long as the one before: the last place reached that belongs,
and the first one known not to. -/
def leap (belongs : α → Bool) (row : Array α) (last next : Nat) : Nat × Nat :=
  if h : next < row.size then
    if belongs row[next] then leap belongs row next (2 * next + 1) else (last, next)
  else (last, row.size)
termination_by row.size - next

/-- Halve what is left between two places until the first one that does not belong is found. -/
def narrow (direction : Direction) (belongs : α → Bool) (row : Array α) (low high : Nat) : Nat :=
  if _h : low < high then
    let middle := direction.middle low high
    match row[middle]? with
    | some item =>
      if belongs item then narrow direction belongs row (middle + 1) high
      else narrow direction belongs row low middle
    | none => low
  else low
termination_by high - low
decreasing_by all_goals cases direction <;> simp only [Direction.middle] <;> omega

/-- How many items at the front of a row belong there, by leaps and then by halves. -/
def reach (direction : Direction) (belongs : α → Bool) (row : List α) : Nat :=
  match row with
  | [] => 0
  | first :: _ =>
    if belongs first then
      let (last, next) := leap belongs row.toArray 0 1
      narrow direction belongs row.toArray (last + 1) next
    else 0

/-- A merge under way: what it has given so far, the last item first, and what is left of both
runs. -/
structure Merging (α : Type) where
  given : List α
  left : List α
  right : List α

namespace Merging

def size (m : Merging α) : Nat := m.left.length + m.right.length

def giveLeft (n : Nat) (m : Merging α) : Merging α :=
  ⟨(m.left.take n).reverse ++ m.given, m.left.drop n, m.right⟩

def giveRight (n : Nat) (m : Merging α) : Merging α :=
  ⟨(m.right.take n).reverse ++ m.given, m.left, m.right.drop n⟩

/-- A merge is over once one run is gone or the one taken up last is down to a single item. -/
def isOver (direction : Direction) (m : Merging α) : Bool :=
  match direction with
  | .forwards => (m.left.drop 1).isEmpty || m.right.isEmpty
  | .backwards => (m.right.drop 1).isEmpty || m.left.isEmpty

/-- What a merge that is over gives in all: the single item that is left comes last. -/
def items (direction : Direction) (m : Merging α) : List α :=
  match direction with
  | .forwards => m.given.reverse ++ m.right ++ m.left
  | .backwards => m.given.reverse ++ m.left ++ m.right

def takesLeft (below : α → α → Bool) (direction : Direction) (m : Merging α) : Bool :=
  match m.left, m.right with
  | a :: _, b :: _ => direction.takesLeft below a b
  | _, _ => false

def leftReach (below : α → α → Bool) (direction : Direction) (m : Merging α) : Nat :=
  match m.right with
  | b :: _ => reach direction (direction.takesLeft below · b) m.left
  | [] => 0

def rightReach (below : α → α → Bool) (direction : Direction) (m : Merging α) : Nat :=
  match m.left with
  | a :: _ => reach direction (fun b => !direction.takesLeft below a b) m.right
  | [] => 0

/-- So many items at once make it worth while to go on in strides. -/
def longReach : Nat := 7

/-- A stride takes all it can from the left and one item from the right, then all it can from the
right and one item from the left, unless the merge is over before that. -/
def stride (below : α → α → Bool) (direction : Direction) (m : Merging α) : Merging α × Bool :=
  let i := m.leftReach below direction
  let m := m.giveLeft i
  if m.isOver direction then (m, false)
  else
    let m := m.giveRight 1
    if m.isOver direction then (m, false)
    else
      let j := m.rightReach below direction
      let m := m.giveRight j
      if m.isOver direction then (m, false)
      else (m.giveLeft 1, longReach ≤ i || longReach ≤ j)

theorem size_giveLeft_le (n : Nat) (m : Merging α) : (m.giveLeft n).size ≤ m.size := by
  simp [size, giveLeft]

theorem size_giveRight_le (n : Nat) (m : Merging α) : (m.giveRight n).size ≤ m.size := by
  simp [size, giveRight]

/-- Until a merge is over both sides have an item to give. -/
theorem length_pos_of_not_isOver {direction : Direction} {m : Merging α}
    (h : ¬ m.isOver direction) : 0 < m.left.length ∧ 0 < m.right.length := by
  rcases m with ⟨_, left, right⟩
  cases direction <;> cases left <;> cases right <;> simp_all [isOver]

theorem size_giveLeft_one_lt {direction : Direction} {m : Merging α}
    (h : ¬ m.isOver direction) : (m.giveLeft 1).size < m.size := by
  have := length_pos_of_not_isOver h
  simp only [size, giveLeft, List.length_drop]
  omega

theorem size_giveRight_one_lt {direction : Direction} {m : Merging α}
    (h : ¬ m.isOver direction) : (m.giveRight 1).size < m.size := by
  have := length_pos_of_not_isOver h
  simp only [size, giveRight, List.length_drop]
  omega

theorem size_stride_lt (below : α → α → Bool) {direction : Direction} {m : Merging α}
    (h : ¬ (m.stride below direction).1.isOver direction) :
    (m.stride below direction).1.size < m.size := by
  revert h
  simp only [stride]
  split
  · exact fun h => absurd ‹_› h
  · split
    · exact fun h => absurd ‹_› h
    · split
      · exact fun h => absurd ‹_› h
      · intro _
        exact Nat.lt_of_lt_of_le (size_giveLeft_one_lt ‹_›) (Nat.le_trans (size_giveRight_le _ _)
          (Nat.le_trans (size_giveRight_le _ _) (size_giveLeft_le _ _)))

end Merging

/-- How a merge goes on: item by item, with the number of items that the left and the right side gave
in a row, or in strides. -/
inductive Pace where
  | steps (left right : Nat)
  | strides

/-- What a merge gives, and how many items in a row the next one waits for before it strides. -/
structure Merged (α : Type) where
  items : List α
  patience : Nat

/-- Carry a merge to its end. Every further stride makes it less patient, and a return to single
steps more. -/
def mergeOn (below : α → α → Bool) (direction : Direction) (pace : Pace) (patience : Nat)
    (m : Merging α) : Merged α :=
  if _h : m.isOver direction then ⟨m.items direction, patience⟩
  else
    match pace with
    | .steps left right =>
      if m.takesLeft below direction then
        let pace := if patience ≤ left + 1 then .strides else .steps (left + 1) 0
        mergeOn below direction pace patience (m.giveLeft 1)
      else
        let pace := if patience ≤ right + 1 then .strides else .steps 0 (right + 1)
        mergeOn below direction pace patience (m.giveRight 1)
    | .strides =>
      let next := (m.stride below direction).1
      if _h : next.isOver direction then ⟨next.items direction, patience⟩
      else if (m.stride below direction).2 then
        mergeOn below direction .strides (max 1 (patience - 1)) next
      else mergeOn below direction (.steps 0 0) (patience + 1) next
termination_by m.size
decreasing_by
  · exact Merging.size_giveLeft_one_lt ‹_›
  · exact Merging.size_giveRight_one_lt ‹_›
  · exact Merging.size_stride_lt below ‹_›
  · exact Merging.size_stride_lt below ‹_›

/-- Merge two neighbouring runs. What of the left one comes before all of the right one stays, and so
does what of the right one comes after all of the left one; of the rest, the shorter part is taken
up last. -/
def mergeRuns (below : α → α → Bool) (patience : Nat) (left right : List α) : Merged α :=
  match right with
  | [] => ⟨left, patience⟩
  | first :: _ =>
    let (front, left) := left.splitAt (reach .forwards (fun a => !below first a) left)
    match left.reverse with
    | [] => ⟨front ++ right, patience⟩
    | last :: before =>
      let settled := reach .backwards (fun b => !below b last) right.reverse
      match right.splitAt (right.length - settled) with
      | ([], back) => ⟨front ++ left ++ back, patience⟩
      | (b :: bs, back) =>
        if left.length ≤ bs.length + 1 then
          let merged := mergeOn below .forwards (.steps 0 0) patience ⟨[b], left, bs⟩
          ⟨front ++ merged.items ++ back, merged.patience⟩
        else
          let merged := mergeOn below .backwards (.steps 0 0) patience
            ⟨[last], before, (b :: bs).reverse⟩
          ⟨front ++ merged.items.reverse ++ back, merged.patience⟩

end AstSchema.Sort
