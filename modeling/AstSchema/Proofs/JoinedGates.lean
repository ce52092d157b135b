import AstSchema.Proofs.Consolidation
import AstSchema.Proofs.Gates
import Mathlib.Logic.Function.Basic

/-! Gates that are joined where they stand. A join gives the union of both sides, spelled as one of
them is, or writes nothing; whatever stands elsewhere stays as it is. -/
namespace AstSchema.Features

variable {flags mine theirs larger smaller : List Value}

theorem Covers.contains_iff (h : Covers larger smaller) (flag : Value) :
    Features.contains larger flag ↔
      Features.contains larger flag ∨ Features.contains smaller flag :=
  ⟨.inl, fun hflag => hflag.elim id h.contains⟩

/-- The flags of both sides and no others, spelled as on one side, which is as long as the other at
least. -/
structure IsUnion (flags mine theirs : List Value) : Prop where
  eq_or_eq : flags = mine ∨ flags = theirs
  length_eq : flags.length = max mine.length theirs.length
  contains_iff : ∀ flag, contains flags flag ↔ contains mine flag ∨ contains theirs flag

theorem isUnion_of_join (h : join mine theirs = .ok flags) : IsUnion flags mine theirs := by
  obtain ⟨hcovers, rfl⟩ | ⟨-, hcovers, rfl⟩ := join_eq_ok_iff.1 h
  · refine ⟨.inr rfl, (Nat.max_eq_right hcovers.length_le).symm, fun flag => ?_⟩
    rw [or_comm]
    exact hcovers.contains_iff flag
  · exact ⟨.inl rfl, (Nat.max_eq_left hcovers.length_le).symm, hcovers.contains_iff⟩

theorem nested_of_join (h : join mine theirs = .ok flags) : Nested mine theirs :=
  (exists_join_iff.1 ⟨flags, h⟩).imp Covers.isSubset Covers.isSubset

/-! ## Places -/

section

variable {ι : Type} [DecidableEq ι]

/-- The gates in all places after those in one place are joined with those in another. -/
def joinAt (gates : ι → List Value) (i j : ι) : ι → List Value :=
  Function.update gates i (Definitions.joinOrKeep (gates i) (gates j))

variable {gates : ι → List Value} {i j k : ι}

theorem joinAt_self_of_ok (h : join (gates i) (gates j) = .ok flags) :
    joinAt gates i j i = flags := by
  rw [joinAt, Function.update_self, Definitions.joinOrKeep, h]

theorem joinAt_of_error {e : Error} (h : join (gates i) (gates j) = .error e) :
    joinAt gates i j = gates := by
  rw [joinAt, Definitions.joinOrKeep, h]
  exact Function.update_eq_self i gates

theorem joinAt_of_ne (h : k ≠ i) : joinAt gates i j k = gates k :=
  Function.update_of_ne h _ _

/-- Gates that are joined with themselves have only one way to be spelled. -/
theorem joinAt_other : joinAt gates i j j = gates j := by
  by_cases hji : j = i
  · subst hji
    cases h : join (gates j) (gates j) with
    | ok flags =>
      rw [joinAt_self_of_ok h]
      exact (isUnion_of_join h).eq_or_eq.elim id id
    | error e => rw [joinAt_of_error h]
  · exact joinAt_of_ne hji

/-- Gates that are joined with those in another place, which may be their own, become the union of
both, which then are nested, or else nothing changes and the conflict names both sides. Only the
place of the join is ever written. Without repetitions there is a conflict exactly if neither side
holds the other. -/
theorem joinAt_union (hmine : ∀ f ∈ gates i, f.Keyed) (htheirs : ∀ f ∈ gates j, f.Keyed) :
    (∀ flags, join (gates i) (gates j) = .ok flags →
      joinAt gates i j i = flags ∧ IsUnion flags (gates i) (gates j) ∧
        Nested (gates i) (gates j)) ∧
    (∀ e, join (gates i) (gates j) = .error e →
      e = .unnestedFeatures (gates i) (gates j) ∧ joinAt gates i j i = gates i) ∧
    (∀ k, k ≠ i ∨ k = j → joinAt gates i j k = gates k) ∧
    (Distinct (gates i) → Distinct (gates j) →
      ((∃ e, join (gates i) (gates j) = .error e) ↔ ¬ Nested (gates i) (gates j))) := by
  refine ⟨fun flags h => ?_, fun e h => ?_, fun k hk => ?_, fun hdistinct hdistinct' => ?_⟩
  · exact ⟨joinAt_self_of_ok h, isUnion_of_join h, nested_of_join h⟩
  · exact ⟨join_eq_error h, congrFun (joinAt_of_error h) i⟩
  · obtain hne | rfl := hk
    · exact joinAt_of_ne hne
    · exact joinAt_other
  · rw [← exists_join_iff_nested hmine htheirs hdistinct hdistinct']
    cases join (gates i) (gates j) <;> simp

end

/-- Numbers and truth values are equal flags if they stand for the same number, and a repeated flag
counts for the length. -/
def repeatedGates : Bool → List Value
  | false => [.bool true, .text "full"]
  | true => [.text "full", .int 1, .text "full"]

theorem joinAt_union_of_repeated :
    (∀ f ∈ repeatedGates false, f.Keyed) ∧ (∀ f ∈ repeatedGates true, f.Keyed) ∧
      joinAt repeatedGates false true false = repeatedGates true ∧
      IsUnion (repeatedGates true) (repeatedGates false) (repeatedGates true) ∧
      joinAt repeatedGates false true true = repeatedGates true := by
  have hfalse : ∀ f ∈ repeatedGates false, f.Keyed :=
    List.forall_mem_cons.2 ⟨.scalar _, List.forall_mem_singleton.2 (.scalar _)⟩
  have htrue : ∀ f ∈ repeatedGates true, f.Keyed :=
    List.forall_mem_cons.2 ⟨.scalar _, List.forall_mem_cons.2
      ⟨.scalar _, List.forall_mem_singleton.2 (.scalar _)⟩⟩
  have hjoin : join (repeatedGates false) (repeatedGates true) = .ok (repeatedGates true) := rfl
  obtain ⟨hok, -, hother, -⟩ := joinAt_union hfalse htrue
  obtain ⟨hplace, hunion, -⟩ := hok _ hjoin
  exact ⟨hfalse, htrue, hplace, hunion, hother true (.inr rfl)⟩

end AstSchema.Features
