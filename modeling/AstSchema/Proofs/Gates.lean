import AstSchema.Features
import AstSchema.Proofs.Equality

/-! Joining gates. What decides is which list of flags covers the other: a join succeeds exactly if
one of them does, and gives the one that covers. Without repetitions a list covers another exactly
if it holds all its flags. -/
namespace AstSchema.Features

variable {flags mine theirs smaller larger : List Value} {flag : Value}

theorem contains_iff : contains flags flag ↔ ∃ f ∈ flags, f.equal flag := by
  simp [contains]

theorem isSubset_iff : isSubset smaller larger ↔ ∀ f ∈ smaller, contains larger f := by
  simp [isSubset]

theorem contains_of_isSubset (h : isSubset smaller larger) (hflag : contains smaller flag) :
    contains larger flag := by
  obtain ⟨f, hf, hequal⟩ := contains_iff.1 hflag
  obtain ⟨g, hg, hequal'⟩ := contains_iff.1 (isSubset_iff.1 h f hf)
  exact contains_iff.2 ⟨g, hg, Value.equal_trans hequal' hequal⟩

theorem isSubset_trans (h : isSubset flags smaller) (h' : isSubset smaller larger) :
    isSubset flags larger := by
  rw [isSubset_iff] at h ⊢
  intro f hf
  exact contains_of_isSubset h' (h f hf)

theorem isSubset_refl (h : ∀ f ∈ flags, f.Keyed ∧ f.isNaN = false) : isSubset flags flags := by
  rw [isSubset_iff]
  intro f hf
  exact contains_iff.2 ⟨f, hf, Value.equal_refl (h f hf).1 (h f hf).2⟩

/-- The flags of one are flags of the other, which is at least as long; where it is no longer, its
flags are those of the first too. -/
structure Covers (larger smaller : List Value) : Prop where
  isSubset : isSubset smaller larger
  length_le : smaller.length ≤ larger.length
  conversely : larger.length ≤ smaller.length → Features.isSubset larger smaller

theorem Covers.refl (h : ∀ f ∈ flags, f.Keyed ∧ f.isNaN = false) : Covers flags flags :=
  ⟨isSubset_refl h, Nat.le_refl _, fun _ => isSubset_refl h⟩

theorem Covers.trans (h : Covers larger smaller) (h' : Covers smaller flags) :
    Covers larger flags where
  isSubset := isSubset_trans h'.isSubset h.isSubset
  length_le := Nat.le_trans h'.length_le h.length_le
  conversely hlength := by
    have hlower := h.length_le
    have hlower' := h'.length_le
    exact isSubset_trans (h.conversely (by omega)) (h'.conversely (by omega))

theorem Covers.contains (h : Covers larger smaller) (hflag : contains smaller flag) :
    contains larger flag :=
  contains_of_isSubset h.isSubset hflag

/-- Where both are as long, the flags are the same. -/
theorem Covers.symm (h : Covers larger smaller) (hlength : larger.length ≤ smaller.length) :
    Covers smaller larger :=
  ⟨h.conversely hlength, hlength, fun _ => h.isSubset⟩

theorem covers_iff_of_length_lt (hlength : smaller.length < larger.length) :
    Covers larger smaller ↔ Features.isSubset smaller larger := by
  refine ⟨Covers.isSubset, ?_⟩
  intro h
  exact ⟨h, by omega, fun hlong => absurd hlength (by omega)⟩

theorem covers_iff_of_length_eq (hlength : smaller.length = larger.length) :
    Covers larger smaller ↔
      Features.isSubset larger smaller ∧ Features.isSubset smaller larger := by
  refine ⟨fun h => ⟨h.conversely (by omega), h.isSubset⟩, ?_⟩
  intro h
  exact ⟨h.2, by omega, fun _ => h.1⟩

/-! ## What a join gives -/

/-- The other side wins if it covers mine; mine stays only where it is longer. -/
theorem join_eq_ok_iff :
    join mine theirs = .ok flags ↔
      (Covers theirs mine ∧ flags = theirs) ∨
      (theirs.length < mine.length ∧ Covers mine theirs ∧ flags = mine) := by
  unfold join
  split
  next hempty =>
    obtain rfl := List.isEmpty_iff.1 hempty
    have hcovers : Covers theirs [] := by
      cases theirs with
      | nil => exact (covers_iff_of_length_eq rfl).2 ⟨rfl, rfl⟩
      | cons f theirs => exact (covers_iff_of_length_lt (by simp)).2 rfl
    simp [hcovers, eq_comm]
  next =>
    split
    next hshort =>
      have hnot : ¬ theirs.length < mine.length := by omega
      by_cases h : isSubset mine theirs <;>
        simp [h, covers_iff_of_length_lt hshort, hnot, eq_comm]
    next =>
      split
      next hshort =>
        have hnot : ¬ Covers theirs mine := fun h => absurd h.length_le (by omega)
        by_cases h : isSubset theirs mine <;>
          simp [h, covers_iff_of_length_lt hshort, hnot, hshort, eq_comm]
      next =>
        have hlength : mine.length = theirs.length := by omega
        have hnot : ¬ theirs.length < mine.length := by omega
        by_cases h : isSubset theirs mine <;> by_cases h' : isSubset mine theirs <;>
          simp [h, h', covers_iff_of_length_eq hlength, hnot, eq_comm]

theorem exists_join_iff :
    (∃ flags, join mine theirs = .ok flags) ↔ Covers theirs mine ∨ Covers mine theirs := by
  simp only [join_eq_ok_iff]
  constructor
  · rintro ⟨flags, ⟨h, -⟩ | ⟨-, h, -⟩⟩
    · exact .inl h
    · exact .inr h
  · intro h
    by_cases hlength : theirs.length < mine.length
    · have hcovers : Covers mine theirs := h.resolve_left fun h => absurd h.length_le (by omega)
      exact ⟨mine, .inr ⟨hlength, hcovers, rfl⟩⟩
    · have hcovers : Covers theirs mine := by
        obtain h | h := h
        · exact h
        · exact h.symm (by omega)
      exact ⟨theirs, .inl ⟨hcovers, rfl⟩⟩

/-- Flags that are covered are accepted, and leave as many flags and the same ones. -/
theorem exists_join_of_covers (h : Covers mine theirs) :
    ∃ flags, join mine theirs = .ok flags ∧ flags.length = mine.length ∧
      ∀ flag, contains flags flag = contains mine flag := by
  by_cases hlength : theirs.length < mine.length
  · exact ⟨mine, join_eq_ok_iff.2 (.inr ⟨hlength, h, rfl⟩), rfl, fun _ => rfl⟩
  · have hback : Covers theirs mine := h.symm (by omega)
    refine ⟨theirs, join_eq_ok_iff.2 (.inl ⟨hback, rfl⟩), ?_, ?_⟩
    · exact Nat.le_antisymm h.length_le hback.length_le
    · intro flag
      rw [Bool.eq_iff_iff]
      exact ⟨h.contains, hback.contains⟩

/-! ## Without repetitions -/

def Distinct (flags : List Value) : Prop := flags.Pairwise fun f g => f.equal g = false

def Nested (mine theirs : List Value) : Prop := isSubset mine theirs ∨ isSubset theirs mine

theorem covers_of_isSubset (hkeyed : ∀ f ∈ larger, f.Keyed) (hdistinct : Distinct smaller)
    (h : isSubset smaller larger) : Covers larger smaller := by
  have hpartner : ∀ f ∈ smaller, ∃ g ∈ larger, g.Keyed ∧ g.equal f := by
    intro f hf
    obtain ⟨g, hg, hequal⟩ := contains_iff.1 (isSubset_iff.1 h f hf)
    exact ⟨g, hg, hkeyed g hg, hequal⟩
  -- Two flags that are equal to a third are equal to one another.
  have hshared : smaller.Pairwise fun f f' => ∀ g : Value,
      g.Keyed ∧ g.equal f → ¬ (g.Keyed ∧ g.equal f') := by
    refine hdistinct.imp ?_
    intro f f' hne g hf hf'
    have hequal := Value.equal_trans (Value.equal_symm hf.1 hf.2) hf'.2
    simp [hne] at hequal
  obtain ⟨hlength, hall⟩ := length_le_of_partners hshared hpartner
  refine ⟨h, hlength, ?_⟩
  intro hlong
  rw [isSubset_iff]
  intro g hg
  obtain ⟨f, hf, hgf⟩ := hall hlong g hg
  exact contains_iff.2 ⟨f, hf, Value.equal_symm hgf.1 hgf.2⟩

/-- Flags that come up once each can be joined exactly if one side holds the other. -/
theorem exists_join_iff_nested (hmine : ∀ f ∈ mine, f.Keyed) (htheirs : ∀ f ∈ theirs, f.Keyed)
    (hdistinct : Distinct mine) (hdistinct' : Distinct theirs) :
    (∃ flags, join mine theirs = .ok flags) ↔ Nested mine theirs := by
  rw [exists_join_iff]
  constructor
  · exact Or.imp Covers.isSubset Covers.isSubset
  · exact Or.imp (covers_of_isSubset htheirs hdistinct) (covers_of_isSubset hmine hdistinct')

end AstSchema.Features
