import AstSchema.Proofs.JoinedGates

/-! Joining gates in either order, and once more. Both orders are refused or neither is, and both
give the same flags; they can differ in spelling only where no side is longer. What a join gave
takes in either side again. -/
namespace AstSchema.Features

variable {flags flags' mine theirs : List Value}

/-- As many flags, and the same ones. -/
structure Alike (flags flags' : List Value) : Prop where
  length_eq : flags.length = flags'.length
  contains_iff : ∀ flag, contains flags flag ↔ contains flags' flag

theorem Alike.refl (flags : List Value) : Alike flags flags := ⟨rfl, fun _ => Iff.rfl⟩

theorem Alike.trans {flags'' : List Value} (h : Alike flags flags') (h' : Alike flags' flags'') :
    Alike flags flags'' :=
  ⟨h.length_eq.trans h'.length_eq, fun flag => (h.contains_iff flag).trans (h'.contains_iff flag)⟩

namespace IsUnion

theorem symm (h : IsUnion flags mine theirs) : IsUnion flags theirs mine where
  eq_or_eq := h.eq_or_eq.symm
  length_eq := by rw [h.length_eq, Nat.max_comm]
  contains_iff flag := by rw [h.contains_iff, or_comm]

theorem alike (h : IsUnion flags mine theirs) (h' : IsUnion flags' mine theirs) :
    Alike flags flags' where
  length_eq := h.length_eq.trans h'.length_eq.symm
  contains_iff flag := (h.contains_iff flag).trans (h'.contains_iff flag).symm

/-- If one side is longer, the union is spelled as that side is. -/
theorem eq_of_length_ne (h : IsUnion flags mine theirs) (h' : IsUnion flags' mine theirs)
    (hne : mine.length ≠ theirs.length) : flags = flags' := by
  have hlength := h.length_eq
  have hlength' := h'.length_eq
  obtain rfl | rfl := h.eq_or_eq
  · obtain rfl | rfl := h'.eq_or_eq
    · rfl
    · omega
  · obtain rfl | rfl := h'.eq_or_eq
    · omega
    · rfl

end IsUnion

/-! ## Either order -/

theorem join_refused_comm :
    (∃ e, join mine theirs = .error e) ↔ ∃ e, join theirs mine = .error e := by
  rw [exists_error_iff, exists_error_iff, exists_join_iff, exists_join_iff, or_comm]

/-! ## Once more -/

/-- The side that wins a tie is the one that would win it again. -/
theorem join_other_again (htheirs : ∀ f ∈ theirs, f.Keyed ∧ f.isNaN = false)
    (h : join mine theirs = .ok flags) : join flags theirs = .ok flags := by
  obtain ⟨-, rfl⟩ | ⟨-, -, rfl⟩ := join_eq_ok_iff.1 h
  · exact join_eq_ok_iff.2 (.inl ⟨Covers.refl htheirs, rfl⟩)
  · exact h

theorem exists_join_mine_again (hmine : ∀ f ∈ mine, f.Keyed ∧ f.isNaN = false)
    (h : join mine theirs = .ok flags) :
    ∃ again, join flags mine = .ok again ∧ Alike again flags := by
  have hcovers : Covers flags mine := by
    obtain ⟨hcovers, rfl⟩ | ⟨-, -, rfl⟩ := join_eq_ok_iff.1 h
    · exact hcovers
    · exact Covers.refl hmine
  obtain ⟨again, hagain, hlength, hcontains⟩ := exists_join_of_covers hcovers
  exact ⟨again, hagain, hlength, fun flag => by rw [hcontains]⟩

/-- Gates without a NaN are joined in both orders or in neither. The two results are alike, and the
same where one side is longer. A result takes in the other side as it is, and its own former flags
without getting or losing any. -/
theorem join_symmetric_absorbing (hmine : ∀ f ∈ mine, f.Keyed ∧ f.isNaN = false)
    (htheirs : ∀ f ∈ theirs, f.Keyed ∧ f.isNaN = false) :
    ((∃ e, join mine theirs = .error e) ↔ ∃ e, join theirs mine = .error e) ∧
    (∀ flags flags', join mine theirs = .ok flags → join theirs mine = .ok flags' →
      Alike flags flags' ∧ (mine.length ≠ theirs.length → flags = flags')) ∧
    (∀ flags, join mine theirs = .ok flags →
      join flags theirs = .ok flags ∧ ∃ again, join flags mine = .ok again ∧ Alike again flags) := by
  refine ⟨join_refused_comm, fun flags flags' h h' => ?_, fun flags h => ?_⟩
  · have hunion := isUnion_of_join h
    have hunion' := (isUnion_of_join h').symm
    exact ⟨hunion.alike hunion', hunion.eq_of_length_ne hunion'⟩
  · exact ⟨join_other_again htheirs h, exists_join_mine_again hmine h⟩

/-- Repeated flags, in two spellings of one length. -/
def tiedGates : List Value × List Value :=
  ([.text "full", .text "full", .bool true], [.int 1, .text "full", .int 1])

/-- Either order gives the spelling of the other side. -/
theorem join_symmetric_absorbing_of_tied :
    (∀ f ∈ tiedGates.1, f.Keyed ∧ f.isNaN = false) ∧
      (∀ f ∈ tiedGates.2, f.Keyed ∧ f.isNaN = false) ∧
      join tiedGates.1 tiedGates.2 = .ok tiedGates.2 ∧
      join tiedGates.2 tiedGates.1 = .ok tiedGates.1 ∧ Alike tiedGates.2 tiedGates.1 ∧
      join tiedGates.2 tiedGates.2 = .ok tiedGates.2 := by
  have hscalar : ∀ s : Scalar, s.isNaN = false →
      (Value.scalar s).Keyed ∧ (Value.scalar s).isNaN = false := fun s h => ⟨.scalar s, h⟩
  have hfirst : ∀ f ∈ tiedGates.1, f.Keyed ∧ f.isNaN = false := by
    simpa [tiedGates] using ⟨hscalar (.text "full") rfl, hscalar (.bool true) rfl⟩
  have hsecond : ∀ f ∈ tiedGates.2, f.Keyed ∧ f.isNaN = false := by
    simpa [tiedGates] using
      ⟨hscalar (.int 1) rfl, hscalar (.text "full") rfl, hscalar (.int 1) rfl⟩
  have hjoin : join tiedGates.1 tiedGates.2 = .ok tiedGates.2 := rfl
  have hjoin' : join tiedGates.2 tiedGates.1 = .ok tiedGates.1 := rfl
  obtain ⟨-, halike, hagain⟩ := join_symmetric_absorbing hfirst hsecond
  exact ⟨hfirst, hsecond, hjoin, hjoin', (halike _ _ hjoin hjoin').1, (hagain _ hjoin).1⟩

end AstSchema.Features
