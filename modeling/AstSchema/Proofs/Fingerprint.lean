import AstSchema.Proofs.Equality
import AstSchema.Value.Tally
import Mathlib.Data.List.Induction

/-! Look-ups by fingerprint. Values that are the same have one fingerprint, though it leaves out the
gates of nodes, so that a look-up finds what a comparison with each stored value would find. -/
namespace AstSchema.Value

/-! ## Fingerprints of values that are the same -/

theorem fingerprints?_eq_of_sameItems {as bs : List Value}
    (h : ∀ a ∈ as, ∀ {b : Value}, a.same b → a.fingerprint? = b.fingerprint?)
    (hab : sameItems as bs) : fingerprints? as = fingerprints? bs := by
  induction as generalizing bs with
  | nil =>
    cases bs with
    | nil => rfl
    | cons b bs => simp [sameItems] at hab
  | cons a as ih =>
    cases bs with
    | nil => simp [sameItems] at hab
    | cons b bs =>
      obtain ⟨ha, has⟩ := List.forall_mem_cons.1 h
      simp only [sameItems, Bool.and_eq_true] at hab
      rw [fingerprints?, fingerprints?, ha hab.1, ih has hab.2]

/-- Fields that do not count for the fingerprint are passed over on both sides. -/
theorem fieldFingerprints?_eq_of_sameItems {specs : List FieldSpec} {as bs : List Value}
    (h : ∀ a ∈ as, ∀ {b : Value}, a.same b → a.fingerprint? = b.fingerprint?)
    (hab : sameItems as bs) : fieldFingerprints? specs as = fieldFingerprints? specs bs := by
  induction as generalizing specs bs with
  | nil =>
    cases bs with
    | nil => rfl
    | cons b bs => simp [sameItems] at hab
  | cons a as ih =>
    cases bs with
    | nil => simp [sameItems] at hab
    | cons b bs =>
      cases specs with
      | nil => rfl
      | cons spec specs =>
        obtain ⟨ha, has⟩ := List.forall_mem_cons.1 h
        simp only [sameItems, Bool.and_eq_true] at hab
        rw [fieldFingerprints?, fieldFingerprints?, ha hab.1, ih has hab.2]

theorem fingerprint?_eq_of_same {a b : Value} (hab : a.same b) :
    a.fingerprint? = b.fingerprint? := by
  induction a using Value.induct generalizing b with
  | scalar a =>
    cases b with
    | scalar b => rw [fingerprint?, fingerprint?, Scalar.same_iff.1 hab]
    | _ => contradiction
  | list as _ =>
    cases b with
    | list bs => rfl
    | _ => contradiction
  | tuple as ih =>
    cases b with
    | tuple bs => rw [fingerprint?, fingerprint?, fingerprints?_eq_of_sameItems ih hab]
    | _ => contradiction
  | mapping as _ =>
    cases b with
    | mapping bs => rfl
    | _ => contradiction
  | object cls as ih =>
    cases b with
    | object d bs =>
      simp only [same, Bool.and_eq_true, beq_iff_eq] at hab
      obtain ⟨rfl, hab⟩ := hab
      rw [fingerprint?, fingerprint?, fieldFingerprints?_eq_of_sameItems ih hab]
    | _ => contradiction

/-! ## What a look-up finds -/

theorem isFoundBy_eq_same (stored sought : Value) : stored.isFoundBy sought = stored.same sought := by
  rw [isFoundBy]
  cases h : stored.same sought with
  | false => rw [Bool.and_false]
  | true => rw [fingerprint?_eq_of_same h, beq_self_eq_true, Bool.and_true]

/-- A look-up goes by sameness and a comparison by equality, and only a NaN tells them apart. -/
theorem isFoundBy_eq_equal {stored : Value} (hnan : stored.isNaN = false) (sought : Value) :
    stored.isFoundBy sought = stored.equal sought := by
  rw [isFoundBy_eq_same, equal, hnan, Bool.not_false, Bool.and_true]

theorem bump_of_forall {v : Value} {counts : List (Value × Nat)}
    (h : ∀ entry ∈ counts, entry.1.isFoundBy v = false) : bump v counts = counts ++ [(v, 1)] := by
  induction counts with
  | nil => rfl
  | cons entry rest ih =>
    obtain ⟨w, n⟩ := entry
    obtain ⟨hw, hrest⟩ := List.forall_mem_cons.1 h
    rw [bump, if_neg (by simp [hw]), ih hrest, List.cons_append]

/-- Values of which no two are equal are counted once each. -/
theorem tally_of_pairwise {vs : List Value} (hnan : ∀ v ∈ vs, v.isNaN = false)
    (h : vs.Pairwise fun a b => a.equal b = false) : tally vs = vs.map fun v => (v, 1) := by
  induction vs using List.reverseRecOn with
  | nil => rfl
  | append_singleton vs v ih =>
    obtain ⟨hvs, -, hcross⟩ := List.pairwise_append.1 h
    obtain ⟨hnan, -⟩ := List.forall_mem_append.1 hnan
    have hnew : ∀ entry ∈ vs.map (fun w => (w, 1)), entry.1.isFoundBy v = false := by
      refine List.forall_mem_map.2 fun w hw => ?_
      rw [isFoundBy_eq_equal (hnan w hw)]
      exact hcross w hw v (List.mem_singleton_self v)
    rw [tally, List.foldl_append, ← tally, ih hnan hvs, List.map_append]
    exact bump_of_forall hnew

end AstSchema.Value
