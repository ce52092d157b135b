import AstSchema.Proofs.Equality
import AstSchema.Value.Tally
import Mathlib.Data.List.Induction
import Mathlib.Data.List.Nodup

/-! How often each text of a row occurs, in the order of first occurrence. -/
namespace AstSchema

theorem eraseDups_concat_of_mem {ss : List String} {s : String} (h : s ∈ ss) :
    (ss ++ [s]).eraseDups = ss.eraseDups := by
  rw [List.eraseDups_append, List.removeAll, List.filter_cons_of_neg (by simpa using h)]
  simp

theorem eraseDups_concat_of_not_mem {ss : List String} {s : String} (h : s ∉ ss) :
    (ss ++ [s]).eraseDups = ss.eraseDups ++ [s] := by
  rw [List.eraseDups_append, List.removeAll, List.filter_cons_of_pos (by simpa using h)]
  simp [List.eraseDups_cons]

theorem nodup_eraseDups (ss : List String) : ss.eraseDups.Nodup := by
  induction ss using List.reverseRecOn with
  | nil => exact List.nodup_nil
  | append_singleton ss s ih =>
    by_cases h : s ∈ ss
    · rwa [eraseDups_concat_of_mem h]
    · rw [eraseDups_concat_of_not_mem h, ← List.concat_eq_append]
      exact ih.concat fun hmem => h (List.mem_eraseDups.1 hmem)

namespace Value

variable {ks : List String} {counts : String → Nat} {s : String}

theorem bump_of_not_mem (h : s ∉ ks) :
    bump (text s) (ks.map fun k => (text k, counts k)) =
      ks.map (fun k => (text k, counts k)) ++ [(text s, 1)] := by
  induction ks with
  | nil => rfl
  | cons k ks ih =>
    rw [List.mem_cons, not_or] at h
    simp only [List.map_cons, bump, isFoundBy_text, beq_false_of_ne (Ne.symm h.1), ih h.2]
    rfl

theorem bump_of_mem (hnodup : ks.Nodup) (h : s ∈ ks) :
    bump (text s) (ks.map fun k => (text k, counts k)) =
      ks.map fun k => (text k, if k = s then counts k + 1 else counts k) := by
  induction ks with
  | nil => contradiction
  | cons k ks ih =>
    obtain ⟨hk, hks⟩ := List.nodup_cons.1 hnodup
    simp only [List.map_cons, bump, isFoundBy_text]
    by_cases heq : k = s
    · subst heq
      have hothers : ∀ j ∈ ks, j ≠ k := fun j hj hjk => hk (hjk ▸ hj)
      simp only [beq_self_eq_true, if_true]
      refine congrArg _ (List.map_congr_left fun j hj => ?_)
      rw [if_neg (hothers j hj)]
    · simp only [beq_false_of_ne heq, if_neg heq, Bool.false_eq_true, if_false,
        ih hks ((List.mem_cons.1 h).resolve_left (Ne.symm heq))]

/-- Each text that occurs, at its first occurrence, with the number of all. -/
def occurrences (ss : List String) : List (Value × Nat) :=
  ss.eraseDups.map fun s => (text s, ss.count s)

theorem bump_occurrences (ss : List String) (s : String) :
    bump (text s) (occurrences ss) = occurrences (ss ++ [s]) := by
  unfold occurrences
  by_cases h : s ∈ ss
  · rw [bump_of_mem (nodup_eraseDups ss) (List.mem_eraseDups.2 h), eraseDups_concat_of_mem h]
    refine List.map_congr_left fun k _ => ?_
    by_cases heq : k = s
    · simp [heq]
    · simp [heq, Ne.symm heq]
  · rw [bump_of_not_mem fun hmem => h (List.mem_eraseDups.1 hmem), eraseDups_concat_of_not_mem h,
      List.map_append]
    have hothers : ∀ k ∈ ss.eraseDups, s ≠ k := fun k hk heq => h (heq ▸ List.mem_eraseDups.1 hk)
    have hcounts : ss.eraseDups.map (fun k => (text k, ss.count k)) =
        ss.eraseDups.map fun k => (text k, (ss ++ [s]).count k) :=
      List.map_congr_left fun k hk => by simp [hothers k hk]
    rw [hcounts]
    simp [List.count_eq_zero.2 h]

theorem tally_texts (ss : List String) : tally (ss.map text) = occurrences ss := by
  induction ss using List.reverseRecOn with
  | nil => rfl
  | append_singleton ss s ih =>
    rw [tally] at ih ⊢
    rw [List.map_append, List.foldl_append, ih]
    exact bump_occurrences ss s

end Value

end AstSchema
