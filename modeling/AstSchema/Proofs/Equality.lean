import AstSchema.Proofs.Entries
import AstSchema.Value

/-! Sameness of values. Mappings are the same in whatever order their entries come, so a value is
the same as itself only if no mapping in it has a key twice. On such values sameness, and equality
where there is no NaN, are equivalences. -/
namespace AstSchema

/-- Where no two items of one row can have a partner in common, and each has one in the other row,
the other row is at least as long; if it is no longer, none of its items is left over. -/
theorem length_le_of_partners {α β : Type} {R : α → β → Prop} {as : List α} {bs : List β}
    (hshared : as.Pairwise fun a a' => ∀ b, R a b → ¬ R a' b)
    (hpartner : ∀ a ∈ as, ∃ b ∈ bs, R a b) :
    as.length ≤ bs.length ∧ (bs.length ≤ as.length → ∀ b ∈ bs, ∃ a ∈ as, R a b) := by
  induction as generalizing bs with
  | nil =>
    refine ⟨Nat.zero_le _, ?_⟩
    intro hlength
    simp [List.length_eq_zero_iff.1 (Nat.le_zero.1 hlength)]
  | cons a as ih =>
    obtain ⟨hfirst, hothers⟩ := List.pairwise_cons.1 hshared
    obtain ⟨b, hb, hab⟩ := hpartner a List.mem_cons_self
    obtain ⟨before, after, rfl⟩ := List.append_of_mem hb
    -- The partner of the first item is nobody else's, so the others find theirs around it.
    have hrest : ∀ a' ∈ as, ∃ b' ∈ before ++ after, R a' b' := by
      intro a' ha'
      obtain ⟨b', hb', hab'⟩ := hpartner a' (List.mem_cons_of_mem _ ha')
      have hne : b' ≠ b := by
        rintro rfl
        exact hfirst a' ha' b' hab hab'
      exact ⟨b', by simpa [hne] using hb', hab'⟩
    obtain ⟨hlength, hall⟩ := ih hothers hrest
    simp only [List.length_append, List.length_cons] at hlength hall ⊢
    refine ⟨by omega, ?_⟩
    intro hlong b' hb'
    by_cases heq : b' = b
    · exact ⟨a, List.mem_cons_self, heq ▸ hab⟩
    · have hmem : b' ∈ before ++ after := by simpa [heq] using hb'
      obtain ⟨a', ha', hab'⟩ := hall (by omega) b' hmem
      exact ⟨a', List.mem_cons_of_mem _ ha', hab'⟩

theorem Scalar.find?_congr {β : Type} {k k' : Scalar} (h : k.same k')
    (entries : List (Scalar × β)) :
    Entries.find? Scalar.same k entries = Entries.find? Scalar.same k' entries := by
  apply Entries.find?_congr
  intro a
  rw [Scalar.same, Scalar.same, Scalar.same_iff.1 h]

namespace Value

/-- Induction in which every part of a value counts. -/
@[elab_as_elim]
theorem induct {motive : Value → Prop} (scalar : ∀ s, motive (.scalar s))
    (list : ∀ items, (∀ v ∈ items, motive v) → motive (.list items))
    (tuple : ∀ items, (∀ v ∈ items, motive v) → motive (.tuple items))
    (mapping : ∀ entries, (∀ e ∈ entries, motive e.2) → motive (.mapping entries))
    (object : ∀ cls fields, (∀ v ∈ fields, motive v) → motive (.object cls fields)) :
    ∀ v, motive v
  | .scalar s => scalar s
  | .list items => list items fun v _ => induct scalar list tuple mapping object v
  | .tuple items => tuple items fun v _ => induct scalar list tuple mapping object v
  | .mapping entries => mapping entries fun (k, v) he =>
    have : sizeOf v < sizeOf entries := by
      have hsize := List.sizeOf_lt_of_mem he
      simp only [Prod.mk.sizeOf_spec] at hsize
      omega
    induct scalar list tuple mapping object v
  | .object cls fields => object cls fields fun v _ => induct scalar list tuple mapping object v

/-! ## Texts -/

@[simp] theorem same_text (s t : String) : (text s).same (text t) = (s == t) := by
  by_cases h : s = t
  · simp [same, Scalar.same, h]
  · have hmeaning : Meaning.text s ≠ .text t := fun heq => h (Meaning.text.inj heq)
    simp [same, Scalar.same, Scalar.meaning, h, beq_false_of_ne hmeaning]

@[simp] theorem equal_text (s t : String) : (text s).equal (text t) = (s == t) := by
  rw [equal, same_text]
  simp [isNaN, Scalar.isNaN, Scalar.meaning, beq_false_of_ne]

@[simp] theorem isFoundBy_text (s t : String) : (text s).isFoundBy (text t) = (s == t) := by
  rw [isFoundBy, same_text]
  by_cases h : s = t
  · simp [h]
  · simp [h]

/-! ## Reflexivity -/

/-- No mapping within the value has a key twice. -/
inductive Keyed : Value → Prop
  | scalar (s : Scalar) : Keyed (.scalar s)
  | list {items : List Value} (hitems : ∀ v ∈ items, Keyed v) : Keyed (.list items)
  | tuple {items : List Value} (hitems : ∀ v ∈ items, Keyed v) : Keyed (.tuple items)
  | mapping {entries : List (Scalar × Value)}
      (hkeys : entries.Pairwise fun a b => a.1.same b.1 = false)
      (hentries : ∀ e ∈ entries, Keyed e.2) : Keyed (.mapping entries)
  | object {cls : Class} {fields : List Value} (hfields : ∀ v ∈ fields, Keyed v) :
      Keyed (.object cls fields)

theorem sameItems_refl {vs : List Value} (h : ∀ v ∈ vs, v.same v) : sameItems vs vs := by
  induction vs with
  | nil => rfl
  | cons v vs ih =>
    obtain ⟨hv, hvs⟩ := List.forall_mem_cons.1 h
    simp only [sameItems, hv, ih hvs, Bool.and_self]

theorem sameEntries_iff {as bs : List (Scalar × Value)} :
    sameEntries as bs ↔
      ∀ e ∈ as, ∃ v, Entries.find? Scalar.same e.1 bs = some v ∧ e.2.same v := by
  induction as with
  | nil => simp [sameEntries]
  | cons e as ih =>
    obtain ⟨k, a⟩ := e
    rw [sameEntries, Bool.and_eq_true, ih, List.forall_mem_cons]
    cases Entries.find? Scalar.same k bs <;> simp

/-- Entries of a row are found in it, in whatever order they are asked for. -/
theorem sameEntries_of_subset {as bs : List (Scalar × Value)}
    (hkeys : bs.Pairwise fun a b => a.1.same b.1 = false) (hsub : ∀ e ∈ as, e ∈ bs)
    (hsame : ∀ e ∈ as, e.2.same e.2) : sameEntries as bs := by
  rw [sameEntries_iff]
  intro e he
  exact ⟨e.2, Entries.find?_of_mem Scalar.same_refl hkeys (hsub e he), hsame e he⟩

theorem same_refl {v : Value} (h : v.Keyed) : v.same v := by
  induction h with
  | scalar s => exact s.same_refl
  | list _ ih => exact sameItems_refl ih
  | tuple _ ih => exact sameItems_refl ih
  | mapping hkeys _ ih =>
    simp only [same, beq_self_eq_true, Bool.true_and]
    exact sameEntries_of_subset hkeys (fun _ he => he) ih
  | object _ ih =>
    simp only [same, beq_self_eq_true, Bool.true_and]
    exact sameItems_refl ih

theorem equal_refl {v : Value} (h : v.Keyed) (hnan : v.isNaN = false) : v.equal v := by
  rw [equal, same_refl h, hnan]
  rfl

/-! ## Transitivity -/

theorem sameItems_trans {as bs cs : List Value}
    (h : ∀ a ∈ as, ∀ {b c : Value}, a.same b → b.same c → a.same c)
    (hab : sameItems as bs) (hbc : sameItems bs cs) : sameItems as cs := by
  induction as generalizing bs cs with
  | nil =>
    cases bs with
    | nil => exact hbc
    | cons b bs => simp [sameItems] at hab
  | cons a as ih =>
    cases bs with
    | nil => simp [sameItems] at hab
    | cons b bs =>
      cases cs with
      | nil => simp [sameItems] at hbc
      | cons c cs =>
        obtain ⟨ha, has⟩ := List.forall_mem_cons.1 h
        simp only [sameItems, Bool.and_eq_true] at hab hbc ⊢
        exact ⟨ha hab.1 hbc.1, ih has hab.2 hbc.2⟩

theorem same_trans {a b c : Value} (hab : a.same b) (hbc : b.same c) : a.same c := by
  induction a using Value.induct generalizing b c with
  | scalar a =>
    cases b with
    | scalar b =>
      cases c with
      | scalar c => exact Scalar.same_trans hab hbc
      | _ => contradiction
    | _ => contradiction
  | list as ih =>
    cases b with
    | list bs =>
      cases c with
      | list cs => exact sameItems_trans ih hab hbc
      | _ => contradiction
    | _ => contradiction
  | tuple as ih =>
    cases b with
    | tuple bs =>
      cases c with
      | tuple cs => exact sameItems_trans ih hab hbc
      | _ => contradiction
    | _ => contradiction
  | mapping as ih =>
    cases b with
    | mapping bs =>
      cases c with
      | mapping cs =>
        simp only [same, Bool.and_eq_true, beq_iff_eq, sameEntries_iff] at hab hbc ⊢
        refine ⟨hab.1.trans hbc.1, ?_⟩
        intro e he
        -- The entry that answers for this one has a key of its own to be asked for.
        obtain ⟨v, hv, hev⟩ := hab.2 e he
        obtain ⟨k, hk, hsame⟩ := Entries.exists_of_find? hv
        obtain ⟨w, hw, hvw⟩ := hbc.2 (k, v) hk
        exact ⟨w, by rwa [← Scalar.find?_congr hsame], ih e he hev hvw⟩
      | _ => contradiction
    | _ => contradiction
  | object cls as ih =>
    cases b with
    | object d bs =>
      cases c with
      | object e cs =>
        simp only [same, Bool.and_eq_true, beq_iff_eq] at hab hbc ⊢
        exact ⟨hab.1.trans hbc.1, sameItems_trans ih hab.2 hbc.2⟩
      | _ => contradiction
    | _ => contradiction

/-! ## Symmetry -/

theorem sameItems_symm {as bs : List Value}
    (h : ∀ a ∈ as, ∀ {b : Value}, a.same b → b.same a) (hab : sameItems as bs) :
    sameItems bs as := by
  induction as generalizing bs with
  | nil =>
    cases bs with
    | nil => rfl
    | cons b bs => simp [sameItems] at hab
  | cons a as ih =>
    cases bs with
    | nil => simp [sameItems] at hab
    | cons b bs =>
      obtain ⟨ha, has⟩ := List.forall_mem_cons.1 h
      simp only [sameItems, Bool.and_eq_true] at hab ⊢
      exact ⟨ha hab.1, ih has hab.2⟩

/-- As many entries on either side, none of them under the same key, leave none unanswered. -/
theorem sameEntries_symm {as bs : List (Scalar × Value)}
    (hkeys : as.Pairwise fun a b => a.1.same b.1 = false) (hlength : as.length = bs.length)
    (h : ∀ e ∈ as, ∀ {v : Value}, e.2.same v → v.same e.2) (hab : sameEntries as bs) :
    sameEntries bs as := by
  rw [sameEntries_iff] at hab ⊢
  have hpartner : ∀ e ∈ as, ∃ e' ∈ bs, e'.1.same e.1 ∧ e.2.same e'.2 := by
    intro e he
    obtain ⟨v, hv, hsame⟩ := hab e he
    obtain ⟨k, hk, hkey⟩ := Entries.exists_of_find? hv
    exact ⟨(k, v), hk, hkey, hsame⟩
  have hshared : as.Pairwise fun a a' => ∀ e' : Scalar × Value,
      (e'.1.same a.1 ∧ a.2.same e'.2) → ¬ (e'.1.same a'.1 ∧ a'.2.same e'.2) := by
    refine hkeys.imp ?_
    intro a a' hne e' ha ha'
    have hsame : a.1.same a'.1 := Scalar.same_trans (by rw [Scalar.same_comm, ha.1]) ha'.1
    simp [hne] at hsame
  intro e' he'
  obtain ⟨-, hall⟩ := length_le_of_partners hshared hpartner
  obtain ⟨e, he, hkey, hsame⟩ := hall (by omega) e' he'
  refine ⟨e.2, ?_, h e he hsame⟩
  rw [Scalar.find?_congr hkey]
  exact Entries.find?_of_mem Scalar.same_refl hkeys he

theorem same_symm {a b : Value} (ha : a.Keyed) (hab : a.same b) : b.same a := by
  induction ha generalizing b with
  | scalar s =>
    cases b with
    | scalar t =>
      rw [same] at hab ⊢
      rwa [Scalar.same_comm]
    | _ => contradiction
  | list _ ih =>
    cases b with
    | list bs => exact sameItems_symm ih hab
    | _ => contradiction
  | tuple _ ih =>
    cases b with
    | tuple bs => exact sameItems_symm ih hab
    | _ => contradiction
  | mapping hkeys _ ih =>
    cases b with
    | mapping bs =>
      simp only [same, Bool.and_eq_true, beq_iff_eq] at hab ⊢
      exact ⟨hab.1.symm, sameEntries_symm hkeys hab.1 ih hab.2⟩
    | _ => contradiction
  | object _ ih =>
    cases b with
    | object d bs =>
      simp only [same, Bool.and_eq_true, beq_iff_eq] at hab ⊢
      exact ⟨hab.1.symm, sameItems_symm ih hab.2⟩
    | _ => contradiction

/-! ## Equality -/

theorem isNaN_eq_of_same {a b : Value} (hab : a.same b) : a.isNaN = b.isNaN := by
  cases a with
  | scalar s =>
    cases b with
    | scalar t =>
      have hmeaning : s.meaning = t.meaning := Scalar.same_iff.1 hab
      simp [isNaN, Scalar.isNaN, hmeaning]
    | _ => contradiction
  | _ =>
    cases b with
    | scalar t => contradiction
    | _ => rfl

theorem equal_symm {a b : Value} (ha : a.Keyed) (hab : a.equal b) : b.equal a := by
  simp only [equal, Bool.and_eq_true] at hab ⊢
  rw [← isNaN_eq_of_same hab.1]
  exact ⟨same_symm ha hab.1, hab.2⟩

theorem equal_trans {a b c : Value} (hab : a.equal b) (hbc : b.equal c) : a.equal c := by
  simp only [equal, Bool.and_eq_true] at hab hbc ⊢
  exact ⟨same_trans hab.1 hbc.1, hab.2⟩

end Value

end AstSchema
