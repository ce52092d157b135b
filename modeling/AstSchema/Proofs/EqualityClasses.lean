import AstSchema.Proofs.Fingerprint
import AstSchema.Proofs.NodeObject
import Mathlib.Data.Set.Card

/-! Classes of equal values. On values without NaN equality is an equivalence that goes by the parts
of values, and the distinct values of a row are as many as the classes of equal ones in it. -/
namespace AstSchema.Value

/-- No NaN is in the value, and no mapping within it has a key twice. -/
inductive Comparable : Value → Prop
  | scalar {s : Scalar} (hs : s.isNaN = false) : Comparable (.scalar s)
  | list {items : List Value} (hitems : ∀ v ∈ items, Comparable v) : Comparable (.list items)
  | tuple {items : List Value} (hitems : ∀ v ∈ items, Comparable v) : Comparable (.tuple items)
  | mapping {entries : List (Scalar × Value)}
      (hkeys : entries.Pairwise fun a b => a.1.same b.1 = false)
      (hnan : ∀ e ∈ entries, e.1.isNaN = false) (hentries : ∀ e ∈ entries, Comparable e.2) :
      Comparable (.mapping entries)
  | object {cls : Class} {fields : List Value} (hfields : ∀ v ∈ fields, Comparable v) :
      Comparable (.object cls fields)

theorem Comparable.keyed {v : Value} (h : v.Comparable) : v.Keyed := by
  induction h with
  | scalar => exact .scalar _
  | list _ ih => exact .list ih
  | tuple _ ih => exact .tuple ih
  | mapping hkeys _ _ ih => exact .mapping hkeys ih
  | object _ ih => exact .object ih

theorem Comparable.isNaN_eq {v : Value} (h : v.Comparable) : v.isNaN = false := by
  cases h with
  | scalar hs => exact hs
  | _ => rfl

theorem Comparable.equal_refl {v : Value} (h : v.Comparable) : v.equal v :=
  Value.equal_refl h.keyed h.isNaN_eq

theorem equal_eq_same {a : Value} (ha : a.isNaN = false) (b : Value) : a.equal b = a.same b := by
  rw [equal, ha, Bool.not_false, Bool.and_true]

theorem equivalence_equal :
    Equivalence fun a b : { v : Value // v.Comparable } => a.1.equal b.1 = true where
  refl a := a.2.equal_refl
  symm {a _} := equal_symm a.2.keyed
  trans := equal_trans

/-! ## Equality by parts -/

theorem ofInt_injective {m n : Int} (h : LinePoint.ofInt m = .ofInt n) : m = n := by
  have hrat : (m : Dyadic).toRat = (n : Dyadic).toRat := congrArg _ (LinePoint.finite.inj h)
  rw [Dyadic.toRat_intCast, Dyadic.toRat_intCast] at hrat
  exact Rat.intCast_inj.1 hrat

theorem exists_of_position? {v : Value} {n : Int} (h : v.position? = some n) :
    ∃ s, v = .scalar s ∧ s.meaning = .number (.ofInt n) := by
  unfold position? at h
  split at h
  · exact ⟨_, rfl, by rw [← Option.some.inj h]; rfl⟩
  · exact ⟨_, rfl, by rw [← Option.some.inj h]; rfl⟩
  · contradiction

/-- Truth values count as zero and one. -/
theorem equal_numbers_iff {a b : Value} {m n : Int} (ha : a.position? = some m)
    (hb : b.position? = some n) : a.equal b ↔ m = n := by
  obtain ⟨s, rfl, hs⟩ := exists_of_position? ha
  obtain ⟨t, rfl, ht⟩ := exists_of_position? hb
  rw [equal_eq_same (by simp [isNaN, Scalar.isNaN, hs]), same, Scalar.same_iff, hs, ht]
  exact ⟨fun h => ofInt_injective (Meaning.number.inj h), fun h => h ▸ rfl⟩

theorem sameItems_iff {as bs : List Value} (has : ∀ a ∈ as, a.Comparable) :
    sameItems as bs ↔ List.Forall₂ (fun a b => a.equal b) as bs := by
  induction as generalizing bs with
  | nil => cases bs <;> simp [sameItems]
  | cons a as ih =>
    obtain ⟨ha, has⟩ := List.forall_mem_cons.1 has
    cases bs with
    | nil => simp [sameItems]
    | cons b bs =>
      rw [sameItems, Bool.and_eq_true, ih has, List.forall₂_cons, equal_eq_same ha.isNaN_eq]

theorem equal_list_iff {as : List Value} (has : (list as).Comparable) (v : Value) :
    (list as).equal v ↔ ∃ bs, v = .list bs ∧ List.Forall₂ (fun a b => a.equal b) as bs := by
  cases has with
  | list hitems =>
    rw [equal_eq_same rfl]
    cases v <;> simp [same, sameItems_iff hitems]

theorem equal_tuple_iff {as : List Value} (has : (tuple as).Comparable) (v : Value) :
    (tuple as).equal v ↔ ∃ bs, v = .tuple bs ∧ List.Forall₂ (fun a b => a.equal b) as bs := by
  cases has with
  | tuple hitems =>
    rw [equal_eq_same rfl]
    cases v <;> simp [same, sameItems_iff hitems]

/-- Gates count as any other field. -/
theorem equal_object_iff {cls : Class} {as : List Value} (has : (object cls as).Comparable)
    (v : Value) : (object cls as).equal v ↔
      ∃ bs, v = .object cls bs ∧ List.Forall₂ (fun a b => a.equal b) as bs := by
  cases has with
  | object hfields =>
    rw [equal_eq_same rfl]
    cases v with
    | object d bs => simp [same, sameItems_iff hfields, eq_comm (a := cls)]
    | _ => simp [same]

/-- Every entry has its partner under the same key. -/
def EntriesAlike (as bs : List (Scalar × Value)) : Prop :=
  List.Forall₂ (fun a b => (scalar a.1).equal (scalar b.1) ∧ a.2.equal b.2) as bs

theorem exists_entriesAlike {as bs : List (Scalar × Value)} (has : (mapping as).Comparable)
    (hlength : as.length = bs.length) (h : sameEntries as bs) :
    ∃ cs, cs.Perm bs ∧ EntriesAlike as cs := by
  cases has with
  | mapping hkeys hnan hentries =>
    have hpartner : ∀ e ∈ as, ∃ f ∈ bs, f.1.same e.1 ∧ e.2.same f.2 := by
      intro e he
      obtain ⟨v, hv, hsame⟩ := sameEntries_iff.1 h e he
      obtain ⟨k, hk, hkey⟩ := Entries.exists_of_find? hv
      exact ⟨(k, v), hk, hkey, hsame⟩
    choose! partner hmem hkey hsame using hpartner
    refine ⟨as.map partner, ?_, ?_⟩
    · -- Partners of entries under different keys are different, so none is left over.
      have hnodup : (as.map partner).Nodup := by
        rw [List.Nodup, List.pairwise_map]
        refine hkeys.imp_of_mem fun ha hb hne heq => ?_
        have hboth := Scalar.same_trans (b := (partner _).1) (by rw [Scalar.same_comm, hkey _ ha])
          (heq ▸ hkey _ hb)
        rw [hne] at hboth
        contradiction
      have hsub : as.map partner ⊆ bs := by
        intro f hf
        obtain ⟨e, he, rfl⟩ := List.mem_map.1 hf
        exact hmem e he
      exact (List.subperm_of_subset hnodup hsub).perm_of_length_le (by simp [hlength])
    · rw [EntriesAlike, List.forall₂_map_right_iff, List.forall₂_same]
      refine fun e he => ⟨?_, ?_⟩
      · have hscalar : (scalar e.1).isNaN = false := hnan e he
        rw [equal_eq_same hscalar, same, Scalar.same_comm]
        exact hkey e he
      · rw [equal_eq_same (hentries e he).isNaN_eq]
        exact hsame e he

theorem exists_mem_of_forall₂ {α β : Type} {R : α → β → Prop} {as : List α} {bs : List β}
    (h : List.Forall₂ R as bs) : ∀ a ∈ as, ∃ b ∈ bs, R a b := by
  induction h with
  | nil => simp
  | cons hab _ ih =>
    refine List.forall_mem_cons.2 ⟨⟨_, List.mem_cons_self, hab⟩, fun a ha => ?_⟩
    obtain ⟨b, hb, hab⟩ := ih a ha
    exact ⟨b, List.mem_cons_of_mem _ hb, hab⟩

theorem sameEntries_of_entriesAlike {as bs cs : List (Scalar × Value)}
    (hbs : bs.Pairwise fun a b => a.1.same b.1 = false) (hperm : cs.Perm bs)
    (h : EntriesAlike as cs) : sameEntries as bs := by
  rw [sameEntries_iff]
  intro e he
  obtain ⟨f, hf, hkey, hvalue⟩ := exists_mem_of_forall₂ h e he
  rw [equal, Bool.and_eq_true] at hkey hvalue
  refine ⟨f.2, ?_, hvalue.1⟩
  rw [Scalar.find?_congr hkey.1]
  exact Entries.find?_of_mem Scalar.same_refl hbs (hperm.mem_iff.1 hf)

theorem equal_mapping_iff {as : List (Scalar × Value)} (has : (mapping as).Comparable) {v : Value}
    (hv : v.Comparable) : (mapping as).equal v ↔
      ∃ bs cs, v = .mapping bs ∧ cs.Perm bs ∧ EntriesAlike as cs := by
  rw [equal_eq_same rfl]
  cases hv with
  | @mapping bs hkeys =>
    simp only [same, Bool.and_eq_true, beq_iff_eq, Value.mapping.injEq]
    constructor
    · rintro ⟨hlength, hentries⟩
      obtain ⟨cs, hperm, halike⟩ := exists_entriesAlike has hlength hentries
      exact ⟨bs, cs, rfl, hperm, halike⟩
    · rintro ⟨_, cs, rfl, hperm, halike⟩
      exact ⟨halike.length_eq.trans hperm.length_eq,
        sameEntries_of_entriesAlike hkeys hperm halike⟩
  | _ => simp [same]

theorem exists_lookup_of_forall₂ {α β γ : Type} [BEq α] {R : β → γ → Prop} {as : List β}
    {bs : List γ} (h : List.Forall₂ R as bs) {names : List α} {name : α} {x : β}
    (hx : (names.zip as).lookup name = some x) :
    ∃ y, (names.zip bs).lookup name = some y ∧ R x y := by
  induction h generalizing names with
  | nil => simp at hx
  | cons hab _ ih =>
    cases names with
    | nil => contradiction
    | cons n names =>
      rw [List.zip_cons_cons, List.lookup_cons] at hx ⊢
      cases hname : name == n with
      | true =>
        rw [hname] at hx
        exact ⟨_, rfl, Option.some.inj hx ▸ hab⟩
      | false =>
        rw [hname] at hx
        exact ih hx

/-- What equal values have under one name is equal. -/
theorem exists_field?_of_equal {a b : Value} (ha : a.Comparable) (hab : a.equal b) {name : String}
    {x : Value} (hx : a.field? name = some x) : ∃ y, b.field? name = some y ∧ x.equal y := by
  cases a with
  | object cls as =>
    obtain ⟨bs, rfl, hfields⟩ := (equal_object_iff ha b).1 hab
    exact exists_lookup_of_forall₂ hfields hx
  | _ => contradiction

/-! ## Gates and fingerprints -/

theorem fieldFingerprints?_replace {name : String} {specs : List FieldSpec}
    (h : ∀ spec ∈ specs, spec.name = name → spec.hashed = false) (value : Value)
    (vs : List Value) :
    fieldFingerprints? specs (((specs.map (·.name)).zip vs).map fun (n, old) =>
        if n == name then value else old) = fieldFingerprints? specs vs := by
  induction specs generalizing vs with
  | nil => cases vs <;> rfl
  | cons spec specs ih =>
    obtain ⟨hspec, hspecs⟩ := List.forall_mem_cons.1 h
    cases vs with
    | nil => rfl
    | cons v vs =>
      simp only [List.map_cons, List.zip_cons_cons, fieldFingerprints?, ih hspecs]
      cases hhashed : spec.hashed with
      | false => rfl
      | true =>
        have hname : (spec.name == name) = false := by
          refine beq_false_of_ne fun heq => ?_
          rw [hspec heq] at hhashed
          contradiction
        rw [hname]
        rfl

/-- A field that is not hashed makes no difference to the fingerprint. -/
theorem fingerprint?_withField {cls : Class} {name : String}
    (h : ∀ spec ∈ cls.fields, spec.name = name → spec.hashed = false) (fields : List Value)
    (value : Value) :
    ((object cls fields).withField name value).fingerprint? = (object cls fields).fingerprint? := by
  rw [withField, fingerprint?, fingerprint?, Class.fieldNames, fieldFingerprints?_replace h]

/-! ## Counting classes -/

/-- The class of a value: the values that equal it. -/
def equalTo (v : Value) : Set Value := { w | v.equal w }

theorem equalTo_eq_iff {v w : Value} (hv : v.Comparable) (hw : w.Comparable) :
    v.equalTo = w.equalTo ↔ v.equal w := by
  constructor
  · intro h
    have hmem : w ∈ v.equalTo := h ▸ hw.equal_refl
    exact hmem
  · intro h
    ext u
    exact ⟨fun hvu => equal_trans (equal_symm hv.keyed h) hvu, fun hwu => equal_trans h hwu⟩

/-- One value for each that is among some. -/
structure Represents (reps vs : List Value) : Prop where
  distinct : reps.Pairwise fun a b => a.same b = false
  subset : ∀ r ∈ reps, r ∈ vs
  covers : ∀ v ∈ vs, ∃ r ∈ reps, r.same v

theorem bump_of_found {v : Value} {counts : List (Value × Nat)}
    (h : ∃ entry ∈ counts, entry.1.isFoundBy v) :
    (bump v counts).map (·.1) = counts.map (·.1) := by
  induction counts with
  | nil => simp at h
  | cons entry rest ih =>
    obtain ⟨w, n⟩ := entry
    rw [bump]
    by_cases hw : w.isFoundBy v
    · rw [if_pos hw]
      rfl
    · rw [if_neg hw, List.map_cons, List.map_cons, ih (by simpa [hw] using h)]

theorem Represents.append_known {reps vs : List Value} (h : Represents reps vs) {v : Value}
    (hv : ∃ r ∈ reps, r.same v) : Represents reps (vs ++ [v]) where
  distinct := h.distinct
  subset r hr := List.mem_append_left _ (h.subset r hr)
  covers := List.forall_mem_append.2 ⟨h.covers, List.forall_mem_singleton.2 hv⟩

theorem Represents.append_new {reps vs : List Value} (h : Represents reps vs) {v : Value}
    (hv : v.same v) (hnew : ∀ r ∈ reps, r.same v = false) :
    Represents (reps ++ [v]) (vs ++ [v]) where
  distinct := List.pairwise_append.2 ⟨h.distinct, List.pairwise_singleton _ _,
    fun r hr => List.forall_mem_singleton.2 (hnew r hr)⟩
  subset := List.forall_mem_append.2
    ⟨fun r hr => List.mem_append_left _ (h.subset r hr), by simp⟩
  covers := by
    refine List.forall_mem_append.2 ⟨fun w hw => ?_, List.forall_mem_singleton.2 ⟨v, by simp, hv⟩⟩
    obtain ⟨r, hr, hsame⟩ := h.covers w hw
    exact ⟨r, List.mem_append_left _ hr, hsame⟩

/-- Fingerprints hide no value from a look-up, so a value is counted under one that is the same if
any such was counted before. -/
theorem represents_tally {vs : List Value} (hvs : ∀ v ∈ vs, v.Keyed) :
    Represents ((tally vs).map (·.1)) vs := by
  induction vs using List.reverseRecOn with
  | nil => exact ⟨.nil, by simp [tally], by simp⟩
  | append_singleton vs v ih =>
    obtain ⟨hvs, hv⟩ := List.forall_mem_append.1 hvs
    have htally : tally (vs ++ [v]) = bump v (tally vs) := List.foldl_append
    rw [htally]
    by_cases hfound : ∃ entry ∈ tally vs, entry.1.isFoundBy v
    · rw [bump_of_found hfound]
      obtain ⟨entry, hentry, hsame⟩ := hfound
      rw [isFoundBy_eq_same] at hsame
      exact (ih hvs).append_known ⟨entry.1, List.mem_map_of_mem hentry, hsame⟩
    · have hnew : ∀ entry ∈ tally vs, entry.1.isFoundBy v = false := by simpa using hfound
      rw [bump_of_forall hnew, List.map_append, List.map_singleton]
      refine (ih hvs).append_new (same_refl (List.forall_mem_singleton.1 hv)) ?_
      refine List.forall_mem_map.2 fun entry hentry => ?_
      rw [← isFoundBy_eq_same]
      exact hnew entry hentry

/-- There are as many representatives as classes. -/
theorem Represents.length_eq {reps vs : List Value} (h : Represents reps vs)
    (hvs : ∀ v ∈ vs, v.Comparable) : reps.length = (equalTo '' { v | v ∈ vs }).ncard := by
  classical
  have hreps : ∀ r ∈ reps, r.Comparable := fun r hr => hvs r (h.subset r hr)
  have hnodup : (reps.map equalTo).Nodup := by
    rw [List.Nodup, List.pairwise_map]
    refine h.distinct.imp_of_mem fun {r s} hr hs hne heq => ?_
    have hequal := (equalTo_eq_iff (hreps r hr) (hreps s hs)).1 heq
    rw [equal_eq_same (hreps r hr).isNaN_eq, hne] at hequal
    contradiction
  have himage : equalTo '' { v | v ∈ vs } = (reps.map equalTo).toFinset := by
    ext c
    rw [Finset.mem_coe, List.mem_toFinset, List.mem_map]
    constructor
    · rintro ⟨v, hv, rfl⟩
      obtain ⟨r, hr, hsame⟩ := h.covers v hv
      refine ⟨r, hr, (equalTo_eq_iff (hreps r hr) (hvs v hv)).2 ?_⟩
      rwa [equal_eq_same (hreps r hr).isNaN_eq]
    · rintro ⟨r, hr, rfl⟩
      exact ⟨r, h.subset r hr, rfl⟩
  rw [himage, Set.ncard_coe_finset, List.toFinset_card_of_nodup hnodup, List.length_map]

theorem countDistinct_list {vs : List Value} (hhashable : ∀ v ∈ vs, v.isHashable) :
    countDistinct (.list vs) = .ok (tally vs).length := by
  have hmapM : vs.mapM hashable = .ok vs := by
    rw [← List.map_id vs]
    refine mapM_map_eq_ok fun v hv => ?_
    rw [hashable, id_eq, if_pos (hhashable v hv)]
  change (vs.mapM hashable >>= fun ws => pure (tally ws).length) = _
  rw [hmapM]
  rfl

theorem countDistinct_eq_ncard {vs : List Value} (hvs : ∀ v ∈ vs, v.Comparable)
    (hhashable : ∀ v ∈ vs, v.isHashable) :
    countDistinct (.list vs) = .ok (equalTo '' { v | v ∈ vs }).ncard := by
  have hreps := represents_tally fun v hv => (hvs v hv).keyed
  rw [countDistinct_list hhashable, ← hreps.length_eq hvs, List.length_map]

/-- Equality goes by the parts of values, gates included, and is an equivalence; a row has as many
distinct values as it has classes, in whatever order they come, though gates are left out of the
fingerprint that a look-up goes by. -/
theorem equal_classes :
    (Equivalence fun a b : { v : Value // v.Comparable } => a.1.equal b.1 = true) ∧
    (∀ a b m n, position? a = some m → position? b = some n → (a.equal b ↔ m = n)) ∧
    (∀ as, (list as).Comparable → ∀ v, (list as).equal v ↔
      ∃ bs, v = .list bs ∧ List.Forall₂ (fun a b => a.equal b) as bs) ∧
    (∀ as, (tuple as).Comparable → ∀ v, (tuple as).equal v ↔
      ∃ bs, v = .tuple bs ∧ List.Forall₂ (fun a b => a.equal b) as bs) ∧
    (∀ as v, (mapping as).Comparable → v.Comparable → ((mapping as).equal v ↔
      ∃ bs cs, v = .mapping bs ∧ cs.Perm bs ∧ EntriesAlike as cs)) ∧
    (∀ cls as, (object cls as).Comparable → ∀ v, (object cls as).equal v ↔
      ∃ bs, v = .object cls bs ∧ List.Forall₂ (fun a b => a.equal b) as bs) ∧
    (∀ a b gates, Comparable a → a.equal b → a.field? "features" = some gates →
      ∃ others, b.field? "features" = some others ∧ gates.equal others) ∧
    (∀ cls : Class, (∀ spec ∈ cls.fields, spec.name = "features" → spec.hashed = false) →
      ∀ fields gates, ((object cls fields).withField "features" gates).fingerprint? =
        (object cls fields).fingerprint?) ∧
    ∀ vs : List Value, (∀ v ∈ vs, v.Comparable) → (∀ v ∈ vs, v.isHashable) →
      ∀ ws, ws.Perm vs → countDistinct (.list ws) = .ok (equalTo '' { v | v ∈ vs }).ncard := by
  refine ⟨equivalence_equal, fun _ _ _ _ => equal_numbers_iff, fun _ => equal_list_iff,
    fun _ => equal_tuple_iff, fun _ _ has hv => equal_mapping_iff has hv, fun _ _ => equal_object_iff,
    fun _ _ _ ha hab => exists_field?_of_equal ha hab, fun _ => fingerprint?_withField, ?_⟩
  intro vs hvs hhashable ws hperm
  have hmem : { v | v ∈ ws } = { v | v ∈ vs } := Set.ext fun v => hperm.mem_iff
  rw [← hmem]
  exact countDistinct_eq_ncard (fun v hv => hvs v (hperm.mem_iff.1 hv))
    fun v hv => hhashable v (hperm.mem_iff.1 hv)

theorem comparable_bare (ident : String) {flags : List Value}
    (hflags : ∀ v ∈ flags, v.Comparable) : (NodeObject.bare ident flags).toValue.Comparable := by
  have hgates : (Features.toValue flags).Comparable :=
    .object (List.forall_mem_singleton.2 (.list hflags))
  refine .object ?_
  simp only [NodeObject.bare, List.forall_mem_cons]
  exact ⟨.scalar rfl, hgates, .tuple (by simp), .scalar rfl, by simp⟩

/-- One and true, and two nodes that differ in their gates alone. -/
def mixedRow : List Value :=
  [.int 1, .bool true, (NodeObject.bare "A" []).toValue, (NodeObject.bare "A" [.text "x"]).toValue]

def entriesAB : List (Scalar × Value) := [(.text "a", .int 1), (.text "b", .bool false)]

def entriesBA : List (Scalar × Value) := [(.text "b", .int 0), (.text "a", .bool true)]

/-- The nodes have one fingerprint and yet count apart. -/
theorem equal_classes_mixedRow :
    (∀ v ∈ mixedRow, v.Comparable) ∧ (∀ v ∈ mixedRow, v.isHashable) ∧
    (equalTo '' { v | v ∈ mixedRow }).ncard = 3 ∧
    (NodeObject.bare "A" []).toValue.fingerprint? =
      (NodeObject.bare "A" [.text "x"]).toValue.fingerprint? ∧
    (int 1).equal (bool true) ∧ (mapping entriesAB).equal (mapping entriesBA) := by
  have hrow : ∀ v ∈ mixedRow, v.Comparable := by
    simp only [mixedRow, List.forall_mem_cons]
    exact ⟨.scalar rfl, .scalar rfl, comparable_bare _ (by simp),
      comparable_bare _ (List.forall_mem_singleton.2 (.scalar rfl)), by simp⟩
  have hhashable : ∀ v ∈ mixedRow, v.isHashable := by decide
  have hab : (mapping entriesAB).Comparable := by
    refine .mapping (by decide) (by decide) ?_
    simp only [entriesAB, List.forall_mem_cons]
    exact ⟨.scalar rfl, .scalar rfl, by simp⟩
  have hba : (mapping entriesBA).Comparable := by
    refine .mapping (by decide) (by decide) ?_
    simp only [entriesBA, List.forall_mem_cons]
    exact ⟨.scalar rfl, .scalar rfl, by simp⟩
  obtain ⟨-, hnumbers, -, -, hmapping, -, -, hgates, hcount⟩ := equal_classes
  refine ⟨hrow, hhashable, ?_, (hgates .struct (by decide) _ _).symm,
    (hnumbers _ _ 1 1 rfl rfl).2 rfl, ?_⟩
  · have hthree : countDistinct (.list mixedRow) = .ok 3 := rfl
    rw [hcount _ hrow hhashable _ (.refl _)] at hthree
    exact Except.ok.inj hthree
  · refine (hmapping _ _ hab hba).2 ⟨_, entriesBA.reverse, rfl, List.reverse_perm _, ?_⟩
    exact .cons (by decide) (.cons (by decide) .nil)

end AstSchema.Value
