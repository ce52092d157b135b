import AstSchema.Proofs.NodeObject
import AstSchema.Proofs.Occurrences
import Mathlib.Data.List.TakeWhile

/-! Classes that only add to those they extend: their further fields come after the inherited ones.
And what a class settles about its fields, which it settles once. -/
namespace AstSchema

namespace FieldDeclaration

theorem names_add (fields : List FieldDeclaration) (f : FieldDeclaration) :
    (gather.add fields f).map (·.name) =
      if f.name ∈ fields.map (·.name) then fields.map (·.name)
      else fields.map (·.name) ++ [f.name] := by
  induction fields with
  | nil => rfl
  | cons g rest ih =>
    rw [gather.add]
    by_cases h : g.name = f.name
    · simp [h, restate]
    · simp only [beq_false_of_ne h, Bool.false_eq_true, if_false, List.map_cons, ih,
        List.mem_cons, Ne.symm h, false_or]
      split <;> rfl

/-- A name that comes up again keeps its first place. -/
theorem names_gather (fields : List FieldDeclaration) :
    (gather fields).map (·.name) = (fields.map (·.name)).eraseDups := by
  induction fields using List.reverseRecOn with
  | nil => rfl
  | append_singleton fields f ih =>
    have hgather : gather (fields ++ [f]) = gather.add (gather fields) f := by
      rw [gather, List.foldl_append]
      rfl
    rw [hgather, names_add, ih, List.map_append]
    split
    next hmem => exact (eraseDups_concat_of_mem (List.mem_eraseDups.1 hmem)).symm
    next hnew =>
      exact (eraseDups_concat_of_not_mem fun hmem => hnew (List.mem_eraseDups.2 hmem)).symm

theorem name_required (f : FieldDeclaration) : f.required.name = f.name := by
  unfold required
  split <;> rfl

theorem blank?_required (f : FieldDeclaration) : f.required.blank? = none := by
  unfold required
  split <;> rfl

end FieldDeclaration

/-! ## Further fields -/

theorem Attribute.name_of_spec {a : Attribute} {f : FieldDeclaration} {spec : FieldSpec}
    (h : a.spec f = .ok spec) : spec.name = f.name := by
  unfold Attribute.spec at h
  split at h
  · contradiction
  · exact Except.ok.inj h ▸ f.name_required
  · exact Except.ok.inj h ▸ f.name_required
  · contradiction
  · exact congrArg FieldSpec.name (Except.ok.inj h).symm

namespace Declaration

theorem name_of_spec {d : Declaration} {f : FieldDeclaration} {spec : FieldSpec}
    (h : d.spec f = .ok spec) : spec.name = f.name := by
  unfold Declaration.spec at h
  split at h
  · exact Except.ok.inj h ▸ f.name_required
  · exact Attribute.name_of_spec h

theorem names_of_mapM {d : Declaration} {fields : List FieldDeclaration} {own : List FieldSpec}
    (h : fields.mapM d.spec = .ok own) : own.map (·.name) = fields.map (·.name) := by
  have hrow := mapM_eq_ok_iff.1 h
  clear h
  induction hrow with
  | nil => rfl
  | cons hspec _ ih => rw [List.map_cons, List.map_cons, name_of_spec hspec, ih]

/-- A field with a name of its own comes last, unless it is named for the tag or the registry. -/
theorem merge_of_new {inherited : List FieldSpec} {spec : FieldSpec}
    (hnew : spec.name ∉ inherited.map (·.name)) (htag : spec.name ≠ tagName)
    (hregistry : spec.name ≠ registryName) : merge inherited spec = inherited ++ [spec] := by
  have hany : inherited.any (·.name == spec.name) = false := by
    simpa using hnew
  have hrank : ∀ old : FieldSpec, rank old.name ≤ rank spec.name := by
    intro old
    simp only [rank, beq_false_of_ne htag, beq_false_of_ne hregistry]
    split
    · simp
    · split <;> simp
  have hspan : inherited.span (fun old => rank old.name ≤ rank spec.name) = (inherited, []) := by
    rw [List.span_eq_takeWhile_dropWhile, List.takeWhile_eq_self_iff.2, List.dropWhile_eq_nil_iff.2]
    · exact fun old _ => decide_eq_true (hrank old)
    · exact fun old _ => decide_eq_true (hrank old)
  rw [merge, hany, hspan]
  rfl

theorem foldl_merge_of_new {inherited own : List FieldSpec} (hnodup : (own.map (·.name)).Nodup)
    (hnew : ∀ s ∈ own, s.name ∉ inherited.map (·.name) ∧ s.name ≠ tagName ∧
      s.name ≠ registryName) : own.foldl merge inherited = inherited ++ own := by
  induction own generalizing inherited with
  | nil => simp
  | cons spec own ih =>
    obtain ⟨hspec, hnodup⟩ := List.nodup_cons.1 hnodup
    obtain ⟨⟨hname, htag, hregistry⟩, hown⟩ := List.forall_mem_cons.1 hnew
    rw [List.foldl_cons, merge_of_new hname htag hregistry, ih hnodup]
    · simp
    · intro s hs
      obtain ⟨hinherited, hreserved⟩ := hown s hs
      refine ⟨?_, hreserved⟩
      rw [List.map_append, List.mem_append, not_or, List.map_singleton, List.mem_singleton]
      exact ⟨hinherited, fun heq => hspec (List.mem_map.2 ⟨s, hs, heq⟩)⟩

end Declaration

namespace Class

/-- Names of fields that the codec or the class itself has a use for. -/
def reservedNames : List String :=
  ["features", "fields", "variants", Declaration.tagName, Declaration.registryName]

/-- A class that extends another one in any number of declarations, each of which only declares
fields with new names that are not reserved. -/
inductive Extends (base : Class) : Class → Prop
  | refl : Extends base base
  | declare {d : Declaration} {cls : Class} (h : Extends base d.base)
      (hnew : ∀ f ∈ d.fields, f.name ∉ d.base.fieldNames ∧ f.name ∉ reservedNames)
      (hcls : d.toClass = .ok cls) : Extends base cls

end Class

theorem Declaration.exists_further {d : Declaration} {cls : Class}
    (hnew : ∀ f ∈ d.fields, f.name ∉ d.base.fieldNames ∧ f.name ∉ Class.reservedNames)
    (hcls : d.toClass = .ok cls) :
    ∃ own, cls.fields = d.base.fields ++ own ∧ ∀ s ∈ own, s.name ∉ Class.reservedNames := by
  obtain ⟨fields, hfields, h⟩ := bind_eq_ok_iff.1 hcls
  obtain ⟨tag, -, h⟩ := bind_eq_ok_iff.1 h
  obtain rfl := Except.ok.inj h
  obtain ⟨own, hown, hfields⟩ := bind_eq_ok_iff.1 hfields
  have hnames := (names_of_mapM hown).trans (FieldDeclaration.names_gather d.fields)
  have hdeclared : ∀ s ∈ own, s.name ∉ d.base.fieldNames ∧ s.name ∉ Class.reservedNames := by
    intro s hs
    have hname : s.name ∈ (d.fields.map (·.name)).eraseDups := hnames ▸ List.mem_map_of_mem hs
    obtain ⟨f, hf, heq⟩ := List.mem_map.1 (List.mem_eraseDups.1 hname)
    exact heq ▸ hnew f hf
  have hmerge : own.foldl merge d.base.fields = d.base.fields ++ own := by
    refine foldl_merge_of_new (hnames ▸ nodup_eraseDups _) fun s hs => ?_
    obtain ⟨hname, hreserved⟩ := hdeclared s hs
    refine ⟨hname, ?_, ?_⟩
    · rintro heq
      exact hreserved (by simp [heq, Class.reservedNames])
    · rintro heq
      exact hreserved (by simp [heq, Class.reservedNames])
  rw [hmerge] at hfields
  refine ⟨own, ?_, fun s hs => (hdeclared s hs).2⟩
  dsimp only at hfields
  split at hfields
  · exact (Except.ok.inj hfields).symm
  · contradiction

/-- The class has the role of the one that it extends, and its fields first. -/
theorem Class.Extends.exists_further {base cls : Class} (h : base.Extends cls) :
    cls.role = base.role ∧ ∃ further, cls.fields = base.fields ++ further ∧
      ∀ s ∈ further, s.name ∉ reservedNames := by
  induction h with
  | refl => exact ⟨rfl, [], by simp, by simp⟩
  | declare _ hnew hcls ih =>
    obtain ⟨hrole, further, hfields, hfurther⟩ := ih
    obtain ⟨own, hown, hnames⟩ := Declaration.exists_further hnew hcls
    refine ⟨(Declaration.toClass_eq_ok hcls).1.trans hrole, further ++ own, ?_, ?_⟩
    · rw [hown, hfields, List.append_assoc]
    · exact List.forall_mem_append.2 ⟨hfurther, hnames⟩

/-! ## Settled fields -/

namespace Class

theorem asTuple_eq_ok {v w : Value} (h : asTuple v = .ok w) : asTuple w = .ok w := by
  obtain ⟨items, -, h⟩ := bind_eq_ok_iff.1 h
  obtain rfl := Except.ok.inj h
  rfl

theorem revise_revise {name : String} {change : Value → Except Error Value}
    (hchange : ∀ v w, change v = .ok w → change w = .ok w) {specs : List FieldSpec}
    {vs ws : List Value} (h : revise name change specs vs = .ok ws) :
    revise name change specs ws = .ok ws := by
  induction specs generalizing vs ws with
  | nil => rfl
  | cons spec specs ih =>
    cases vs with
    | nil =>
      obtain rfl := Except.ok.inj h
      rfl
    | cons v vs =>
      rw [revise] at h
      split at h
      next heq =>
        obtain ⟨w, hw, h⟩ := bind_eq_ok_iff.1 h
        obtain rfl := Except.ok.inj h
        rw [revise, if_pos heq, hchange v w hw]
        rfl
      next hne =>
        obtain ⟨rest, hrest, h⟩ := bind_eq_ok_iff.1 h
        obtain rfl := Except.ok.inj h
        rw [revise, if_neg hne, ih hrest]
        rfl

theorem revise_of_fixed {name : String} {change : Value → Except Error Value}
    {specs : List FieldSpec} {vs : List Value}
    (h : ∀ p ∈ specs.zip vs, p.1.name = name → change p.2 = .ok p.2) :
    revise name change specs vs = .ok vs := by
  induction specs generalizing vs with
  | nil => rfl
  | cons spec specs ih =>
    cases vs with
    | nil => rfl
    | cons v vs =>
      rw [List.zip_cons_cons, List.forall_mem_cons] at h
      rw [revise]
      split
      next heq =>
        rw [h.1 (beq_iff_eq.1 heq)]
        rfl
      next =>
        rw [ih h.2]
        rfl

/-- An object of a type stays as it is when its class settles its fields once more. -/
theorem settle_settle {cls : Class} {given fields : List Value} (hfamily : cls.family = .type)
    (h : cls.settle given = .ok fields) : cls.settle fields = .ok fields := by
  rw [settle, settleBy] at h ⊢
  rw [family] at hfamily
  cases hrole : cls.role with
  | tuple =>
    rw [hrole] at h
    exact revise_revise (fun _ _ => asTuple_eq_ok) h
  | node | struct | enum | variant | features =>
    rw [hrole] at hfamily
    contradiction
  | _ => rfl

/-- A node stays as it is if it owns its gates and has tuples of fields or variants. -/
theorem settle_of_fixed {cls : Class} {fields : List Value} (hfamily : cls.family = .node)
    (hgates : ∀ p ∈ cls.fields.zip fields, p.1.name = "features" → ownGates p.2 = .ok p.2)
    (hrow : ∀ p ∈ cls.fields.zip fields, p.1.name = "fields" ∨ p.1.name = "variants" →
      asTuple p.2 = .ok p.2) : cls.settle fields = .ok fields := by
  have hfixed := revise_of_fixed hgates
  have hfields := revise_of_fixed fun p hp hname => hrow p hp (.inl hname)
  have hvariants := revise_of_fixed fun p hp hname => hrow p hp (.inr hname)
  rw [family] at hfamily
  rw [settle, settleBy]
  cases hrole : cls.role with
  | node => exact hfixed
  | struct =>
    simp only [hfixed, bind, Except.bind]
    exact hfields
  | enum =>
    simp only [hfixed, bind, Except.bind]
    exact hvariants
  | tuple | variant | features =>
    rw [hrole] at hfamily
    contradiction
  | _ => rfl

end Class

end AstSchema
