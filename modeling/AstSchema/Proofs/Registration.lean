import AstSchema.Proofs.ClassExtension
import AstSchema.Proofs.Nested
import AstSchema.Proofs.RegistryExtension

/-! Runs of declarations. Whatever is declared, each family lists the classes that were accepted in
their order, each under its own tag and no two under the same; a declaration is refused if its tag is
taken in its family, or if it makes no class at all. -/
namespace AstSchema

/-! ## Declarations by themselves -/

namespace Attribute

end Attribute

namespace Declaration

theorem tag?_of_toClass {d : Declaration} {cls : Class} {tag : Scalar} (hcls : d.toClass = .ok cls)
    (htag : d.tag = .ok tag) : cls.tag? = some tag := by
  obtain ⟨fields, -, hcls⟩ := bind_eq_ok_iff.1 hcls
  obtain ⟨tag', htag', hcls⟩ := bind_eq_ok_iff.1 hcls
  obtain rfl := Except.ok.inj hcls
  obtain rfl := Except.ok.inj (htag.symm.trans htag')
  rfl

/-! ### Ordinary declarations -/

/-- A declaration with nothing out of the way in it: the class has nothing yet under the name of any
of its fields. -/
structure Ordinary (d : Declaration) : Prop where
  name : d.name.contains '\x00' = false
  tag : ∀ v, d.tag? = some v → ∃ s, v = .scalar s
  fields : ∀ f ∈ d.fields, d.attribute? f.name = none

theorem mem_of_mem_merge {inherited : List FieldSpec} {spec s : FieldSpec}
    (h : s ∈ merge inherited spec) : s ∈ inherited ∨ s = spec := by
  unfold merge at h
  split at h
  · obtain ⟨old, hold, rfl⟩ := List.mem_map.1 h
    split
    · exact .inr rfl
    · exact .inl hold
  · rw [List.span_eq_takeWhile_dropWhile, List.mem_append, List.mem_cons] at h
    obtain h | rfl | h := h
    · exact .inl ((List.takeWhile_sublist _).subset h)
    · exact .inr rfl
    · exact .inl ((List.dropWhile_sublist _).subset h)

theorem mem_of_mem_foldl_merge {own inherited : List FieldSpec} {s : FieldSpec}
    (h : s ∈ own.foldl merge inherited) : s ∈ inherited ∨ s ∈ own := by
  induction own generalizing inherited with
  | nil => exact .inl h
  | cons spec own ih =>
    obtain h | h := ih h
    · exact (mem_of_mem_merge h).imp_right fun heq => by simp [heq]
    · exact .inr (List.mem_cons_of_mem _ h)

end Declaration

/-- No field can be left out. -/
def Class.IsStrict (cls : Class) : Prop := ∀ s ∈ cls.fields, s.blank? = none

namespace Declaration.Ordinary

variable {d : Declaration} (h : d.Ordinary)
include h

theorem attribute?_gather : ∀ f ∈ FieldDeclaration.gather d.fields, d.attribute? f.name = none := by
  intro f hf
  have hname : f.name ∈ (FieldDeclaration.gather d.fields).map (·.name) := List.mem_map_of_mem hf
  rw [FieldDeclaration.names_gather] at hname
  obtain ⟨g, hg, heq⟩ := List.mem_map.1 (List.mem_eraseDups.1 hname)
  exact heq ▸ h.fields g hg

theorem blank?_own {own : List FieldSpec}
    (hown : (FieldDeclaration.gather d.fields).mapM d.spec = .ok own) :
    ∀ s ∈ own, s.blank? = none := by
  refine forall_mem_of_mapM_eq_ok (fun f hf s hs => ?_) hown
  have hfree := h.attribute?_gather f hf
  rw [spec, hfree] at hs
  exact (Except.ok.inj hs) ▸ f.blank?_required

theorem blank?_fields (hbase : d.base.IsStrict) {own : List FieldSpec}
    (hown : (FieldDeclaration.gather d.fields).mapM d.spec = .ok own) :
    ∀ s ∈ own.foldl merge d.base.fields, s.blank? = none := fun s hs =>
  (mem_of_mem_foldl_merge hs).elim (hbase s) (h.blank?_own hown s)

theorem isStrict (hbase : d.base.IsStrict) {cls : Class} (hcls : d.toClass = .ok cls) :
    cls.IsStrict := by
  obtain ⟨fields, hfields, hcls⟩ := bind_eq_ok_iff.1 hcls
  obtain ⟨tag, -, hcls⟩ := bind_eq_ok_iff.1 hcls
  obtain rfl := Except.ok.inj hcls
  obtain ⟨own, hown, hfields⟩ := bind_eq_ok_iff.1 hfields
  dsimp only at hfields
  split at hfields
  next =>
    obtain rfl := Except.ok.inj hfields
    exact h.blank?_fields hbase hown
  next => contradiction

end Declaration.Ordinary

/-! ## One declaration -/

namespace Registry

/-- The classes of a family by tag. A class of no family is in no table. -/
def entries (r : Registry) : Family → List (Scalar × Class)
  | .type => r.types
  | .node => r.nodes
  | .plain => []

/-- The tag is a key of the family. -/
def IsTaken (r : Registry) (family : Family) (tag : Scalar) : Prop :=
  ∃ e ∈ r.entries family, e.1.same tag

theorem type?_eq_none_iff {r : Registry} {tag : Scalar} :
    r.type? tag = none ↔ ¬ r.IsTaken .type tag := by
  simp [type?, Entries.find?_eq_none_iff, IsTaken, entries]

theorem node?_eq_none_iff {r : Registry} {tag : Scalar} :
    r.node? tag = none ↔ ¬ r.IsTaken .node tag := by
  simp [node?, Entries.find?_eq_none_iff, IsTaken, entries]

section

variable {r r' : Registry} {d : Declaration} {cls : Class} {family : Family}

theorem Declared.family_eq (h : r.Declared d cls r') : cls.family = d.base.family := by
  have hrole : cls.role = d.base.role := by
    cases h with
    | type _ hcls | node _ hcls => exact (Declaration.toClass_eq_ok hcls).1
    | plain _ hcls =>
      unfold Declaration.toPlainClass at hcls
      split at hcls
      · contradiction
      · exact Except.ok.inj hcls ▸ rfl
  rw [Class.family, Class.family, hrole]

/-- Only the family of the class changes. -/
theorem Declared.entries_of_ne (h : r.Declared d cls r') (hne : d.base.family ≠ family) :
    r'.entries family = r.entries family := by
  cases h with
  | type hfamily =>
    cases family with
    | type => contradiction
    | node | plain => rfl
  | node hfamily =>
    cases family with
    | node => contradiction
    | type | plain => rfl
  | plain => rfl

/-- The class comes last in its family, under its tag, which was free. -/
theorem Declared.entries_eq (h : r.Declared d cls r') (hfamily : d.base.family ≠ .plain) :
    d.toClass = .ok cls ∧ ∃ tag, cls.tag? = some tag ∧ ¬ r.IsTaken d.base.family tag ∧
      r'.entries d.base.family = r.entries d.base.family ++ [(tag, cls)] := by
  cases h with
  | @type tag hbase hcls htag hfree =>
    rw [hbase]
    exact ⟨hcls, tag, Declaration.tag?_of_toClass hcls htag, type?_eq_none_iff.1 hfree, rfl⟩
  | @node tag hbase hcls htag hfree =>
    rw [hbase]
    exact ⟨hcls, tag, Declaration.tag?_of_toClass hcls htag, node?_eq_none_iff.1 hfree, rfl⟩
  | plain hbase => contradiction

theorem Declared.mem_entries (h : r.Declared d cls r') {e : Scalar × Class}
    (he : e ∈ r'.entries family) : e ∈ r.entries family ∨ d.toClass = .ok e.2 := by
  by_cases hfamily : d.base.family = family
  · subst hfamily
    by_cases hplain : d.base.family = .plain
    · rw [hplain] at he
      contradiction
    · obtain ⟨hcls, tag, -, -, hentries⟩ := h.entries_eq hplain
      rw [hentries, List.mem_append, List.mem_singleton] at he
      exact he.imp_right fun heq => by rwa [heq]
  · exact .inl (h.entries_of_ne hfamily ▸ he)

end

/-! ## Runs -/

/-- The family lists these classes in this order, each under its own tag, and no tag twice. -/
structure Files (r : Registry) (family : Family) (classes : List Class) : Prop where
  keys : (r.entries family).Pairwise fun a b => a.1.same b.1 = false
  own : ∀ e ∈ r.entries family, e.2.tag? = some e.1 ∧ e.2.family = family
  order : (r.entries family).map (·.2) = classes

section

variable {r r' : Registry} {d : Declaration} {cls : Class} {family : Family} {classes : List Class}

theorem Files.declared (hfiles : r.Files family classes) (hplain : family ≠ .plain)
    (h : r.Declared d cls r') :
    r'.Files family (classes ++ [cls].filter (·.family = family)) := by
  by_cases hfamily : d.base.family = family
  · subst hfamily
    obtain ⟨-, tag, htag, hfree, hentries⟩ := h.entries_eq hplain
    have hnew : ∀ e ∈ r.entries d.base.family, e.1.same tag = false := by
      simpa [IsTaken] using hfree
    refine ⟨?_, ?_, ?_⟩
    · rw [hentries, List.pairwise_append]
      exact ⟨hfiles.keys, List.pairwise_singleton .., by simpa using hnew⟩
    · rw [hentries, List.forall_mem_append, List.forall_mem_singleton]
      exact ⟨hfiles.own, htag, h.family_eq⟩
    · rw [hentries, List.map_append, hfiles.order]
      simp [h.family_eq]
  · have hentries := h.entries_of_ne hfamily
    have hnone : [cls].filter (·.family = family) = [] := by simp [h.family_eq, hfamily]
    rw [hnone, List.append_nil]
    exact ⟨hentries ▸ hfiles.keys, hentries ▸ hfiles.own, hentries ▸ hfiles.order⟩

end

theorem next_of_accepted {r r' : Registry} {d : Declaration} {cls : Class}
    (h : r.define d = .ok (r', cls)) : r.next (.declare d) = r' := by
  rw [next, h]

theorem next_of_error {r : Registry} {d : Declaration} {e : Error} (h : r.define d = .error e) :
    r.next (.declare d) = r := by
  rw [next, h]

def declareAll (r : Registry) (ds : List Declaration) : Registry := r.after (ds.map .declare)

@[simp] theorem declareAll_nil (r : Registry) : r.declareAll [] = r := rfl

@[simp] theorem declareAll_cons (r : Registry) (d : Declaration) (ds : List Declaration) :
    r.declareAll (d :: ds) = (r.next (.declare d)).declareAll ds := rfl

/-- The classes that come of a run of declarations, in order. -/
def defined (r : Registry) : List Declaration → List Class
  | [] => []
  | d :: ds =>
    match r.define d with
    | .ok (r', cls) => cls :: defined r' ds
    | .error _ => defined r ds

theorem Files.declareAll {r : Registry} {family : Family} {classes : List Class}
    (hfiles : r.Files family classes) (hplain : family ≠ .plain) (ds : List Declaration) :
    (r.declareAll ds).Files family (classes ++ (r.defined ds).filter (·.family = family)) := by
  induction ds generalizing r classes with
  | nil => simpa [defined] using hfiles
  | cons d ds ih =>
    rw [declareAll_cons, defined]
    cases h : r.define d with
    | ok p =>
      have hstep := ih (hfiles.declared hplain (declared_of_define h))
      rw [next_of_accepted h]
      rwa [List.append_assoc, ← List.filter_append] at hstep
    | error e =>
      rw [next_of_error h]
      exact ih hfiles

/-! ### Ordinary runs -/

/-- A class that can be extended: the base of a family, or one that is registered. -/
inductive Offers (r : Registry) : Class → Prop
  | type : Offers r .type
  | node : Offers r .node
  | entry {family : Family} {e : Scalar × Class} (h : e ∈ r.entries family) : Offers r e.2

def IsStrict (r : Registry) : Prop := ∀ cls, r.Offers cls → cls.IsStrict

theorem IsStrict.next {r : Registry} (hr : r.IsStrict) {d : Declaration} (hd : d.Ordinary)
    (hbase : r.Offers d.base) : (r.next (.declare d)).IsStrict := by
  cases h : r.define d with
  | error e => rwa [next_of_error h]
  | ok p =>
    rw [next_of_accepted h]
    rintro _ (_ | _ | @⟨family, e, he⟩)
    · exact hr _ .type
    · exact hr _ .node
    · obtain hold | hcls := (declared_of_define h).mem_entries he
      · exact hr _ (.entry hold)
      · exact hd.isStrict (hr _ hbase) hcls

end Registry

end AstSchema
