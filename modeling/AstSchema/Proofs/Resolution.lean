import AstSchema.Proofs.Fingerprint
import AstSchema.Proofs.Mutation
import AstSchema.Proofs.Walk
import Mathlib.Tactic.TFAE

/-! What is declared, as the definitions and as validation see it. A declaration and a look-up by
ident compare with each stored node in turn, validation goes by fingerprints; where every ident is
hashable and equal to itself both find the same nodes, and never two of one ident. -/
namespace AstSchema

namespace Value

/-- Fit for an ident: it can be looked up, and it is equal to itself. -/
structure IsIdent (v : Value) : Prop where
  hashable : v.isHashable
  notNaN : v.isNaN = false
  keyed : v.Keyed

/-! ## Types and what stands in them -/

/-- A type of the built-in classes. Any value may stand for a name or for what separates. -/
inductive IsType : Value → Prop
  | name (cls : NameClass) (name : Value) : IsType (.object cls.toClass [name])
  | wrap (cls : WrapClass) {inner : Value} (hinner : IsType inner) :
      IsType (.object cls.toClass [inner])
  | punctuated {element : Value} (helement : IsType element) (punct : Value) :
      IsType (.object .punctuated [element, punct])
  | tuple {elements : List Value} (helements : ∀ t ∈ elements, IsType t) :
      IsType (.object .tuple [.tuple elements])

/-- The value is this type or is nested in it, however deep. -/
inductive StandsIn (v : Value) : Value → Prop
  | self : StandsIn v v
  | wrap (cls : WrapClass) {inner : Value} (h : StandsIn v inner) :
      StandsIn v (.object cls.toClass [inner])
  | punctuated {element : Value} (h : StandsIn v element) (punct : Value) :
      StandsIn v (.object .punctuated [element, punct])
  | tuple {elements : List Value} {element : Value} (hmem : element ∈ elements)
      (h : StandsIn v element) : StandsIn v (.object .tuple [.tuple elements])

def item (name : Value) : Value := .object .item [name]

variable {v t name : Value}

theorem walk_name (cls : NameClass) (name : Value) :
    (object cls.toClass [name]).walk = [.object cls.toClass [name]] := by
  cases cls <;> rfl

theorem walk_wrap (cls : WrapClass) (inner : Value) :
    (object cls.toClass [inner]).walk = .object cls.toClass [inner] :: inner.walk := by
  cases cls <;> rfl

theorem walk_punctuated (element punct : Value) :
    (object .punctuated [element, punct]).walk =
      .object .punctuated [element, punct] :: element.walk := rfl

theorem walk_tuple (elements : List Value) :
    (object .tuple [.tuple elements]).walk =
      .object .tuple [.tuple elements] :: elements.flatMap walk := by
  rw [← walkItems_eq_flatMap]
  rfl

theorem mem_walk_self (v : Value) : v ∈ v.walk := by
  cases v with
  | object cls fields => exact List.mem_cons_self
  | _ => exact List.mem_singleton_self _

/-- The walk over a type misses nothing that stands in it. -/
theorem StandsIn.mem_walk (h : v.StandsIn t) : v ∈ t.walk := by
  induction h with
  | self => exact mem_walk_self v
  | wrap cls _ ih =>
    rw [walk_wrap]
    exact List.mem_cons_of_mem _ ih
  | punctuated _ punct ih =>
    rw [walk_punctuated]
    exact List.mem_cons_of_mem _ ih
  | tuple hmem _ ih =>
    rw [walk_tuple]
    exact List.mem_cons_of_mem _ (List.mem_flatMap.2 ⟨_, hmem, ih⟩)

/-- What the walk over a type meets are types that stand in it. -/
theorem IsType.of_mem_walk (h : t.IsType) (hv : v ∈ t.walk) : v.IsType ∧ v.StandsIn t := by
  induction h with
  | name cls name =>
    rw [walk_name, List.mem_singleton] at hv
    subst hv
    exact ⟨.name cls name, .self⟩
  | wrap cls hinner ih =>
    rw [walk_wrap, List.mem_cons] at hv
    obtain rfl | hv := hv
    · exact ⟨.wrap cls hinner, .self⟩
    · exact ⟨(ih hv).1, .wrap cls (ih hv).2⟩
  | punctuated helement punct ih =>
    rw [walk_punctuated, List.mem_cons] at hv
    obtain rfl | hv := hv
    · exact ⟨.punctuated helement punct, .self⟩
    · exact ⟨(ih hv).1, .punctuated (ih hv).2 punct⟩
  | tuple helements ih =>
    rw [walk_tuple, List.mem_cons, List.mem_flatMap] at hv
    obtain rfl | ⟨element, hmem, hv⟩ := hv
    · exact ⟨.tuple helements, .self⟩
    · exact ⟨(ih element hmem hv).1, .tuple hmem (ih element hmem hv).2⟩

theorem IsType.eq_item (h : v.IsType) (hname : Validate.itemName? v = some name) :
    v = item name := by
  cases h with
  | name cls name =>
    cases cls with
    | item =>
      obtain rfl := Option.some.inj hname
      rfl
    | _ => contradiction
  | wrap cls hinner => cases cls <;> contradiction
  | punctuated helement punct => contradiction
  | tuple helements => contradiction

theorem mem_itemNames_iff (h : t.IsType) : name ∈ t.itemNames ↔ (item name).StandsIn t := by
  rw [itemNames, List.mem_filterMap]
  constructor
  · rintro ⟨v, hv, hname⟩
    obtain ⟨htype, hstands⟩ := h.of_mem_walk hv
    exact htype.eq_item hname ▸ hstands
  · intro hstands
    exact ⟨item name, hstands.mem_walk, rfl⟩

end Value

/-! ## Nodes -/

namespace RawNode

/-- An item with this name stands somewhere in a type of this member. -/
def Mentions (n : RawNode) (member name : Value) : Prop :=
  ∃ types, (member, types) ∈ n.members ∧ ∃ t ∈ types, (Value.item name).StandsIn t

/-- Idents and the names of items are fit for idents, and the types are of built-in classes. -/
structure Regular (n : RawNode) : Prop where
  ident : n.ident.IsIdent
  members : ∀ m ∈ n.members, m.1.IsIdent
  types : ∀ m ∈ n.members, ∀ t ∈ m.2, t.IsType
  names : ∀ member name, n.Mentions member name → name.IsIdent

variable {n : RawNode}

theorem Regular.withFlags (h : n.Regular) (flags : List Value) : (n.withFlags flags).Regular where
  ident := by simpa using h.ident
  members := by simpa using h.members
  types := by simpa using h.types
  names := by simpa [Mentions] using h.names

theorem Regular.isHashable_sought (h : n.Regular) : n.sought.all Value.isHashable := by
  rw [sought, List.all_append, Bool.and_eq_true, List.all_eq_true, List.all_eq_true]
  constructor
  · exact List.forall_mem_map.2 fun m hm => (h.members m hm).hashable
  · intro name hname
    obtain ⟨m, hm, hname⟩ := List.mem_flatMap.1 hname
    obtain ⟨t, ht, hname⟩ := List.mem_flatMap.1 hname
    have hstands := (Value.mem_itemNames_iff (h.types m hm t ht)).1 hname
    exact (h.names m.1 name ⟨m.2, hm, t, ht, hstands⟩).hashable

theorem Regular.mem_itemNames (h : n.Regular) {member name : Value} (hname : n.Mentions member name) :
    ∃ types, (member, types) ∈ n.members ∧ name ∈ types.flatMap Value.itemNames := by
  obtain ⟨types, hmember, t, ht, hstands⟩ := hname
  exact ⟨types, hmember,
    List.mem_flatMap.2 ⟨t, ht, (Value.mem_itemNames_iff (h.types _ hmember t ht)).2 hstands⟩⟩

/-- A row of looks that are those of regular nodes. -/
theorem exists_regular_row {α : Type} {f : α → GatedNode} {items : List α}
    (h : ∀ a ∈ items, ∃ n : RawNode, n.Regular ∧ n.toGated = f a) :
    ∃ nodes : List RawNode, (∀ n ∈ nodes, n.Regular) ∧ nodes.map RawNode.toGated = items.map f := by
  induction items with
  | nil => exact ⟨[], by simp, rfl⟩
  | cons a items ih =>
    obtain ⟨⟨n, hn, heq⟩, hitems⟩ := List.forall_mem_cons.1 h
    obtain ⟨nodes, hnodes, hrest⟩ := ih hitems
    exact ⟨n :: nodes, List.forall_mem_cons.2 ⟨hn, hnodes⟩, by simp [heq, hrest]⟩

end RawNode

namespace Definitions

def ofRaw (tokens : Value) (nodes : List RawNode) : Definitions :=
  ⟨.list (nodes.map RawNode.toValue), tokens⟩

theorem ofGated_ofRaw (tokens : Value) (nodes : List RawNode) :
    ofGated tokens (nodes.map RawNode.toGated) = ofRaw tokens nodes := by
  rw [ofGated, List.map_map]
  rfl

/-- Regular nodes, no two of them with equal idents. -/
structure Declared (nodes : List RawNode) : Prop where
  regular : ∀ n ∈ nodes, n.Regular
  distinct : nodes.Pairwise fun a b => a.ident.equal b.ident = false

/-! ## Look-ups -/

variable {tokens : Value} {nodes before after : List RawNode} {stored : RawNode}

theorem locate_ofRaw_of_forall {name : Value} (h : ∀ n ∈ nodes, n.ident.equal name = false) :
    Value.locate name (nodes.map RawNode.toValue) = .ok none := by
  have hgated : ∀ n ∈ nodes.map RawNode.toGated, n.ident.equal name = false :=
    List.forall_mem_map.2 h
  have hlocate := GatedNode.locate_of_forall hgated
  rwa [List.map_map] at hlocate

theorem locate_ofRaw_append {name : Value} (h : ∀ n ∈ before, n.ident.equal name = false)
    (hstored : stored.ident.equal name) :
    Value.locate name ((before ++ stored :: after).map RawNode.toValue) =
      .ok (some (before.length, stored.toValue)) := by
  have hgated : ∀ n ∈ before.map RawNode.toGated, n.ident.equal name = false :=
    List.forall_mem_map.2 h
  have hlocate : Value.locate name
      ((before.map RawNode.toGated ++ stored.toGated :: after.map RawNode.toGated).map
        GatedNode.toValue) = _ := GatedNode.locate_append hgated hstored
  rwa [← List.map_cons, ← List.map_append, List.map_map, List.length_map] at hlocate

theorem resolve_ofRaw_of_forall {name : Value} (h : ∀ n ∈ nodes, n.ident.equal name = false) :
    (ofRaw tokens nodes).resolve name = .error (.undeclared name (nodes.map (·.ident))) := by
  have hgated : ∀ n ∈ nodes.map RawNode.toGated, n.ident.equal name = false :=
    List.forall_mem_map.2 h
  rw [← ofGated_ofRaw, resolve_gated_of_forall tokens hgated, List.map_map]
  rfl

theorem contains_ofRaw_of_forall {name : Value} (h : ∀ n ∈ nodes, n.ident.equal name = false) :
    (ofRaw tokens nodes).contains name = .ok false := by
  change (Value.locate name (nodes.map RawNode.toValue) >>= fun found? =>
    Except.ok found?.isSome) = _
  rw [locate_ofRaw_of_forall h]
  rfl

theorem resolve_ofRaw_append {name : Value} (h : ∀ n ∈ before, n.ident.equal name = false)
    (hstored : stored.ident.equal name) :
    (ofRaw tokens (before ++ stored :: after)).resolve name =
      .ok (before.length, stored.toValue) := by
  have hgated : ∀ n ∈ before.map RawNode.toGated, n.ident.equal name = false :=
    List.forall_mem_map.2 h
  have hident : stored.toGated.ident.equal name := hstored
  rw [← ofGated_ofRaw, List.map_append, List.map_cons,
    resolve_gated_append tokens _ hgated hident, List.length_map]
  rfl

theorem contains_ofRaw_append {name : Value} (h : ∀ n ∈ before, n.ident.equal name = false)
    (hstored : stored.ident.equal name) :
    (ofRaw tokens (before ++ stored :: after)).contains name = .ok true := by
  change (Value.locate name ((before ++ stored :: after).map RawNode.toValue) >>= fun found? =>
    Except.ok found?.isSome) = _
  rw [locate_ofRaw_append h hstored]
  rfl

end Definitions

/-! ## Problems -/

namespace Problem

/-- An item is reported that has this name, however it is spelled. -/
def Names (name : Value) (problem : Value) : Prop :=
  ∃ location message found available,
    problem = .object .unresolvedItem [location, message, found, available] ∧ found.equal name

variable {declared names : List Value} {name problem : Value} {n : RawNode}

theorem names_unresolved_iff {location : String} {found : Value} :
    Names name (unresolved location found declared) ↔ found.equal name := by
  simp [Names, unresolved]

theorem not_names_duplicate {location ident : Value} {count : Nat} :
    ¬ Names name (duplicate location ident count) := by
  rintro ⟨place, message, found, available, heq, -⟩
  have hcls : Class.duplicateIdent = Class.unresolvedItem := (Value.object.inj heq).1
  contradiction

/-- A problem about an item is about one of the node, by which no declared ident is found. -/
theorem exists_of_names (hregular : n.Regular) (hproblem : problem ∈ ofRaw declared n)
    (h : Names name problem) :
    ∃ found, found.IsIdent ∧ (∀ d ∈ declared, d.isFoundBy found = false) ∧ found.equal name := by
  obtain hdouble | ⟨m, hm, found, hfound, hunfound, rfl⟩ := mem_ofRaw_iff.1 hproblem
  · obtain ⟨ident, count, rfl⟩ := exists_of_mem_duplicates hdouble
    exact absurd h not_names_duplicate
  · obtain ⟨t, ht, hfound⟩ := List.mem_flatMap.1 hfound
    have hstands := (Value.mem_itemNames_iff (hregular.types m hm t ht)).1 hfound
    have hident := hregular.names m.1 found ⟨m.2, hm, t, ht, hstands⟩
    exact ⟨found, hident, hunfound, names_unresolved_iff.1 h⟩

/-- The problems of all nodes, without those of repeated idents of nodes. -/
def within (nodes : List RawNode) : List Value :=
  nodes.flatMap (ofRaw (nodes.map (·.ident)))

end Problem

namespace Definitions.Declared

variable {tokens name member : Value} {nodes : List RawNode} {node : RawNode}

/-- Validation counts no ident of a node twice. -/
theorem duplicates_eq_nil (h : Declared nodes) (location : Value) :
    Validate.duplicates location (nodes.map (·.ident)) = [] := by
  have hnan : ∀ v ∈ nodes.map (·.ident), v.isNaN = false :=
    List.forall_mem_map.2 fun n hn => (h.regular n hn).ident.notNaN
  rw [Validate.duplicates, Value.tally_of_pairwise hnan (List.pairwise_map.2 h.distinct),
    List.filterMap_map, List.filterMap_eq_nil_iff]
  intro ident _
  rfl

theorem validate_eq (h : Declared nodes) :
    validate (ofRaw tokens nodes).toValue =
      .ok (Report.ofProblems (Problem.within nodes),
        .validated nodes.length (Problem.within nodes).length) := by
  have hproblems : Problem.ofRaws nodes = Problem.within nodes := by
    rw [Problem.ofRaws, h.duplicates_eq_nil]
    rfl
  have hhashable : (nodes.map (·.ident) ++ nodes.flatMap RawNode.sought).all Value.isHashable := by
    rw [List.all_append, List.all_map, List.all_flatMap, Bool.and_eq_true, List.all_eq_true,
      List.all_eq_true]
    exact ⟨fun n hn => (h.regular n hn).ident.hashable,
      fun n hn => (h.regular n hn).isHashable_sought⟩
  rw [← hproblems]
  exact (validate_rawNodes tokens nodes).trans (if_pos hhashable)

/-- An ident that is declared belongs to one node only. -/
theorem exists_split (h : Declared nodes) (hname : ¬ ∀ n ∈ nodes, n.ident.equal name = false) :
    ∃ before found after, nodes = before ++ found :: after ∧ found.ident.equal name ∧
      ∀ other ∈ before ++ after, other.ident.equal name = false := by
  cases hfind : nodes.find? (·.ident.equal name) with
  | none => exact absurd (by simpa using hfind) hname
  | some found =>
    obtain ⟨hfound, before, after, rfl, hbefore⟩ := List.find?_eq_some_iff_append.1 hfind
    refine ⟨before, found, after, rfl, hfound, List.forall_mem_append.2 ⟨?_, ?_⟩⟩
    · simpa using hbefore
    · intro other hother
      obtain ⟨-, hrest, -⟩ := List.pairwise_append.1 h.distinct
      have hdistinct := (List.pairwise_cons.1 hrest).1 other hother
      have hkeyed := (h.regular other (by simp [hother])).ident.keyed
      -- Two idents equal to the name would be equal to one another.
      by_contra hequal
      rw [Bool.not_eq_false] at hequal
      simp [Value.equal_trans hfound (Value.equal_symm hkeyed hequal)] at hdistinct

/-! ### Four ways to see that an ident is not declared -/

theorem contains_iff (h : Declared nodes) :
    (ofRaw tokens nodes).contains name = .ok false ↔ ∀ n ∈ nodes, n.ident.equal name = false := by
  refine ⟨fun hcontains => ?_, contains_ofRaw_of_forall⟩
  by_contra hname
  obtain ⟨before, found, after, rfl, hfound, hothers⟩ := h.exists_split hname
  rw [contains_ofRaw_append (List.forall_mem_append.1 hothers).1 hfound] at hcontains
  simp at hcontains

theorem resolve_iff (h : Declared nodes) :
    (∃ e, (ofRaw tokens nodes).resolve name = .error e ∧ e.kind = .missing) ↔
      ∀ n ∈ nodes, n.ident.equal name = false := by
  refine ⟨?_, fun hname => ⟨_, resolve_ofRaw_of_forall hname, rfl⟩⟩
  rintro ⟨e, hresolve, -⟩
  by_contra hname
  obtain ⟨before, found, after, rfl, hfound, hothers⟩ := h.exists_split hname
  rw [resolve_ofRaw_append (List.forall_mem_append.1 hothers).1 hfound] at hresolve
  contradiction

theorem unresolved_mem (h : Declared nodes) (hnode : node ∈ nodes)
    (hmentions : node.Mentions member name)
    (hname : ∀ n ∈ nodes, n.ident.equal name = false) :
    Problem.unresolved (Problem.location node member) name (nodes.map (·.ident)) ∈
      Problem.within nodes := by
  obtain ⟨types, hmember, hitem⟩ := (h.regular node hnode).mem_itemNames hmentions
  have hunfound : ∀ d ∈ nodes.map (·.ident), d.isFoundBy name = false := by
    refine List.forall_mem_map.2 fun n hn => ?_
    rw [Value.isFoundBy_eq_equal (h.regular n hn).ident.notNaN]
    exact hname n hn
  refine List.mem_flatMap.2 ⟨node, hnode, ?_⟩
  exact Problem.mem_ofRaw_iff.2 (.inr ⟨(member, types), hmember, name, hitem, hunfound, rfl⟩)

theorem forall_of_names (h : Declared nodes) {problem : Value}
    (hproblem : problem ∈ Problem.within nodes) (hnames : Problem.Names name problem) :
    ∀ n ∈ nodes, n.ident.equal name = false := by
  obtain ⟨node, hnode, hproblem⟩ := List.mem_flatMap.1 hproblem
  obtain ⟨found, hident, hunfound, hequal⟩ :=
    Problem.exists_of_names (h.regular node hnode) hproblem hnames
  intro n hn
  have hne := hunfound n.ident (List.mem_map_of_mem hn)
  rw [Value.isFoundBy_eq_equal (h.regular n hn).ident.notNaN] at hne
  -- The ident would be found by the name that is reported, which is equal to this one.
  by_contra hdeclared
  rw [Bool.not_eq_false] at hdeclared
  simp [Value.equal_trans hdeclared (Value.equal_symm hident.keyed hequal)] at hne

theorem tfae_undeclared (h : Declared nodes) (hnode : node ∈ nodes)
    (hmentions : node.Mentions member name) :
    [Problem.unresolved (Problem.location node member) name (nodes.map (·.ident)) ∈
        Problem.within nodes,
      ∃ problem ∈ Problem.within nodes, Problem.Names name problem,
      ∃ e, (ofRaw tokens nodes).resolve name = .error e ∧ e.kind = .missing,
      (ofRaw tokens nodes).contains name = .ok false].TFAE := by
  have hident := (h.regular node hnode).names member name hmentions
  tfae_have 1 → 2 := fun hproblem => ⟨_, hproblem,
    Problem.names_unresolved_iff.2 (Value.equal_refl hident.keyed hident.notNaN)⟩
  tfae_have 2 → 3 := fun ⟨_, hproblem, hnames⟩ =>
    h.resolve_iff.2 (h.forall_of_names hproblem hnames)
  tfae_have 3 → 4 := fun hresolve => h.contains_iff.2 (h.resolve_iff.1 hresolve)
  tfae_have 4 → 1 := fun hcontains =>
    h.unresolved_mem hnode hmentions (h.contains_iff.1 hcontains)
  tfae_finish

end Definitions.Declared

namespace World

open Definitions

variable {w last : World} {allowed : GatedNode → Prop}

/-- Whatever is declared, taken or refused, no two stored nodes have equal idents. -/
theorem Declares.distinct (h : w.Declares allowed last) (hempty : w.nodes = [])
    (hfixed : ∀ r ∈ last.nodes, r.ident.isGateFree) :
    last.nodes.Pairwise fun a b => a.ident.equal b.ident = false := by
  induction h with
  | start =>
    rw [hempty]
    exact .nil
  | make _ hmakes ih =>
    rw [hmakes.nodes_eq] at hfixed ⊢
    exact ih hfixed
  | @add mid last r failure? _ _ _ hadd ih =>
    cases hadd.change with
    | appended hnew =>
      obtain ⟨hmid, hr⟩ := List.forall_mem_append.1 hfixed
      have hnone : ∀ s ∈ mid.nodes, (mid.heap.view s.ident).equal (mid.heap.view r.ident) = false :=
        fun s hs => Bool.eq_false_iff.2 (List.find?_eq_none.1 hnew s hs)
      refine List.pairwise_append.2 ⟨ih hmid, List.pairwise_singleton _ _, fun s hs t ht => ?_⟩
      obtain rfl := List.mem_singleton.1 ht
      have hne := hnone s hs
      rwa [Heap.view_of_isGateFree (hmid s hs),
        Heap.view_of_isGateFree (hr t List.mem_cons_self)] at hne
    | joined | refused => exact ih hfixed

theorem exists_declared (hdistinct : last.nodes.Pairwise fun a b => a.ident.equal b.ident = false)
    (hfixed : ∀ r ∈ last.nodes, r.ident.isGateFree)
    (hregular : ∀ r ∈ last.nodes, ∃ n : RawNode, n.Regular ∧ n.toGated = r.look last.heap) :
    ∃ stored : List RawNode, Declared stored ∧
      last.store.view = ofRaw (last.heap.view last.tokens) stored := by
  obtain ⟨stored, hstored, hlooks⟩ := RawNode.exists_regular_row hregular
  refine ⟨stored, ⟨hstored, ?_⟩, ?_⟩
  · have hidents : stored.map (·.ident) = last.nodes.map (·.ident) := by
      have hgated := congrArg (List.map GatedNode.ident) hlooks
      rw [List.map_map, List.map_map] at hgated
      refine hgated.trans (List.map_congr_left fun r hr => ?_)
      exact Heap.view_of_isGateFree (hfixed r hr)
    have hpairs : (last.nodes.map (·.ident)).Pairwise fun a b => a.equal b = false :=
      List.pairwise_map.2 hdistinct
    rw [← hidents] at hpairs
    exact List.pairwise_map.1 hpairs
  · rw [view_store, looks, ← hlooks, ofGated_ofRaw]

/-- Whatever was declared, validation reports no ident of a node as repeated, and it reports an item
exactly if its name does not resolve, or is not contained in the definitions. Where it reports
nothing every item resolves, to the only node of that ident. What idents and names are is said of
the nodes that are stored in the end, as they look then. -/
theorem validate_declares (hempty : w.nodes = []) (hrun : w.Declares (fun _ => True) last)
    (hfixed : ∀ r ∈ last.nodes, r.ident.isGateFree)
    (hregular : ∀ r ∈ last.nodes, ∃ n : RawNode, n.Regular ∧ n.toGated = r.look last.heap) :
    ∃ tokens stored, last.store.view = ofRaw tokens stored ∧
      validate last.store.view.toValue =
        .ok (Report.ofProblems (Problem.within stored),
          .validated stored.length (Problem.within stored).length) ∧
      (∀ node ∈ stored, ∀ member name, node.Mentions member name →
        [Problem.unresolved (Problem.location node member) name (stored.map (·.ident)) ∈
            Problem.within stored,
          ∃ problem ∈ Problem.within stored, Problem.Names name problem,
          ∃ e, last.store.view.resolve name = .error e ∧ e.kind = .missing,
          last.store.view.contains name = .ok false].TFAE) ∧
      (Problem.within stored = [] → ∀ node ∈ stored, ∀ member name, node.Mentions member name →
        ∃ before found after, stored = before ++ found :: after ∧
          last.store.view.resolve name = .ok (before.length, found.toValue) ∧
          found.ident.equal name ∧
          ∀ other ∈ before ++ after, other.ident.equal name = false) := by
  obtain ⟨stored, h, hview⟩ := exists_declared (hrun.distinct hempty hfixed) hfixed hregular
  rw [hview]
  refine ⟨_, stored, rfl, h.validate_eq, fun _ hnode _ _ => h.tfae_undeclared hnode, ?_⟩
  intro hclean node hnode member name hmentions
  have hdeclared : ¬ ∀ n ∈ stored, n.ident.equal name = false := by
    intro hname
    have hreported := h.unresolved_mem hnode hmentions hname
    rw [hclean] at hreported
    contradiction
  obtain ⟨before, found, after, rfl, hfound, hothers⟩ := h.exists_split hdeclared
  have hbefore := (List.forall_mem_append.1 hothers).1
  exact ⟨before, found, after, rfl, resolve_ofRaw_append hbefore hfound, hfound, hothers⟩

/-! ### One ident in two spellings -/

/-- A struct with a number for its ident. -/
def numbered : RawNode :=
  .struct (.int 1) [] [(.text "left", .item (.bool true)), (.text "right", .item (.text "Leaf"))]
    (.bool true)

/-- A truth value equals its number. -/
def truthful : RawNode := .bare (.bool true) [.text "on"]

theorem regular_numbered : numbered.Regular := by
  have hitem (name : Value) (t : Value) (h : (Value.item name).StandsIn (.item t)) : name = t := by
    simpa [Value.item] using List.mem_singleton.1 h.mem_walk
  have htruth : (Value.bool true).IsIdent := ⟨rfl, rfl, .scalar _⟩
  have htext (s : String) : (Value.text s).IsIdent := ⟨rfl, rfl, .scalar _⟩
  refine ⟨⟨rfl, rfl, .scalar _⟩, ?_, ?_, ?_⟩
  · exact List.forall_mem_cons.2 ⟨htext _, List.forall_mem_singleton.2 (htext _)⟩
  · refine List.forall_mem_cons.2 ⟨?_, List.forall_mem_singleton.2 ?_⟩
    · exact List.forall_mem_singleton.2 (.name .item _)
    · exact List.forall_mem_singleton.2 (.name .item _)
  · rintro member name ⟨types, hmember, t, ht, hstands⟩
    simp only [numbered, RawNode.members, List.map_cons, List.map_nil, List.mem_cons, Prod.mk.injEq,
      List.not_mem_nil, or_false] at hmember
    obtain ⟨-, rfl⟩ | ⟨-, rfl⟩ := hmember
    · obtain rfl := List.mem_singleton.1 ht
      exact hitem name _ hstands ▸ htruth
    · obtain rfl := List.mem_singleton.1 ht
      exact hitem name _ hstands ▸ htext "Leaf"

/-- The second struct is joined with the first. -/
theorem validate_declares_respelled :
    ∃ last : World, (ofMade [numbered, truthful] []).Declares (fun _ => True) last ∧
      last.nodes = [numbered.placed 0] ∧
      ∃ tokens stored, last.store.view = ofRaw tokens stored ∧
        validate last.store.view.toValue = .ok (Report.ofProblems (Problem.within stored),
          .validated stored.length (Problem.within stored).length) := by
  let last := ofMade [numbered.withFlags [.text "on"], truthful] [numbered.placed 0]
  have hfirst : (ofMade [numbered, truthful] []).Declares (fun _ => True)
      (ofMade [numbered, truthful] [numbered.placed 0]) :=
    .add .start List.mem_cons_self trivial ⟨rfl, rfl⟩
  have hrun : (ofMade [numbered, truthful] []).Declares (fun _ => True) last :=
    hfirst.add (List.mem_cons_of_mem _ List.mem_cons_self) trivial ⟨rfl, rfl⟩
  have hfixed : ∀ r ∈ last.nodes, r.ident.isGateFree := List.forall_mem_singleton.2 rfl
  have hregular : ∀ r ∈ last.nodes, ∃ n : RawNode, n.Regular ∧ n.toGated = r.look last.heap :=
    List.forall_mem_singleton.2 ⟨_, regular_numbered.withFlags [.text "on"], rfl⟩
  obtain ⟨tokens, stored, hview, hvalidate, -⟩ := validate_declares rfl hrun hfixed hregular
  exact ⟨last, hrun, rfl, tokens, stored, hview, hvalidate⟩

/-! ### Items within names, and idents that hold nodes -/

/-- A struct whose field has an item with an item for its name. -/
def itemNamed : RawNode :=
  .struct (.text "S") [] [(.text "f", .item (.item (.text "X")))] (.bool true)

/-- Two structs of one ident. -/
def narrow : NodeRef := (RawNode.bare (.text "A") full).placed 0

def broad : NodeRef := (RawNode.bare (.text "A") wide).placed 1

/-- Each of them is the ident of another struct. -/
def ofNarrow : NodeRef := (RawNode.bare narrow.toValue []).placed 2

def ofBroad : NodeRef := (RawNode.bare broad.toValue []).placed 3

def twins (flags : List Value) : List RawNode :=
  [.bare (.text "A") flags, .bare (.text "A") wide, .bare narrow.toValue [], .bare broad.toValue []]

/-- The second struct is joined with the first when their idents are held already. -/
theorem declares_twins : (ofMade (twins full) []).Declares (fun _ => True)
    (ofMade (twins wide) [narrow, ofNarrow, ofBroad]) := by
  let w := ofMade (twins full) []
  have hmade : [Made.node narrow, .node broad, .node ofNarrow, .node ofBroad] ⊆ w.made := by
    simp [w, ofMade, twins, narrow, broad, ofNarrow, ofBroad, RawNode.bare]
  simp only [List.cons_subset, List.nil_subset, and_true] at hmade
  obtain ⟨hnarrow, hbroad, hofNarrow, hofBroad⟩ := hmade
  have hone : w.Declares (fun _ => True) (ofMade (twins full) [narrow]) :=
    .add .start hnarrow trivial ⟨rfl, rfl⟩
  have htwo : w.Declares (fun _ => True) (ofMade (twins full) [narrow, ofNarrow]) :=
    hone.add hofNarrow trivial ⟨rfl, rfl⟩
  have hthree : w.Declares (fun _ => True) (ofMade (twins full) [narrow, ofNarrow, ofBroad]) :=
    htwo.add hofBroad trivial ⟨rfl, rfl⟩
  exact hthree.add hbroad trivial ⟨rfl, rfl⟩

/-- An item within a name is not looked up, as the walk over a type does not go into names; and
idents that hold nodes are equal once these are joined. -/
theorem validate_disagrees :
    (∃ last : World, (ofMade [itemNamed] []).Declares (fun _ => True) last ∧
      (∃ e, last.store.view.resolve (.text "X") = .error e ∧ e.kind = .missing) ∧
      ∃ problem, validate last.store.view.toValue =
          .ok (Report.ofProblems [problem], .validated 1 1) ∧
        ¬ Problem.Names (.text "X") problem) ∧
    ∃ last : World, (ofMade (twins full) []).Declares (fun _ => True) last ∧
      ∃ ident, validate last.store.view.toValue =
        .ok (Report.ofProblems [Problem.duplicate (.text "definitions") ident 2],
          .validated 3 1) := by
  refine ⟨?_, _, declares_twins, _, rfl⟩
  have hrun : (ofMade [itemNamed] []).Declares (fun _ => True)
      (ofMade [itemNamed] [itemNamed.placed 0]) :=
    .add .start List.mem_cons_self trivial ⟨rfl, rfl⟩
  refine ⟨_, hrun, ⟨_, rfl, rfl⟩,
    Problem.unresolved "S.f" (.item (.text "X")) [.text "S"], rfl, ?_⟩
  rw [Problem.names_unresolved_iff]
  simp [Value.equal, Value.item, Value.same]

end World

end AstSchema
