import AstSchema.Proofs.JoinOrder
import AstSchema.Proofs.Mutation

/-! Repeating declarations that were accepted before. The stored node covers each of them from then
on: what is joined with it later only covers more. So they are accepted again, in any order and any
number of times, and no more than the spelling of flags changes. -/
namespace AstSchema

namespace GatedNode

/-- A node but for how flags are written: as many of them, and the same ones. Other fields can hold
nodes, which have their own flags. -/
structure Respelled (old new : GatedNode) : Prop where
  cls_eq : new.cls = old.cls
  field?_eq : ∀ name value, name ≠ "features" → old.toValue.field? name = some value →
    value.isGateFree → new.toValue.field? name = some value
  flags : Features.Alike new.flags old.flags

/-- An ident that can be found again, and flags that can: none of them is a NaN, and no mapping in
them has a key twice. As the ident holds no nodes, it looks the same whatever is joined. -/
structure Findable (n : GatedNode) : Prop where
  ident : n.ident.Keyed ∧ n.ident.isNaN = false
  fixed : n.ident.isGateFree
  flags : ∀ f ∈ n.flags, f.Keyed ∧ f.isNaN = false

end GatedNode

namespace World

variable {w w' : World} {call : Call} {failure? : Option Error} {n : GatedNode} {r : NodeRef}

/-- The first stored node of an ident. -/
def named? (w : World) (ident : Value) : Option NodeRef :=
  w.nodes.find? fun r => (w.heap.view r.ident).equal ident

/-- The first stored node of an equal ident is of the same class, and its flags cover those of the
node. -/
def Covered (w : World) (n : GatedNode) : Prop :=
  ∃ r, w.named? n.ident = some r ∧ r.cls = n.cls ∧
    Features.Covers (w.heap.flags r.address) n.flags

/-! ## What is covered stays covered -/

/-- Nodes are added at the end only, and what the flags of a stored one cover they go on to
cover. -/
structure Grows (w w' : World) : Prop where
  nodes_prefix : w.nodes <+: w'.nodes
  covers : ∀ r ∈ w.nodes, ∀ flags, Features.Covers (w.heap.flags r.address) flags →
    Features.Covers (w'.heap.flags r.address) flags

theorem named?_of_prefix (hnodes : w.nodes <+: w'.nodes) {ident : Value} (hident : ident.isGateFree)
    (hnamed : w.named? ident = some r) : w'.named? ident = some r := by
  obtain ⟨new, hnew⟩ := hnodes
  have hlooks : (fun r : NodeRef => (w'.heap.view r.ident).equal ident) =
      fun r => (w.heap.view r.ident).equal ident :=
    funext fun r => Heap.equal_view_of_isGateFree r.ident hident
  unfold named? at hnamed ⊢
  rw [hlooks, ← hnew, List.find?_append, hnamed, Option.some_or]

theorem Covered.of_grows (h : w.Covered n) (hfixed : n.ident.isGateFree) (hgrows : w.Grows w') :
    w'.Covered n := by
  obtain ⟨r, hnamed, hcls, hcovers⟩ := h
  refine ⟨r, named?_of_prefix hgrows.nodes_prefix hfixed hnamed, hcls, ?_⟩
  exact hgrows.covers r (List.mem_of_find?_eq_some hnamed) _ hcovers

theorem Owned.flags_of_makes (ho : w.Owned) (h : w.Makes w') {o : Made} (hmade : o ∈ w.made) :
    w'.heap.flags o.address = w.heap.flags o.address := by
  obtain ⟨_, _, rfl, -, -⟩ := h.exists_placed
  exact w.heap.flags_append _ (ho.placed o hmade)

theorem Makes.grows (h : w.Makes w') (ho : w.Owned) : w.Grows w' where
  nodes_prefix := h.nodes_eq ▸ List.prefix_rfl
  covers r hr flags hcovers := by
    have hkept : w'.heap.flags r.address = w.heap.flags r.address :=
      ho.flags_of_makes h (ho.stored r hr)
    rwa [hkept]

/-- What a join gives covers all that mine covered. -/
theorem Change.grows (h : w.Change call w' failure?) (ho : w.Owned) : w.Grows w' := by
  cases h with
  | appended => exact ⟨List.prefix_append .., fun _ _ _ hcovers => hcovers⟩
  | @joined r flags hstored _ hjoin =>
    have hr := ho.mem_of_declared? hstored
    refine ⟨List.prefix_rfl, fun s hs theirs hcovers => ?_⟩
    change Features.Covers ((w.heap.write r.address flags).flags s.address) theirs
    by_cases hsr : s = r
    · subst hsr
      rw [ho.flags_write hr]
      obtain ⟨hmore, rfl⟩ | ⟨-, -, rfl⟩ := Features.join_eq_ok_iff.1 hjoin
      · exact hmore.trans hcovers
      · exact hcovers
    · have hkept : (w.heap.write r.address flags).flags s.address = w.heap.flags s.address :=
        (ho.frame_write hr flags).stored s hs hsr
      rwa [hkept]
  | refused => exact ⟨List.prefix_rfl, fun _ _ _ hcovers => hcovers⟩

/-- What was accepted is covered. -/
theorem Change.covered (h : w.Change (.add r) w' none) (ho : w.Owned)
    (hr : (r.look w.heap).Findable) : w'.Covered (r.look w.heap) := by
  cases h with
  | appended hnew =>
    refine ⟨r, ?_, rfl, .refl hr.flags⟩
    have hself : (w.heap.view r.ident).equal (r.look w.heap).ident :=
      Value.equal_refl hr.ident.1 hr.ident.2
    have hnone : w.named? (r.look w.heap).ident = none := hnew
    unfold named? at hnone ⊢
    rw [Call.appended, List.find?_append, hnone, Option.none_or, List.find?_singleton, if_pos hself]
  | @joined s flags hstored hfit hjoin =>
    have hnamed : w.named? (r.look w.heap).ident = some s := hstored
    have hkept : Grows w { w with heap := w.heap.write s.address flags } :=
      (Change.joined hstored hfit hjoin).grows ho
    refine ⟨s, named?_of_prefix hkept.nodes_prefix hr.fixed hnamed, ?_, ?_⟩
    · simpa [Call.look, Definitions.Call.unfit?, NodeRef.look] using hfit
    · change Features.Covers ((w.heap.write s.address flags).flags s.address) _
      rw [ho.flags_write (ho.mem_of_declared? hstored)]
      obtain ⟨-, rfl⟩ | ⟨-, hcovers, rfl⟩ := Features.join_eq_ok_iff.1 hjoin
      · exact .refl hr.flags
      · exact hcovers

/-! ## What is covered is accepted -/

/-- The same nodes are stored, and all that was made has the flags it had, but for how they are
written. -/
structure Respells (w w' : World) : Prop where
  nodes_eq : w'.nodes = w.nodes
  made_subset : w.made ⊆ w'.made
  flags : ∀ o ∈ w.made, Features.Alike (w'.heap.flags o.address) (w.heap.flags o.address)

theorem Respells.refl (w : World) : w.Respells w := ⟨rfl, fun _ h => h, fun _ _ => .refl _⟩

theorem Respells.trans {mid last : World} (h : w.Respells mid) (h' : mid.Respells last) :
    w.Respells last where
  nodes_eq := h'.nodes_eq.trans h.nodes_eq
  made_subset := fun _ ho => h'.made_subset (h.made_subset ho)
  flags o ho := (h'.flags o (h.made_subset ho)).trans (h.flags o ho)

theorem Makes.respells (h : w.Makes w') (ho : w.Owned) : w.Respells w' where
  nodes_eq := h.nodes_eq
  made_subset := by
    obtain ⟨_, _, rfl, -, -⟩ := h.exists_placed
    exact List.subset_append_left ..
  flags o hmade := by
    rw [ho.flags_of_makes h hmade]
    exact .refl _

/-- A node that was stored looks as it did. -/
theorem Respells.look (h : w.Respells w') (hr : .node r ∈ w.made) :
    (r.look w.heap).Respelled (r.look w'.heap) where
  cls_eq := rfl
  field?_eq name value _ hvalue hfixed := by
    have hfield (h : Heap) : (r.look h).toValue.field? name = (r.toValue.field? name).map h.view :=
      Value.field?_map ..
    rw [hfield, Option.map_eq_some_iff] at hvalue ⊢
    obtain ⟨held, hheld, rfl⟩ := hvalue
    exact ⟨held, hheld, (Heap.view_eq_of_isGateFree hfixed).symm⟩
  flags := h.flags (.node r) hr

/-- What looks like a node that is covered can be joined with the stored one, which keeps its
flags. -/
theorem Covered.exists_join (h : w.Covered (r.look w.heap)) :
    ∃ s flags, w.declared? (.add r) = some s ∧
      (Call.look w.heap (.add r)).unfit? (s.look w.heap) = none ∧
      Features.join (w.heap.flags s.address) (Call.look w.heap (.add r)).flags = .ok flags ∧
      Features.Alike flags (w.heap.flags s.address) := by
  obtain ⟨s, hnamed, hcls, hcovers⟩ := h
  obtain ⟨flags, hflags, hlength, hcontains⟩ := Features.exists_join_of_covers hcovers
  exact ⟨s, flags, hnamed, if_pos hcls, hflags, hlength, fun flag => by rw [hcontains]⟩

theorem Covered.accepted (hcovered : w.Covered (r.look w.heap))
    (h : w.Change (.add r) w' failure?) (ho : w.Owned) : failure? = none ∧ w.Respells w' := by
  obtain ⟨s, flags, hdeclared, hfit, hflags, halike⟩ := hcovered.exists_join
  have haccepted := (Change.joined hdeclared hfit hflags).kind_eq
  cases h with
  | appended hnew => simp [hdeclared] at hnew
  | @joined t joined hstored _ hjoin =>
    obtain rfl := Option.some.inj (hdeclared.symm.trans hstored)
    obtain rfl := Except.ok.inj (hflags.symm.trans hjoin)
    have hs := ho.mem_of_declared? hstored
    refine ⟨rfl, rfl, fun _ h => h, fun o hmade => ?_⟩
    change Features.Alike ((w.heap.write s.address flags).flags o.address) _
    by_cases hos : o = .node s
    · subst hos
      rwa [Made.address, ho.flags_write hs]
    · have hkept : (w.heap.write s.address flags).flags o.address = w.heap.flags o.address :=
        (ho.frame_write hs flags).made o hmade hos
      rw [hkept]
      exact .refl _
  | refused hkind => simp [← haccepted] at hkind

/-! ## Runs -/

/-- Nodes are made and declared, and each declaration is accepted. What was passed is kept as it
looked then. -/
inductive Accepts (w : World) : List GatedNode → World → Prop
  | start : Accepts w [] w
  | make {passed : List GatedNode} {mid last : World} (h : Accepts w passed mid)
      (hmakes : mid.Makes last) : Accepts w passed last
  | add {passed : List GatedNode} {mid last : World} {r : NodeRef} (h : Accepts w passed mid)
      (hr : .node r ∈ mid.made) (hadd : mid.Performs (.add r) last none) :
      Accepts w (r.look mid.heap :: passed) last

/-- Nodes are made, and those that look like one that was passed are declared, with whatever
result. -/
abbrev Replays (passed : List GatedNode) : World → World → Prop := Declares (· ∈ passed)

variable {passed : List GatedNode} {last : World}

theorem Accepts.covered (h : w.Accepts passed last) (hw : w.Reached)
    (hpassed : ∀ n ∈ passed, n.Findable) : last.Reached ∧ ∀ n ∈ passed, last.Covered n := by
  induction h with
  | start => exact ⟨hw, by simp⟩
  | make _ hmakes ih =>
    obtain ⟨hmid, hcovered⟩ := ih hpassed
    refine ⟨hmid.make hmakes, fun n hn => ?_⟩
    exact (hcovered n hn).of_grows (hpassed n hn).fixed (hmakes.grows hmid.owned)
  | add _ hr hadd ih =>
    obtain ⟨hnode, hrest⟩ := List.forall_mem_cons.1 hpassed
    obtain ⟨hmid, hcovered⟩ := ih hrest
    have hchange := hadd.change
    refine ⟨hchange.reached hmid hr, List.forall_mem_cons.2 ⟨?_, fun n hn => ?_⟩⟩
    · exact hchange.covered hmid.owned hnode
    · exact (hcovered n hn).of_grows (hrest n hn).fixed (hchange.grows hmid.owned)

theorem Replays.respells (h : w.Replays passed last) (hw : w.Reached)
    (hpassed : ∀ n ∈ passed, n.Findable) (hcovered : ∀ n ∈ passed, w.Covered n) :
    last.Reached ∧ (∀ n ∈ passed, last.Covered n) ∧ w.Respells last := by
  induction h with
  | start => exact ⟨hw, hcovered, .refl w⟩
  | make _ hmakes ih =>
    obtain ⟨hmid, hmidCovered, hkept⟩ := ih
    refine ⟨hmid.make hmakes, fun n hn => ?_, hkept.trans (hmakes.respells hmid.owned)⟩
    exact (hmidCovered n hn).of_grows (hpassed n hn).fixed (hmakes.grows hmid.owned)
  | add _ hr hcopy hadd ih =>
    obtain ⟨hmid, hmidCovered, hkept⟩ := ih
    have hchange := hadd.change
    obtain ⟨-, hrespells⟩ := (hmidCovered _ hcopy).accepted hchange hmid.owned
    refine ⟨hchange.reached hmid hr, fun n hn => ?_, hkept.trans hrespells⟩
    exact (hmidCovered n hn).of_grows (hpassed n hn).fixed (hchange.grows hmid.owned)

/-- Whatever was made and stored, once some nodes were accepted their copies are accepted again, in
any order and any number of times and with any others made in between: the same nodes stay stored,
and no more than the spelling of their flags changes. -/
theorem replays_accepted {v : World} (hw : w.Reached) (hpassed : ∀ n ∈ passed, n.Findable)
    (haccepts : w.Accepts passed last) (hreplays : last.Replays passed v) :
    (∀ r : NodeRef, .node r ∈ v.made → r.look v.heap ∈ passed →
      ∃ v' : World, v.Performs (.add r) v' none) ∧
    v.nodes = last.nodes ∧
    (∀ r ∈ last.nodes, (r.look last.heap).Respelled (r.look v.heap)) ∧
    ∀ o ∈ last.made, Features.Alike (v.heap.flags o.address) (last.heap.flags o.address) := by
  obtain ⟨hlast, hcovered⟩ := haccepts.covered hw hpassed
  obtain ⟨hv, hvCovered, hkept⟩ := hreplays.respells hlast hpassed hcovered
  refine ⟨fun r _ hcopy => ?_, hkept.nodes_eq, fun r hr => ?_, hkept.flags⟩
  · obtain ⟨v', failure?, hperforms, hchange⟩ := v.exists_performs (.add r)
    obtain ⟨rfl, -⟩ := (hvCovered _ hcopy).accepted hchange hv.owned
    exact ⟨v', hperforms⟩
  · exact hkept.look (hlast.owned.stored r hr)

/-! ### Repeated flags -/

theorem findable_placed {h : Heap} {n : RawNode} {address : Nat} {ident : String}
    {flags : List String} (hident : n.ident = .text ident)
    (hflags : h.flags address = flags.map .text) : ((n.placed address).look h).Findable := by
  have hlook : ((n.placed address).look h).ident = .text ident := by
    change h.view n.ident = _
    rw [hident]
    rfl
  refine ⟨hlook ▸ ⟨.scalar _, rfl⟩, hlook ▸ rfl, ?_⟩
  change ∀ f ∈ h.flags address, f.Keyed ∧ f.isNaN = false
  rw [hflags]
  exact List.forall_mem_map.2 fun _ _ => ⟨.scalar _, rfl⟩

/-- One of the flags comes twice. -/
def uneven : RawNode := .bare (.text "A") (["f", "g", "f"].map .text)

def even : RawNode := .bare (.text "A") (["g", "f"].map .text)

/-- A longer list may have fewer flags: it covers the shorter one only because it has its flags. -/
theorem replays_accepted_uneven :
    ∃ passed last v v', (ofMade [uneven, even] []).Accepts passed last ∧ last.Replays passed v ∧
      v.Performs (.add (even.placed 2)) v' none ∧ v.nodes = last.nodes := by
  let w := ofMade [uneven, even] []
  let passed := [(even.placed 1).look w.heap, (uneven.placed 0).look w.heap]
  let stored := ofMade [uneven, even] [uneven.placed 0]
  let copied := ofMade ([uneven, even] ++ [even]) [uneven.placed 0]
  have hfirst : w.Accepts [(uneven.placed 0).look w.heap] stored :=
    .add .start List.mem_cons_self ⟨rfl, rfl⟩
  have haccepts : w.Accepts passed stored :=
    hfirst.add (List.mem_cons_of_mem _ List.mem_cons_self) ⟨rfl, rfl⟩
  have hreplays : stored.Replays passed copied :=
    .make .start (makes_ofMade _ _ (by decide) (by decide))
  have hpassed : ∀ n ∈ passed, n.Findable :=
    List.forall_mem_cons.2
      ⟨findable_placed rfl rfl, List.forall_mem_singleton.2 (findable_placed rfl rfl)⟩
  obtain ⟨haccepted, hnodes, -⟩ :=
    replays_accepted (reached_ofMade (by decide) (by simp)) hpassed haccepts hreplays
  obtain ⟨v', hv'⟩ := haccepted (even.placed 2)
    (List.mem_cons_of_mem _ (List.mem_cons_of_mem _ List.mem_cons_self)) List.mem_cons_self
  exact ⟨passed, stored, copied, v', haccepts, hreplays, hv', hnodes⟩

/-! ### Idents that are not found again, and fields that hold nodes -/

/-- Somewhere declarations that were accepted and their repetition leave this behind. -/
def SomeReplay (w : World) (P : World → World → Prop) : Prop :=
  w.Reached ∧ ∃ passed last v, w.Accepts passed last ∧ last.Replays passed v ∧ P last v

/-- A struct with a NaN for its ident. -/
def nameless : RawNode := .bare (.scalar (.float .nan)) []

/-- A copy of a node with a NaN for its ident is stored beside it. -/
theorem replays_nameless : (ofMade [nameless] []).SomeReplay fun last v =>
    last.nodes.length = 1 ∧ v.nodes.length = 2 := by
  let passed := [(nameless.placed 0).look ⟨[[]]⟩]
  let last := ofMade [nameless] [nameless.placed 0]
  have haccepts : (ofMade [nameless] []).Accepts passed last :=
    .add .start List.mem_cons_self ⟨rfl, rfl⟩
  have hcopied : last.Replays passed (ofMade [nameless, nameless] [nameless.placed 0]) :=
    .make .start (makes_ofMade _ _ (by decide) (by decide))
  exact ⟨reached_ofMade (by decide) (by simp), passed, last,
    ofMade [nameless, nameless] [nameless.placed 0, nameless.placed 1], haccepts,
    hcopied.add (List.mem_cons_of_mem _ List.mem_cons_self) List.mem_cons_self ⟨rfl, rfl⟩, rfl, rfl⟩

/-- The first of two structs of one ident. -/
def inner : NodeRef := (RawNode.bare (.text "A") []).placed 0

/-- A struct that has the other for its ident. -/
def outer : NodeRef := (RawNode.bare inner.toValue []).placed 1

def nested (flags more : List Value) : List RawNode :=
  [.bare (.text "A") flags, .bare inner.toValue [], .bare (.text "A") more]

/-- The ident of a stored node is not what it was once the node in it was joined, so that a copy of
it is stored, too. -/
theorem replays_nested_ident : (ofMade (nested full wide) []).SomeReplay fun last v =>
    last.nodes.length = 2 ∧ v.nodes.length = 3 := by
  let w := ofMade (nested full wide) []
  let held := ofMade (nested full wide) [inner]
  let both := ofMade (nested full wide) [inner, outer]
  let joined := ofMade (nested wide wide) [inner, outer]
  let more := (RawNode.bare (.text "A") wide).placed 2
  let passed := [more.look both.heap, outer.look held.heap, inner.look w.heap]
  let inner' := (RawNode.bare (.text "A") full).placed 3
  let outer' := (RawNode.bare inner'.toValue []).placed 4
  let copied := ofMade (nested wide wide ++ [.bare (.text "A") full]) [inner, outer]
  let twice := ofMade (nested wide wide ++ [.bare (.text "A") full] ++ [.bare inner'.toValue []])
    [inner, outer]
  have hinner : w.Accepts [inner.look w.heap] held := .add .start List.mem_cons_self ⟨rfl, rfl⟩
  have houter : w.Accepts [outer.look held.heap, inner.look w.heap] both :=
    hinner.add (List.mem_cons_of_mem _ List.mem_cons_self) ⟨rfl, rfl⟩
  have haccepts : w.Accepts passed joined :=
    houter.add (List.mem_cons_of_mem _ (List.mem_cons_of_mem _ List.mem_cons_self)) ⟨rfl, rfl⟩
  have hcopied : joined.Replays passed copied :=
    .make .start (makes_ofMade _ _ (by decide) (by decide))
  have htwice : joined.Replays passed twice :=
    hcopied.make (makes_ofMade _ _ (by decide) (by decide))
  have hmade : Made.node outer' ∈ twice.made := by simp [twice, ofMade, outer', nested]
  have hcopy : outer'.look twice.heap ∈ passed :=
    List.mem_cons_of_mem _ (List.mem_cons.2 (.inl rfl))
  exact ⟨reached_ofMade (by decide) (by simp), passed, joined,
    { twice with nodes := [inner, outer, outer'] }, haccepts, htwice.add hmade hcopy ⟨rfl, rfl⟩,
    rfl, rfl⟩

/-- Where a field holds a node, a copy of that one respells its flags there, too. -/
theorem replays_nested_field :
    (ofMade (nested wide wide.reverse) [outer]).SomeReplay fun last v => outer ∈ last.nodes ∧
      (last.heap.view outer.ident).equal (v.heap.view outer.ident) = false := by
  let w := ofMade (nested wide wide.reverse) [outer]
  let held := ofMade (nested wide wide.reverse) [outer, inner]
  let joined := ofMade (nested wide.reverse wide.reverse) [outer, inner]
  let more := (RawNode.bare (.text "A") wide.reverse).placed 2
  let passed := [more.look held.heap, inner.look w.heap]
  let inner' := (RawNode.bare (.text "A") wide).placed 3
  let copied := ofMade (nested wide.reverse wide.reverse ++ [.bare (.text "A") wide]) [outer, inner]
  have hinner : w.Accepts [inner.look w.heap] held := .add .start List.mem_cons_self ⟨rfl, rfl⟩
  have haccepts : w.Accepts passed joined :=
    hinner.add (List.mem_cons_of_mem _ (List.mem_cons_of_mem _ List.mem_cons_self)) ⟨rfl, rfl⟩
  have hcopied : joined.Replays passed copied :=
    .make .start (makes_ofMade _ _ (by decide) (by decide))
  have hmade : Made.node inner' ∈ copied.made := by simp [copied, ofMade, inner', nested]
  have hcopy : inner'.look copied.heap ∈ passed :=
    List.mem_cons_of_mem _ (List.mem_cons.2 (.inl rfl))
  have hstored : ∀ r ∈ [outer], .node r ∈ (ofMade (nested wide wide.reverse) []).made := by
    simp [ofMade, nested, outer]
  exact ⟨reached_ofMade (by decide) hstored, passed, joined,
    { copied with heap := copied.heap.write 0 wide }, haccepts, hcopied.add hmade hcopy ⟨rfl, rfl⟩,
    List.mem_cons_self, rfl⟩

/-- Without idents that can be found again copies are stored beside what is there, and fields that
hold nodes do not look as they did. -/
theorem replays_changed :
    ((ofMade [nameless] []).SomeReplay fun last v =>
      last.nodes.length = 1 ∧ v.nodes.length = 2) ∧
    ((ofMade (nested full wide) []).SomeReplay fun last v =>
      last.nodes.length = 2 ∧ v.nodes.length = 3) ∧
    (ofMade (nested wide wide.reverse) [outer]).SomeReplay fun last v => outer ∈ last.nodes ∧
      (last.heap.view outer.ident).equal (v.heap.view outer.ident) = false :=
  ⟨replays_nameless, replays_nested_ident, replays_nested_field⟩

end World

end AstSchema
