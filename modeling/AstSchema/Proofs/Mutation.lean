import AstSchema.Proofs.Consolidation
import AstSchema.Proofs.Gates
import AstSchema.Proofs.Ownership
import AstSchema.Store

/-! Calls that can change definitions. Whatever is stored, with idents repeated or not and the same
node in several places or within others, a call reaches one node at most, the first whose ident
equals that of the call, and changes no more of it than its gates. As no other node has those, and
no gates that were given away are those, nothing else that was made changes with it. -/
namespace AstSchema

namespace GatedNode

/-- Messages have a name for the kind of the node: a field of its own, or the tag of its class. -/
def hasTag (n : GatedNode) : Bool := (n.toValue.field? "tag").isSome || n.cls.tag?.isSome

theorem tagOf_eq (n : GatedNode) :
    (n.hasTag → ∃ tag, Definitions.tagOf n.toValue = .ok tag) ∧
      (¬ n.hasTag → Definitions.tagOf n.toValue = .error .noAttribute) := by
  unfold hasTag Definitions.tagOf
  cases hown : n.toValue.field? "tag" with
  | some own => simp
  | none =>
    obtain ⟨⟨name, home, role, tag?, specs⟩, fields, ident, flags, -, -, -, -⟩ := n
    cases tag? <;> simp [toValue]

/-- How a declaration fails that is of another class than the stored node. -/
def mismatch (stored node : GatedNode) : ErrorKind :=
  if stored.hasTag && node.hasTag then .invalid else .noAttribute

theorem exists_mismatch (stored node : GatedNode) : ∃ e : Error,
    (do .error (.kindsDiffer node.ident (← Definitions.tagOf stored.toValue)
      (← Definitions.tagOf node.toValue)) : Except Error Receipt) = .error e ∧
    e.kind = mismatch stored node := by
  obtain ⟨hstored, hstored'⟩ := stored.tagOf_eq
  obtain ⟨hnode, hnode'⟩ := node.tagOf_eq
  unfold mismatch
  by_cases h : stored.hasTag
  · obtain ⟨theirs, htheirs⟩ := hstored h
    by_cases h' : node.hasTag
    · obtain ⟨mine, hmine⟩ := hnode h'
      exact ⟨_, by rw [htheirs, hmine]; rfl, by simp [h, h', Error.kind]⟩
    · exact ⟨_, by rw [htheirs, hnode' h']; rfl, by simp [h', Error.kind]⟩
  · exact ⟨_, by rw [hstored' h]; rfl, by simp [h, Error.kind]⟩

end GatedNode

namespace Definitions

/-! ## How a call is received -/

/-- A declaration, or flags to join with the gates of the node that an ident resolves to. -/
inductive Call where
  | add (node : GatedNode)
  | join (ident : Value) (flags : List Value)

def receiveCall (d : Definitions) : Call → Except Error Receipt
  | .add node => d.receive node.toValue
  | .join ident flags => do return .joined (← d.receiveFlags ident (.list flags)) (.ok none)

namespace Call

def ident : Call → Value
  | .add node => node.ident
  | .join ident _ => ident

def flags : Call → List Value
  | .add node => node.flags
  | .join _ flags => flags

/-- The first node with an ident that equals that of the call. -/
def declared? (call : Call) (nodes : List GatedNode) : Option GatedNode :=
  nodes.find? (·.ident.equal call.ident)

/-- How a call fails whose ident is new. -/
def unfound? : Call → Option ErrorKind
  | .add _ => none
  | .join .. => some .missing

/-- How a call fails that cannot concern the stored node: a declaration has to be of its class. -/
def unfit? : Call → GatedNode → Option ErrorKind
  | .add node, stored => if stored.cls = node.cls then none else some (stored.mismatch node)
  | .join .., _ => none

def conflict? (mine theirs : List Value) : Option ErrorKind :=
  match Features.join mine theirs with
  | .ok _ => none
  | .error _ => some .conflict

/-- How a call fails, if it does. -/
def verdict? (call : Call) (nodes : List GatedNode) : Option ErrorKind :=
  match call.declared? nodes with
  | none => call.unfound?
  | some stored => (call.unfit? stored).or (conflict? stored.flags call.flags)

/-- How a call is received by a row of nodes. -/
inductive Received (call : Call) (nodes : List GatedNode) : Except Error Receipt → Prop
  | appended (hnew : call.declared? nodes = none) (hfound : call.unfound? = none) :
      Received call nodes (.ok .appended)
  | joined {before after : List GatedNode} {stored : GatedNode} {flags : List Value}
      {event? : Option Event} (hnodes : nodes = before ++ stored :: after)
      (hbefore : ∀ n ∈ before, n.ident.equal call.ident = false)
      (hident : stored.ident.equal call.ident) (hfit : call.unfit? stored = none)
      (hjoin : Features.join stored.flags call.flags = .ok flags) :
      Received call nodes (.ok (.joined (joiningOf before stored flags) (.ok event?)))
  | refused {e : Error} (hkind : call.verdict? nodes = some e.kind) :
      Received call nodes (.error e)

end Call

section

variable (tokens : Value) {before nodes : List GatedNode} (after : List GatedNode)
  {stored : GatedNode} {ident : Value}

theorem receiveFlags_of_forall (flags : List Value) (h : ∀ n ∈ nodes, n.ident.equal ident = false) :
    (ofGated tokens nodes).receiveFlags ident (.list flags) =
      .error (.undeclared ident (nodes.map (·.ident))) := by
  rw [receiveFlags, resolve_gated_of_forall tokens h]
  rfl

theorem receiveFlags_append (flags : List Value)
    (hbefore : ∀ n ∈ before, n.ident.equal ident = false) (hident : stored.ident.equal ident) :
    (ofGated tokens (before ++ stored :: after)).receiveFlags ident (.list flags) =
      (Features.join stored.flags flags).map (joiningOf before stored) := by
  have hgates : canJoin (Features.toValue stored.flags) = true := rfl
  have hflags : Features.ofValue (.list flags) = .ok flags := rfl
  simp only [receiveFlags, resolve_gated_append tokens after hbefore hident,
    GatedNode.field_features, hgates, hflags, joinGates_toValue, bind, Except.bind]
  cases Features.join stored.flags flags <;> rfl

end

namespace Call

variable {call : Call} {before after : List GatedNode} {stored : GatedNode}

theorem declared?_append (hbefore : ∀ n ∈ before, n.ident.equal call.ident = false)
    (hident : stored.ident.equal call.ident) :
    call.declared? (before ++ stored :: after) = some stored :=
  List.find?_eq_some_iff_append.2 ⟨hident, before, after, rfl, by simpa using hbefore⟩

/-- A stored node is found by the call: it is joined with it, or the call is refused. -/
theorem received_append (tokens : Value)
    (hbefore : ∀ n ∈ before, n.ident.equal call.ident = false)
    (hident : stored.ident.equal call.ident) :
    call.Received (before ++ stored :: after)
      ((ofGated tokens (before ++ stored :: after)).receiveCall call) := by
  have hverdict : call.verdict? (before ++ stored :: after) =
      (call.unfit? stored).or (conflict? stored.flags call.flags) := by
    rw [verdict?, declared?_append hbefore hident]
  have hconflict : ∀ e, call.unfit? stored = none →
      Features.join stored.flags call.flags = .error e →
      call.Received (before ++ stored :: after) (.error e) := by
    intro e hfit hjoin
    refine .refused ?_
    rw [hverdict, hfit, Option.none_or, conflict?, hjoin, Features.join_eq_error hjoin, Error.kind]
  cases call with
  | add node =>
    by_cases hcls : stored.cls = node.cls
    · rw [receiveCall, receive_gated_of_cls_eq tokens after hbefore hident hcls]
      cases hjoin : Features.join stored.flags node.flags with
      | ok flags => exact .joined rfl hbefore hident (if_pos hcls) hjoin
      | error e => exact hconflict e (if_pos hcls) hjoin
    · obtain ⟨e, he, hkind⟩ := stored.exists_mismatch node
      rw [receiveCall, receive_gated_of_cls_ne tokens after hbefore hident hcls, he]
      exact .refused (by rw [hverdict, unfit?, if_neg hcls, hkind, Option.some_or])
  | join ident flags =>
    rw [receiveCall, @receiveFlags_append tokens before after stored ident flags hbefore hident]
    cases hjoin : Features.join stored.flags flags with
    | ok flags => exact .joined rfl hbefore hident rfl hjoin
    | error e => exact hconflict e rfl hjoin

theorem received (tokens : Value) (nodes : List GatedNode) (call : Call) :
    call.Received nodes ((ofGated tokens nodes).receiveCall call) := by
  cases hfind : call.declared? nodes with
  | none =>
    have hnew : ∀ n ∈ nodes, n.ident.equal call.ident = false := by simpa [declared?] using hfind
    cases call with
    | add node =>
      rw [receiveCall, receive_gated_of_forall tokens hnew]
      exact .appended hfind rfl
    | join ident flags =>
      rw [receiveCall, @receiveFlags_of_forall tokens nodes ident flags hnew]
      exact .refused (by rw [verdict?, hfind]; rfl)
  | some stored =>
    obtain ⟨hident, before, after, rfl, hbefore⟩ := List.find?_eq_some_iff_append.1 hfind
    exact received_append tokens (by simpa using hbefore) hident

end Call

end Definitions

/-! ## One call -/

/-- A node that is passed, or flags that are to be joined with the gates of a declared one. -/
inductive World.Call where
  | add (node : NodeRef)
  | join (ident : Value) (flags : List Value)

/-- The store after a call, and why it was refused. -/
def Store.perform (s : Store) : World.Call → Store × Option Error
  | .add node =>
    match s.add node.toValue with
    | .ok (next, _, .ok _) => (next, none)
    | .ok (next, _, .error e) => (next, some e)
    | .error e => (s, some e)
  | .join ident flags =>
    match s.joinFlags ident (.list flags) with
    | .ok next => (next, none)
    | .error e => (s, some e)

/-- The store after a run of calls: one that is refused does not end it. -/
def Store.performAll (s : Store) (calls : List World.Call) : Store :=
  calls.foldl (fun s call => (s.perform call).1) s

namespace World

namespace Call

def look (h : Heap) : Call → Definitions.Call
  | .add node => .add (node.look h)
  | .join ident flags => .join (h.view ident) (flags.map h.view)

/-- What a call leaves at the end if its ident is new. -/
def appended : Call → List NodeRef
  | .add node => [node]
  | .join .. => []

end Call

def store (w : World) : Store := ⟨w.heap, .list (w.nodes.map NodeRef.toValue), w.tokens⟩

/-- The stored nodes as they look. -/
def looks (w : World) : List GatedNode := w.nodes.map (·.look w.heap)

/-- The first stored node with an ident that equals that of the call. -/
def declared? (w : World) (call : Call) : Option NodeRef :=
  w.nodes.find? fun r => (w.heap.view r.ident).equal (call.look w.heap).ident

variable {w w' : World} {call : Call} {failure? : Option Error}

theorem view_store (w : World) : w.store.view = .ofGated (w.heap.view w.tokens) w.looks := by
  have hnodes : (w.nodes.map NodeRef.toValue).map w.heap.view = w.looks.map GatedNode.toValue := by
    rw [looks, List.map_map, List.map_map]
    exact List.map_congr_left fun r _ => r.view_toValue w.heap
  rw [Store.view, Definitions.ofGated, ← hnodes, ← Heap.viewItems_eq_map]
  rfl

theorem declared?_looks (w : World) (call : Call) :
    (call.look w.heap).declared? w.looks = (w.declared? call).map (·.look w.heap) :=
  List.find?_map ..

/-- What a call makes of a world, and why it may be refused. -/
inductive Change (w : World) (call : Call) : World → Option Error → Prop
  | appended (hnew : w.declared? call = none) (hfound : (call.look w.heap).unfound? = none) :
      Change w call { w with nodes := w.nodes ++ call.appended } none
  | joined {r : NodeRef} {flags : List Value} (hstored : w.declared? call = some r)
      (hfit : (call.look w.heap).unfit? (r.look w.heap) = none)
      (hjoin : Features.join (w.heap.flags r.address) (call.look w.heap).flags = .ok flags) :
      Change w call { w with heap := w.heap.write r.address flags } none
  | refused {e : Error} (hkind : (call.look w.heap).verdict? w.looks = some e.kind) :
      Change w call w (some e)

theorem nodes_opened_store (w : World) :
    w.store.opened.nodes = .ok (w.nodes.map NodeRef.toValue) := rfl

/-- The flags are written where the stored node has its gates. -/
theorem joined_store {before after : List NodeRef} {r : NodeRef}
    (hnodes : w.nodes = before ++ r :: after) (flags : List Value) :
    w.store.joined
        (Definitions.joiningOf (before.map (·.look w.heap)) (r.look w.heap) flags) =
      .ok { w with heap := w.heap.write r.address flags }.store := by
  have hnode : (w.nodes.map NodeRef.toValue)[(before.map (·.look w.heap)).length]? =
      some r.toValue := by
    rw [hnodes]
    simp
  have haddress : (r.toValue.field? "features").bind Value.address? = some r.address := by
    rw [NodeRef.toValue, r.hasGates]
    rfl
  simp only [Store.joined, nodes_opened_store, Definitions.joiningOf, hnode, haddress, bind,
    Except.bind]
  rfl

theorem follow_appended (w : World) (r : NodeRef) :
    w.store.follow r.toValue .appended =
      .ok ({ w with nodes := w.nodes ++ [r] }.store, w.nodes.length, .ok none) := by
  simp only [Store.follow, nodes_opened_store, bind, Except.bind]
  simp [store, Store.opened, Definitions.withNodes, Heap.opened, Value.address?, Value.withItems,
    pure, Except.pure]

theorem add_store (w : World) (r : NodeRef) :
    w.store.add r.toValue =
      (Definitions.ofGated (w.heap.view w.tokens) w.looks).receiveCall (.add (r.look w.heap)) >>=
        w.store.follow r.toValue := by
  have hview : w.store.heap.view r.toValue = (r.look w.heap).toValue := r.view_toValue w.heap
  rw [Store.add, view_store, hview, Definitions.receiveCall]

theorem joinFlags_store (w : World) (ident : Value) (flags : List Value) :
    w.store.joinFlags ident (.list flags) =
      (Definitions.ofGated (w.heap.view w.tokens) w.looks).receiveFlags (w.heap.view ident)
        (.list (flags.map w.heap.view)) >>= w.store.joined := by
  have hflags : w.store.heap.view (.list flags) = .list (flags.map w.heap.view) := by
    rw [Heap.view, Heap.viewItems_eq_map]
    rfl
  rw [Store.joinFlags, view_store, hflags]
  rfl

theorem change_appended (hnew : (call.look w.heap).declared? w.looks = none)
    (hfound : (call.look w.heap).unfound? = none) :
    w.Change call { w with nodes := w.nodes ++ call.appended } none := by
  rw [declared?_looks, Option.map_eq_none_iff] at hnew
  exact .appended hnew hfound

/-- What is joined is the first stored node of an equal ident, and it is joined where it has its
gates. -/
theorem exists_joined {before after : List GatedNode} {stored : GatedNode} {flags : List Value}
    (hlooks : w.looks = before ++ stored :: after)
    (hbefore : ∀ n ∈ before, n.ident.equal (call.look w.heap).ident = false)
    (hident : stored.ident.equal (call.look w.heap).ident)
    (hfit : (call.look w.heap).unfit? stored = none)
    (hjoin : Features.join stored.flags (call.look w.heap).flags = .ok flags) :
    ∃ w', w.store.joined (Definitions.joiningOf before stored flags) = .ok w'.store ∧
      w.Change call w' none := by
  obtain ⟨before', rest, hnodes, rfl, hrest⟩ := List.map_eq_append_iff.1 hlooks
  obtain ⟨r, after', rfl, rfl, rfl⟩ := List.map_eq_cons_iff.1 hrest
  have hstored : w.declared? call = some r := by
    refine List.find?_eq_some_iff_append.2 ⟨hident, before', after', hnodes, fun n hn => ?_⟩
    rw [Bool.not_eq_true']
    exact hbefore (n.look w.heap) (List.mem_map_of_mem hn)
  exact ⟨_, joined_store hnodes flags, .joined hstored hfit hjoin⟩

/-- Whatever is stored, a call does one of these things. -/
theorem exists_change (w : World) (call : Call) :
    ∃ w' failure?, w.store.perform call = (w'.store, failure?) ∧ w.Change call w' failure? := by
  have hreceived := (call.look w.heap).received (w.heap.view w.tokens) w.looks
  cases call with
  | add r =>
    rw [Store.perform, add_store]
    change Definitions.Call.Received _ _ (Definitions.receiveCall _ (.add (r.look w.heap)))
      at hreceived
    generalize Definitions.receiveCall _ (.add (r.look w.heap)) = receipt at hreceived
    cases hreceived with
    | appended hnew hfound =>
      refine ⟨_, none, ?_, change_appended hnew hfound⟩
      simp only [bind, Except.bind, follow_appended]
      rfl
    | joined hlooks hbefore hident hfit hjoin =>
      obtain ⟨w', hw', hchange⟩ := exists_joined hlooks hbefore hident hfit hjoin
      refine ⟨w', none, ?_, hchange⟩
      simp only [Store.follow, hw', bind, Except.bind, pure, Except.pure]
    | refused hkind => exact ⟨w, _, rfl, .refused hkind⟩
  | join ident flags =>
    rw [Store.perform, joinFlags_store]
    change Definitions.Call.Received _ _
      (Definitions.receiveCall _ (.join (w.heap.view ident) (flags.map w.heap.view))) at hreceived
    rw [Definitions.receiveCall] at hreceived
    generalize Definitions.receiveFlags _ _ _ = joining at hreceived
    cases joining with
    | error e =>
      obtain hkind : (Call.look w.heap (.join ident flags)).verdict? w.looks = some e.kind := by
        cases hreceived with
        | refused hkind => exact hkind
      exact ⟨w, some e, rfl, .refused hkind⟩
    | ok j =>
      cases hreceived with
      | joined hlooks hbefore hident hfit hjoin =>
        obtain ⟨w', hw', hchange⟩ := exists_joined hlooks hbefore hident hfit hjoin
        exact ⟨w', none, by simp only [hw', bind, Except.bind], hchange⟩

/-- The store is as a call leaves it, and nothing was made. -/
structure Performs (w : World) (call : Call) (w' : World) (failure? : Option Error) : Prop where
  perform_eq : w.store.perform call = (w'.store, failure?)
  made_eq : w'.made = w.made

/-- Nodes are made, and those that look like this are declared, whether they are accepted or not. -/
inductive Declares (allowed : GatedNode → Prop) (w : World) : World → Prop
  | start : Declares allowed w w
  | make {mid last : World} (h : Declares allowed w mid) (hmakes : mid.Makes last) :
      Declares allowed w last
  | add {mid last : World} {r : NodeRef} {failure? : Option Error} (h : Declares allowed w mid)
      (hr : .node r ∈ mid.made) (hallowed : allowed (r.look mid.heap))
      (hadd : mid.Performs (.add r) last failure?) : Declares allowed w last

theorem eq_of_store_eq (hstore : w.store = w'.store) (hmade : w.made = w'.made) : w = w' := by
  obtain ⟨heap, made, nodes, tokens⟩ := w
  obtain ⟨heap', made', nodes', tokens'⟩ := w'
  obtain ⟨rfl, hdefinitions⟩ := Store.mk.inj hstore
  obtain ⟨htypes, rfl⟩ := Definitions.mk.inj hdefinitions
  obtain rfl : made = made' := hmade
  have hinjective : Function.Injective NodeRef.toValue := fun _ _ => NodeRef.toValue_injective
  obtain rfl := List.map_injective_iff.2 hinjective (Value.list.inj htypes)
  rfl

theorem exists_performs (w : World) (call : Call) :
    ∃ w' failure?, w.Performs call w' failure? ∧ w.Change call w' failure? := by
  obtain ⟨w', failure?, hperform, hchange⟩ := w.exists_change call
  refine ⟨w', failure?, ⟨hperform, ?_⟩, hchange⟩
  cases hchange <;> rfl

/-- The world after a call is the only one with its store. -/
theorem Performs.change (h : w.Performs call w' failure?) : w.Change call w' failure? := by
  obtain ⟨v, fault?, hperforms, hchange⟩ := w.exists_performs call
  obtain ⟨hstore, rfl⟩ := Prod.mk.inj (h.perform_eq.symm.trans hperforms.perform_eq)
  obtain rfl := eq_of_store_eq hstore (h.made_eq.trans hperforms.made_eq.symm)
  exact hchange

/-! ## What a call changes -/

/-- A node that is passed was made, and no gates are held in a flag. -/
def Allows (w : World) : Call → Prop
  | .add node => .node node ∈ w.made
  | .join _ flags => ∀ f ∈ flags, f.isGateFree

/-- Nothing but the gates of this node has changed: the same nodes are stored in the same order, all
else that was made has the flags it had, and so has what the node does not stand in. -/
structure Frame (r : NodeRef) (w w' : World) : Prop where
  nodes_eq : w'.nodes = w.nodes
  made : ∀ o ∈ w.made, o ≠ .node r → w'.heap.flags o.address = w.heap.flags o.address
  stored : ∀ s ∈ w.nodes, s ≠ r → w'.heap.flags s.address = w.heap.flags s.address
  view_eq : ∀ v : Value, r.address ∉ v.addresses → w'.heap.view v = w.heap.view v

theorem Owned.mem_of_declared? {r : NodeRef} (ho : w.Owned) (h : w.declared? call = some r) :
    .node r ∈ w.made :=
  ho.stored r (List.mem_of_find?_eq_some h)

theorem Frame.refl (r : NodeRef) (w : World) : Frame r w w :=
  ⟨rfl, fun _ _ _ => rfl, fun _ _ _ => rfl, fun _ _ => rfl⟩

theorem Owned.flags_write {r : NodeRef} (ho : w.Owned) (hr : .node r ∈ w.made)
    (flags : List Value) : (w.heap.write r.address flags).flags r.address = flags :=
  w.heap.flags_write_self flags (ho.placed (.node r) hr)

/-- Other gates are at other addresses. -/
theorem Owned.frame_write {r : NodeRef} (ho : w.Owned) (hr : .node r ∈ w.made)
    (flags : List Value) :
    Frame r w { w with heap := w.heap.write r.address flags } := by
  have hothers : ∀ o ∈ w.made, o ≠ .node r →
      (w.heap.write r.address flags).flags o.address = w.heap.flags o.address := by
    intro o hmade hne
    exact w.heap.flags_write_of_ne flags fun heq => hne (ho.eq_of_address_eq hmade hr heq)
  refine ⟨rfl, hothers, fun s hs hne => ?_, fun v hv => Heap.view_congr fun a ha => ?_⟩
  · exact hothers (.node s) (ho.stored s hs) fun heq => hne (Made.node.inj heq)
  · exact w.heap.flags_write_of_ne flags fun heq => hv (heq ▸ ha)

namespace Change

theorem made_eq (h : w.Change call w' failure?) : w'.made = w.made := by
  cases h <;> rfl

theorem tokens_eq (h : w.Change call w' failure?) : w'.tokens = w.tokens := by
  cases h <;> rfl

theorem eq_of_refused (h : w.Change call w' failure?) (hfails : failure? ≠ none) : w' = w := by
  cases h with
  | appended | joined => contradiction
  | refused => rfl

theorem kind_eq (h : w.Change call w' failure?) :
    failure?.map Error.kind = (call.look w.heap).verdict? w.looks := by
  cases h with
  | appended hnew hfound =>
    rw [Definitions.Call.verdict?, declared?_looks, hnew, Option.map_none, Option.map_none]
    exact hfound.symm
  | @joined r flags hstored hfit hjoin =>
    rw [Definitions.Call.verdict?, declared?_looks, hstored, Option.map_some, Option.map_none]
    have hflags : Features.join (r.look w.heap).flags (call.look w.heap).flags = .ok flags := hjoin
    simp only [hfit, Option.none_or, Definitions.Call.conflict?, hflags]
  | refused hkind => exact hkind.symm

theorem reached (h : w.Change call w' failure?) (hw : w.Reached) (hcall : w.Allows call) :
    w'.Reached := by
  have ho := hw.owned
  cases h with
  | appended =>
    refine hw.turn w.tokens (List.forall_mem_append.2 ⟨ho.stored, ?_⟩)
    cases call with
    | add node => exact List.forall_mem_singleton.2 hcall
    | join => simp [Call.appended]
  | @joined r flags hstored hfit hjoin =>
    have htheirs : ∀ f ∈ (call.look w.heap).flags, f.isGateFree := by
      cases call with
      | add node => exact ho.plain.flags node.address
      | join ident given =>
        refine List.forall_mem_map.2 fun f hf => ?_
        rw [Heap.view_of_isGateFree (hcall f hf)]
        exact hcall f hf
    have hplain : ∀ f ∈ flags, f.isGateFree := by
      obtain ⟨-, rfl⟩ | ⟨-, -, rfl⟩ := Features.join_eq_ok_iff.1 hjoin
      · exact htheirs
      · exact ho.plain.flags r.address
    exact hw.change (ho.mem_of_declared? hstored) hplain
  | refused => exact hw

theorem frame {r : NodeRef} (h : w.Change call w' failure?) (ho : w.Owned)
    (hdeclared : w.declared? call = some r) : Frame r w w' := by
  cases h with
  | appended hnew => simp [hdeclared] at hnew
  | joined hstored =>
    obtain rfl := Option.some.inj (hdeclared.symm.trans hstored)
    exact ho.frame_write (ho.mem_of_declared? hdeclared) _
  | refused => exact .refl r w

theorem join_eq {r : NodeRef} (h : w.Change call w' none) (ho : w.Owned)
    (hdeclared : w.declared? call = some r) :
    Features.join (w.heap.flags r.address) (call.look w.heap).flags =
      .ok (w'.heap.flags r.address) := by
  cases h with
  | appended hnew => simp [hdeclared] at hnew
  | joined hstored _ hjoin =>
    obtain rfl := Option.some.inj (hdeclared.symm.trans hstored)
    exact hjoin.trans (congrArg _ (ho.flags_write (ho.mem_of_declared? hdeclared) _).symm)

theorem eq_append (h : w.Change call w' failure?) (hnew : w.declared? call = none) :
    w' = { w with nodes := w.nodes ++ call.appended } := by
  cases h with
  | appended => rfl
  | joined hstored => simp [hnew] at hstored
  | refused hkind =>
    -- A declaration of a new ident is never refused, so this is no declaration.
    rw [Definitions.Call.verdict?, declared?_looks, hnew, Option.map_none] at hkind
    cases call with
    | add => contradiction
    | join => rw [Call.appended, List.append_nil]

end Change

theorem allows_congr (hmade : w'.made = w.made) : w'.Allows call ↔ w.Allows call := by
  cases call with
  | add node => rw [Allows, Allows, hmade]
  | join => rfl

/-! ## Runs of calls -/

/-- Nodes were only added at the end, and what is not stored has not changed: neither gates by
themselves, whoever was made with them, nor a node that was only passed. -/
structure Preserves (w last : World) : Prop where
  made_eq : last.made = w.made
  nodes_prefix : w.nodes <+: last.nodes
  unstored : ∀ o ∈ w.made, (∀ r ∈ last.nodes, o ≠ .node r) →
    last.heap.flags o.address = w.heap.flags o.address

theorem Preserves.refl (w : World) : Preserves w w := ⟨rfl, List.prefix_rfl, fun _ _ _ => rfl⟩

theorem Preserves.trans {mid last : World} (h : Preserves w mid) (h' : Preserves mid last) :
    Preserves w last where
  made_eq := h'.made_eq.trans h.made_eq
  nodes_prefix := h.nodes_prefix.trans h'.nodes_prefix
  unstored o ho hunstored := by
    rw [h'.unstored o (h.made_eq ▸ ho) hunstored]
    exact h.unstored o ho fun r hr => hunstored r (h'.nodes_prefix.subset hr)

theorem Change.preserves (h : w.Change call w' failure?) (ho : w.Owned) : Preserves w w' := by
  refine ⟨h.made_eq, ?_, ?_⟩
  · cases h with
    | appended => exact List.prefix_append ..
    | joined | refused => exact List.prefix_rfl
  · intro o hmade hunstored
    cases h with
    | appended | refused => rfl
    | @joined r flags hstored =>
      have hr : r ∈ w.nodes := List.mem_of_find?_eq_some hstored
      exact (ho.frame_write (ho.stored r hr) flags).made o hmade (hunstored r hr)

theorem exists_run {calls : List Call} (hw : w.Reached) (hcalls : ∀ c ∈ calls, w.Allows c) :
    ∃ last : World, w.store.performAll calls = last.store ∧ last.Reached ∧ Preserves w last := by
  induction calls generalizing w with
  | nil => exact ⟨w, rfl, hw, .refl w⟩
  | cons call calls ih =>
    obtain ⟨hcall, hrest⟩ := List.forall_mem_cons.1 hcalls
    obtain ⟨next, failure?, hperform, hchange⟩ := w.exists_change call
    obtain ⟨last, hlast, hreached, hkept⟩ :=
      ih (hchange.reached hw hcall) fun c hc => (allows_congr hchange.made_eq).2 (hrest c hc)
    refine ⟨last, ?_, hreached, (hchange.preserves hw.owned).trans hkept⟩
    rw [← hlast, Store.performAll, List.foldl_cons, hperform]
    rfl

/-- Whatever was made and stored, the same nodes in several places or within others included, a call
whose ident is declared changes at most the first stored node of an equal ident, and of it only the
gates, which it joins; every other node that was made, all gates that were given away and all that
does not hold this node are as they were. One whose ident is new only leaves its own node at the
end. The tokens stay, and a call that is refused changes nothing. Over a run of calls what is not
stored in the end never changes. -/
theorem perform_frame (hw : w.Reached) (hcall : w.Allows call) :
    (∃ w' failure?, w.store.perform call = (w'.store, failure?) ∧ w'.Reached ∧
      w'.made = w.made ∧ w'.tokens = w.tokens ∧
      (∀ r, w.declared? call = some r → Frame r w w' ∧ (failure? = none →
        Features.join (w.heap.flags r.address) (call.look w.heap).flags =
          .ok (w'.heap.flags r.address))) ∧
      (w.declared? call = none → w' = { w with nodes := w.nodes ++ call.appended }) ∧
      (failure? ≠ none → w' = w) ∧
      failure?.map Error.kind = (call.look w.heap).verdict? w.looks) ∧
    ∀ calls : List Call, (∀ c ∈ calls, w.Allows c) →
      ∃ last : World, w.store.performAll calls = last.store ∧ last.Reached ∧ Preserves w last := by
  refine ⟨?_, fun calls hcalls => exists_run hw hcalls⟩
  obtain ⟨w', failure?, hperform, hchange⟩ := w.exists_change call
  refine ⟨w', failure?, hperform, hchange.reached hw hcall, hchange.made_eq, hchange.tokens_eq,
    fun r hr => ⟨hchange.frame hw.owned hr, fun hok => ?_⟩, hchange.eq_append,
    hchange.eq_of_refused, hchange.kind_eq⟩
  subst hok
  exact hchange.join_eq hw.owned hr

/-! ### Nodes made with the same gates -/

def full : List Value := [.text "full"]

def wide : List Value := [.text "full", .text "derive"]

def block : NodeRef := (RawNode.bare (.text "Block") full).placed 1

def stmt : NodeRef := (RawNode.enum (.text "Stmt") full []).placed 2

def wideBlock : NodeRef := (RawNode.bare (.text "Block") wide).placed 4

/-- A struct and an enum were made with the same gates, and the struct is stored twice; another
struct of its ident was made with more flags. -/
def sharedGates : World where
  heap := ⟨[full, full, full, wide, wide]⟩
  made := [.gates 0, .node block, .node stmt, .gates 3, .node wideBlock]
  nodes := [block, stmt, block]
  tokens := .mapping []

theorem reached_sharedGates : sharedGates.Reached := by
  have hgates : World.Reached ⟨⟨[full]⟩, [.gates 0], [], .mapping []⟩ :=
    .make (.start _) (@Makes.gates _ (.list full) _ _ rfl (by decide))
  have hblock : World.Reached ⟨⟨[full, full]⟩, [.gates 0, .node block], [], .mapping []⟩ :=
    .make hgates (@Makes.node _ [.text "Block", .gatesAt .features 0, .list [], .bool true] _ _
      .struct rfl rfl (by decide))
  have hstmt : World.Reached
      ⟨⟨[full, full, full]⟩, [.gates 0, .node block, .node stmt], [], .mapping []⟩ :=
    .make hblock (@Makes.node _ [.text "Stmt", .gatesAt .features 0, .list []] _ _
      .enum rfl rfl (by decide))
  have hwide : World.Reached ⟨⟨[full, full, full, wide]⟩,
      [.gates 0, .node block, .node stmt, .gates 3], [], .mapping []⟩ :=
    .make hstmt (@Makes.gates _ (.list wide) _ _ rfl (by decide))
  have hall : World.Reached { sharedGates with nodes := [] } :=
    .make hwide (@Makes.node _ [.text "Block", .gatesAt .features 3, .list [], .bool true] _ _
      .struct rfl rfl (by decide))
  refine hall.turn (.mapping []) ?_
  simp [sharedGates]

/-- Only the struct that is stored gets more flags, in both places. -/
theorem perform_frame_sharedGates :
    ∃ w' : World, sharedGates.store.perform (.add wideBlock) = (w'.store, none) ∧
      w'.nodes = [block, stmt, block] ∧ w'.heap.flags block.address = wide ∧
      w'.heap.flags stmt.address = full ∧ w'.heap.flags 0 = full := by
  have hcall : sharedGates.Allows (.add wideBlock) := by
    simp [Allows, sharedGates]
  obtain ⟨⟨w', failure?, hperform, -, -, -, hdeclared, -, -, hkind⟩, -⟩ :=
    perform_frame reached_sharedGates hcall
  obtain ⟨hframe, hjoin⟩ := hdeclared block rfl
  have hverdict : (Call.look sharedGates.heap (.add wideBlock)).verdict? sharedGates.looks = none :=
    rfl
  obtain rfl : failure? = none := Option.map_eq_none_iff.1 (hkind.trans hverdict)
  refine ⟨w', hperform, hframe.nodes_eq, (Except.ok.inj (hjoin rfl)).symm, ?_, ?_⟩
  · have hne : stmt ≠ block := fun heq => absurd (congrArg NodeRef.address heq) (by decide)
    exact hframe.stored stmt (by simp [sharedGates]) hne
  · exact hframe.made (.gates 0) (by simp [sharedGates]) (by simp)

end World

end AstSchema
