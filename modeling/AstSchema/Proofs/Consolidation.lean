import AstSchema.Proofs.GatedNode
import AstSchema.Proofs.Occurrences

/-! Repeated declarations. Over any run of additions the definitions are a map from idents to nodes
in the order of first declaration: a later declaration joins its gates or fails, and one that fails
changes nothing. -/
namespace AstSchema

/-! ## One addition -/

theorem Features.join_eq_error {mine theirs : List Value} {e : Error}
    (h : join mine theirs = .error e) : e = .unnestedFeatures mine theirs := by
  unfold join at h
  split at h
  · contradiction
  · split at h
    · split at h
      · contradiction
      · exact (Except.error.inj h).symm
    · split at h
      · split at h
        · contradiction
        · exact (Except.error.inj h).symm
      · split at h
        · contradiction
        · exact (Except.error.inj h).symm

namespace Definitions

def ofNodes (tokens : Value) (nodes : List NodeObject) : Definitions :=
  ⟨.list (nodes.map NodeObject.toValue), tokens⟩

theorem ofNodes_eq_ofGated (tokens : Value) (nodes : List NodeObject) :
    ofNodes tokens nodes = ofGated tokens (nodes.map NodeObject.toGated) := by
  unfold ofNodes ofGated
  rw [NodeObject.map_toValue_toGated]

/-- Texts are equal idents only if they are the same. -/
theorem forall_toGated {nodes : List NodeObject} {ident : String}
    (h : ∀ n ∈ nodes, n.ident ≠ ident) :
    ∀ n ∈ nodes.map NodeObject.toGated, n.ident.equal (.text ident) = false := by
  simpa [NodeObject.toGated] using h

theorem tagOf_toValue (n : NodeObject) : ∃ tag, tagOf n.toValue = .ok tag := by
  unfold tagOf
  cases h : n.toValue.field? "tag" with
  | some own => exact ⟨own.display, rfl⟩
  | none =>
    obtain ⟨⟨name, home, role, tag?, specs⟩, fields, ident, flags, hnode, htag⟩ := n
    obtain ⟨tag, rfl⟩ := Option.isSome_iff_exists.1 htag
    exact ⟨tag.display, rfl⟩

/-- An ident that is not there yet is appended. -/
theorem add_of_forall {tokens : Value} {nodes : List NodeObject} {node : NodeObject}
    (h : ∀ n ∈ nodes, n.ident ≠ node.ident) :
    (ofNodes tokens nodes).add node.toValue =
      .ok ⟨ofNodes tokens (nodes ++ [node]), nodes.length, .ok none⟩ := by
  have hadd := @add_gated_of_forall tokens node.toGated _ (forall_toGated h)
  simp only [ofNodes_eq_ofGated, List.map_append]
  rwa [List.length_map] at hadd

section

variable (tokens : Value) {before : List NodeObject} (after : List NodeObject)
  {stored node : NodeObject} (hbefore : ∀ n ∈ before, n.ident ≠ node.ident)
  (hident : stored.ident = node.ident)
include hbefore hident

/-- An ident that is there joins its gates with those of the first node that has it, or they are
refused. -/
theorem add_of_cls_eq (hcls : stored.cls = node.cls) :
    (ofNodes tokens (before ++ stored :: after)).add node.toValue =
      (Features.join stored.flags node.flags).map fun flags =>
        ⟨ofNodes tokens (before ++ stored.withFlags flags :: after), before.length,
          .ok (some (.consolidated (.text node.ident) stored.flags node.flags flags))⟩ := by
  have hequal : stored.toGated.ident.equal node.toGated.ident := by
    simpa [NodeObject.toGated] using hident
  have hadd := add_gated_of_cls_eq tokens (after.map NodeObject.toGated) (forall_toGated hbefore)
    hequal hcls
  simp only [ofNodes_eq_ofGated, List.map_append, List.map_cons]
  rwa [List.length_map] at hadd

theorem add_of_cls_ne (hcls : stored.cls ≠ node.cls) :
    ∃ theirs mine, (ofNodes tokens (before ++ stored :: after)).add node.toValue =
      .error (.kindsDiffer (.text node.ident) theirs mine) := by
  obtain ⟨theirs, htheirs⟩ := tagOf_toValue stored
  obtain ⟨mine, hmine⟩ := tagOf_toValue node
  have hequal : stored.toGated.ident.equal node.toGated.ident := by
    simpa [NodeObject.toGated] using hident
  have hadd := add_gated_of_cls_ne tokens (after.map NodeObject.toGated) (forall_toGated hbefore)
    hequal hcls
  refine ⟨theirs, mine, ?_⟩
  simp only [ofNodes_eq_ofGated, List.map_append, List.map_cons]
  refine hadd.trans ?_
  change (tagOf stored.toValue >>= fun theirs => tagOf node.toValue >>= fun mine => _) = _
  rw [htheirs, hmine]
  rfl

end

/-! ## Runs of additions -/

def failure? (d : Definitions) (node : Value) : Option Error :=
  match d.add node with
  | .ok ⟨_, _, .ok _⟩ => none
  | .ok ⟨_, _, .error e⟩ | .error e => some e

def attempt (d : Definitions) (node : Value) : Definitions :=
  match d.add node with
  | .ok a => a.definitions
  | .error _ => d

/-- The definitions after a run of additions: one that fails does not end it. -/
def addAll (d : Definitions) (nodes : List Value) : Definitions := nodes.foldl attempt d

/-- The first of the calls that declare an ident, and of those after it that are of its class the
flags. -/
def declared? (calls : List NodeObject) (ident : String) :
    Option (NodeObject × List (List Value)) :=
  match calls.filter (·.ident = ident) with
  | [] => none
  | first :: later => some (first, (later.filter (·.cls = first.cls)).map (·.flags))

/-- Flags that cannot be joined are passed over. -/
def joinOrKeep (mine theirs : List Value) : List Value :=
  match Features.join mine theirs with
  | .ok flags => flags
  | .error _ => mine

/-- The flags of a node that was declared first with these and later with the others. -/
def flagsAfter (first : NodeObject) (later : List (List Value)) : List Value :=
  later.foldl joinOrKeep first.flags

/-- What is stored for a first declaration and later flags: all but the gates is as it was declared
first. -/
structure Settled (first : NodeObject) (later : List (List Value)) (stored : NodeObject) :
    Prop where
  cls_eq : stored.cls = first.cls
  field?_eq : ∀ name, name ≠ "features" → stored.toValue.field? name = first.toValue.field? name
  flags_eq : stored.flags = flagsAfter first later

/-- What is stored after these calls: one node for each ident, in the order of first declaration. -/
structure Refines (calls stored : List NodeObject) : Prop where
  nodup : (stored.map (·.ident)).Nodup
  idents : stored.map (·.ident) = (calls.map (·.ident)).eraseDups
  settled : ∀ n ∈ stored, ∃ first later, declared? calls n.ident = some (first, later) ∧
    Settled first later n

/-- How the next call is answered after these: a first declaration is accepted, one of another class
than the first is invalid, and any other is a conflict if its flags do not join. -/
def verdict? (calls : List NodeObject) (node : NodeObject) : Option ErrorKind :=
  match declared? calls node.ident with
  | none => none
  | some (first, later) =>
    if first.cls ≠ node.cls then some .invalid
    else
      match Features.join (flagsAfter first later) node.flags with
      | .ok _ => none
      | .error _ => some .conflict

theorem declared?_append_of_ne {calls : List NodeObject} {node : NodeObject} {ident : String}
    (h : node.ident ≠ ident) : declared? (calls ++ [node]) ident = declared? calls ident := by
  have hnode : [node].filter (·.ident = ident) = [] := by simp [h]
  rw [declared?, declared?, List.filter_append, hnode, List.append_nil]

theorem declared?_append_of_none {calls : List NodeObject} {node : NodeObject}
    (h : declared? calls node.ident = none) :
    declared? (calls ++ [node]) node.ident = some (node, []) := by
  unfold declared? at h ⊢
  split at h
  next hnil => simp [hnil]
  next => contradiction

theorem declared?_append_of_some {calls : List NodeObject} {node first : NodeObject}
    {later : List (List Value)} (h : declared? calls node.ident = some (first, later)) :
    declared? (calls ++ [node]) node.ident =
      some (first, if node.cls = first.cls then later ++ [node.flags] else later) := by
  unfold declared? at h ⊢
  split at h
  next => contradiction
  next head tail hcons =>
    obtain ⟨rfl, rfl⟩ := Prod.mk.inj (Option.some.inj h)
    have hfilter : (calls ++ [node]).filter (·.ident = node.ident) = head :: (tail ++ [node]) := by
      simp [hcons]
    simp only [hfilter, List.filter_append, List.map_append]
    by_cases hcls : node.cls = head.cls <;> simp [hcls]

theorem declared?_eq_none {calls : List NodeObject} {ident : String}
    (h : ident ∉ calls.map (·.ident)) : declared? calls ident = none := by
  have hnil : calls.filter (·.ident = ident) = [] := by
    rw [List.filter_eq_nil_iff]
    intro n hn heq
    exact h (List.mem_map.2 ⟨n, hn, of_decide_eq_true heq⟩)
  rw [declared?, hnil]

theorem verdict?_of_cls_ne {calls : List NodeObject} {node first : NodeObject}
    {later : List (List Value)} (h : declared? calls node.ident = some (first, later))
    (hcls : node.cls ≠ first.cls) : verdict? calls node = some .invalid := by
  rw [verdict?, h]
  exact if_pos hcls.symm

theorem verdict?_of_cls_eq {calls : List NodeObject} {node first : NodeObject}
    {later : List (List Value)} (h : declared? calls node.ident = some (first, later))
    (hcls : node.cls = first.cls) :
    verdict? calls node =
      match Features.join (flagsAfter first later) node.flags with
      | .ok _ => none
      | .error _ => some .conflict := by
  rw [verdict?, h]
  exact if_neg (not_not_intro hcls.symm)

theorem Settled.refl (n : NodeObject) : Settled n [] n := ⟨rfl, fun _ _ => rfl, rfl⟩

theorem Settled.withFlags {first stored : NodeObject} {later : List (List Value)}
    {theirs flags : List Value} (h : Settled first later stored)
    (hjoin : Features.join stored.flags theirs = .ok flags) :
    Settled first (later ++ [theirs]) (stored.withFlags flags) where
  cls_eq := h.cls_eq
  field?_eq name hne := (stored.field?_withFlags_of_ne flags hne).trans (h.field?_eq name hne)
  flags_eq := by
    rw [flagsAfter, List.foldl_append, ← flagsAfter, ← h.flags_eq]
    simp only [List.foldl_cons, List.foldl_nil, joinOrKeep, hjoin]
    rfl

/-- Flags that do not join are as good as not given. -/
theorem Settled.keep {first stored : NodeObject} {later : List (List Value)} {theirs : List Value}
    {e : Error} (h : Settled first later stored)
    (hjoin : Features.join stored.flags theirs = .error e) :
    Settled first (later ++ [theirs]) stored where
  cls_eq := h.cls_eq
  field?_eq := h.field?_eq
  flags_eq := by
    rw [flagsAfter, List.foldl_append, ← flagsAfter, ← h.flags_eq]
    simp only [List.foldl_cons, List.foldl_nil, joinOrKeep, hjoin]

namespace Refines

variable {calls stored before after : List NodeObject} {node : NodeObject}

theorem nil : Refines [] [] := ⟨.nil, rfl, by simp⟩

theorem mem_iff (h : Refines calls stored) {ident : String} :
    ident ∈ stored.map (·.ident) ↔ ident ∈ calls.map (·.ident) := by
  rw [h.idents, List.mem_eraseDups]

theorem append (h : Refines calls stored) (hnew : node.ident ∉ stored.map (·.ident)) :
    Refines (calls ++ [node]) (stored ++ [node]) where
  nodup := by
    rw [List.map_append, List.nodup_append]
    refine ⟨h.nodup, by simp, fun i hi j hj hij => hnew ?_⟩
    obtain rfl : j = node.ident := by simpa using hj
    exact hij ▸ hi
  idents := by
    have hcalls : node.ident ∉ calls.map (·.ident) := fun hmem => hnew (h.mem_iff.2 hmem)
    rw [List.map_append, List.map_append, h.idents]
    exact (eraseDups_concat_of_not_mem hcalls).symm
  settled n hn := by
    obtain hold | hlast := List.mem_append.1 hn
    · obtain ⟨first, later, hdeclared, hsettled⟩ := h.settled n hold
      have hne : node.ident ≠ n.ident := fun heq => hnew (heq ▸ List.mem_map_of_mem hold)
      exact ⟨first, later, (declared?_append_of_ne hne).trans hdeclared, hsettled⟩
    · obtain rfl := List.mem_singleton.1 hlast
      have hnone := declared?_eq_none fun hmem => hnew (h.mem_iff.2 hmem)
      exact ⟨n, [], declared?_append_of_none hnone, Settled.refl n⟩

/-- A repeated declaration concerns the one node of its ident. -/
theorem replace {old new first : NodeObject} {later : List (List Value)}
    (h : Refines calls (before ++ old :: after)) (hold : old.ident = node.ident)
    (hnew : new.ident = node.ident)
    (hdeclared : declared? (calls ++ [node]) node.ident = some (first, later))
    (hsettled : Settled first later new) :
    Refines (calls ++ [node]) (before ++ new :: after) := by
  have hidents : (before ++ new :: after).map (·.ident) =
      (before ++ old :: after).map (·.ident) := by
    simp [hold, hnew]
  refine ⟨hidents ▸ h.nodup, ?_, fun n hn => ?_⟩
  · have hmem : node.ident ∈ calls.map (·.ident) := h.mem_iff.1 (by simp [hold])
    rw [hidents, h.idents, List.map_append]
    exact (eraseDups_concat_of_mem hmem).symm
  · obtain rfl | hother : n = new ∨ n ∈ before ++ after := by
      simp only [List.mem_append, List.mem_cons] at hn ⊢
      tauto
    · exact ⟨first, later, hnew ▸ hdeclared, hsettled⟩
    · have hne : node.ident ≠ n.ident := by
        intro heq
        have hnodup := h.nodup
        rw [List.map_append, List.map_cons, List.nodup_middle, ← List.map_append, hold,
          heq] at hnodup
        exact (List.nodup_cons.1 hnodup).1 (List.mem_map_of_mem hother)
      obtain ⟨f, l, hdecl, hs⟩ := h.settled n (by
        simp only [List.mem_append, List.mem_cons] at hother ⊢
        tauto)
      exact ⟨f, l, (declared?_append_of_ne hne).trans hdecl, hs⟩

theorem exists_of_mem (h : Refines calls stored) (hmem : node.ident ∈ stored.map (·.ident)) :
    ∃ before old after first later, stored = before ++ old :: after ∧
      (∀ n ∈ before, n.ident ≠ node.ident) ∧ old.ident = node.ident ∧
      declared? calls node.ident = some (first, later) ∧ Settled first later old := by
  obtain ⟨old, hold, hident⟩ := List.mem_map.1 hmem
  obtain ⟨before, after, rfl⟩ := List.append_of_mem hold
  obtain ⟨first, later, hdeclared, hsettled⟩ := h.settled old hold
  refine ⟨before, old, after, first, later, rfl, fun n hn heq => ?_, hident, hident ▸ hdeclared,
    hsettled⟩
  have hnodup := h.nodup
  rw [List.map_append, List.map_cons, List.nodup_middle, ← List.map_append, hident, ← heq] at hnodup
  exact (List.nodup_cons.1 hnodup).1 (List.mem_map_of_mem (List.mem_append_left after hn))

/-- One more call: the definitions go on refining the calls, the answer is the one that the earlier
calls settle, and a call that fails changes nothing. -/
theorem step (h : Refines calls stored) (tokens : Value) (node : NodeObject) :
    (∃ next, (ofNodes tokens stored).attempt node.toValue = ofNodes tokens next ∧
      Refines (calls ++ [node]) next) ∧
      ((ofNodes tokens stored).failure? node.toValue).map Error.kind = verdict? calls node ∧
      ((ofNodes tokens stored).failure? node.toValue ≠ none →
        (ofNodes tokens stored).attempt node.toValue = ofNodes tokens stored) := by
  by_cases hmem : node.ident ∈ stored.map (·.ident)
  · obtain ⟨before, old, after, first, later, rfl, hbefore, hident, hdeclared, hsettled⟩ :=
      h.exists_of_mem hmem
    have hnext := declared?_append_of_some hdeclared
    by_cases hcls : old.cls = node.cls
    · -- The gates of the stored node are those that the earlier calls lead to.
      have hfirst : node.cls = first.cls := hcls.symm.trans hsettled.cls_eq
      have hadd := add_of_cls_eq tokens after hbefore hident hcls
      rw [if_pos hfirst] at hnext
      rw [attempt, failure?, hadd, verdict?_of_cls_eq hdeclared hfirst, ← hsettled.flags_eq]
      cases hjoin : Features.join old.flags node.flags with
      | ok flags =>
        exact ⟨⟨_, rfl, h.replace hident hident hnext (hsettled.withFlags hjoin)⟩, rfl,
          fun hfails => absurd rfl hfails⟩
      | error e =>
        obtain rfl := Features.join_eq_error hjoin
        exact ⟨⟨_, rfl, h.replace hident hident hnext (hsettled.keep hjoin)⟩, rfl, fun _ => rfl⟩
    · -- The call does not count among the later ones, so what is stored is settled as before.
      have hfirst : node.cls ≠ first.cls := fun heq => hcls (hsettled.cls_eq.trans heq.symm)
      obtain ⟨theirs, mine, hadd⟩ := add_of_cls_ne tokens after hbefore hident hcls
      rw [if_neg hfirst] at hnext
      rw [attempt, failure?, hadd, verdict?_of_cls_ne hdeclared hfirst]
      exact ⟨⟨_, rfl, h.replace hident hident hnext hsettled⟩, rfl, fun _ => rfl⟩
  · have hnew : ∀ n ∈ stored, n.ident ≠ node.ident := by
      intro n hn heq
      exact hmem (heq ▸ List.mem_map_of_mem hn)
    have hnone : declared? calls node.ident = none :=
      declared?_eq_none fun hcalls => hmem (h.mem_iff.2 hcalls)
    rw [attempt, failure?, add_of_forall hnew, verdict?, hnone]
    exact ⟨⟨_, rfl, h.append hmem⟩, rfl, fun hfails => absurd rfl hfails⟩

theorem run (h : Refines calls stored) (tokens : Value) (more : List NodeObject) :
    ∃ next, (ofNodes tokens stored).addAll (more.map NodeObject.toValue) = ofNodes tokens next ∧
      Refines (calls ++ more) next := by
  induction more generalizing calls stored with
  | nil => exact ⟨stored, rfl, by simpa using h⟩
  | cons node more ih =>
    obtain ⟨⟨next, hnext, hrefines⟩, -⟩ := h.step tokens node
    obtain ⟨last, hlast, hall⟩ := ih hrefines
    refine ⟨last, ?_, by simpa using hall⟩
    rw [← hlast, ← hnext]
    rfl

end Refines

/-- After any run of additions on empty definitions, those that failed included, the nodes stored
are the first declarations with their gates joined, and the answer to one more addition is settled
by the earlier ones. One that fails leaves the definitions as they are. -/
theorem addAll_refines (tokens : Value) (calls : List NodeObject) (node : NodeObject) :
    ∃ stored,
      (ofNodes tokens []).addAll (calls.map NodeObject.toValue) = ofNodes tokens stored ∧
      Refines calls stored ∧
      ((ofNodes tokens stored).failure? node.toValue).map Error.kind = verdict? calls node ∧
      ((ofNodes tokens stored).failure? node.toValue ≠ none →
        (ofNodes tokens stored).attempt node.toValue = ofNodes tokens stored) := by
  obtain ⟨stored, hrun, hrefines⟩ := Refines.nil.run tokens calls
  exact ⟨stored, hrun, hrefines, (hrefines.step tokens node).2⟩

end Definitions

end AstSchema
