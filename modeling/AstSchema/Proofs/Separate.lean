import AstSchema.Proofs.Mutation

/-! Nodes that have nothing in common. Where each node is stored once, and where no node or gates
are held in a field of another, what becomes of a store is seen by looks alone: definitions that are
rows of values change as it does. -/
namespace AstSchema

namespace Class

/-- Where no field comes twice, each is found by its name. -/
theorem lookup_of_mem_zip {names : List String} {vs : List Value} {name : String} {v : Value}
    (hnodup : names.Nodup) (h : (name, v) ∈ names.zip vs) :
    (names.zip vs).lookup name = some v := by
  induction names generalizing vs with
  | nil => contradiction
  | cons n names ih =>
    cases vs with
    | nil => contradiction
    | cons w vs =>
      obtain ⟨hn, hnodup⟩ := List.nodup_cons.1 hnodup
      rw [List.zip_cons_cons, List.lookup_cons]
      obtain heq | h := List.mem_cons.1 h
      · obtain ⟨rfl, rfl⟩ := Prod.mk.inj heq
        simp
      · have hne : name ≠ n := fun heq => hn (heq ▸ (List.of_mem_zip h).1)
        rw [beq_false_of_ne hne]
        exact ih hnodup h

end Class

namespace NodeRef

variable {r : NodeRef} {h h' : Heap}

/-- No gates but its own are held in the node, and those in their field. -/
structure IsSeparate (r : NodeRef) : Prop where
  isNode : r.cls.IsNode
  fixed : ∀ f ∈ r.cls.fieldNames.zip r.fields, f.1 ≠ "features" → f.2.isGateFree

namespace IsSeparate

theorem eq_gatesAt (hr : r.IsSeparate) {v : Value}
    (hv : ("features", v) ∈ r.cls.fieldNames.zip r.fields) : v = .gatesAt .features r.address :=
  Option.some.inj ((Class.lookup_of_mem_zip hr.isNode.nodup hv).symm.trans r.hasGates)

/-- In every heap a field looks the same, but for the flags. -/
theorem view_field (hr : r.IsSeparate) {f : String × Value}
    (hf : f ∈ r.cls.fieldNames.zip r.fields) :
    h'.view f.2 =
      if f.1 == "features" then Features.toValue (h'.flags r.address) else h.view f.2 := by
  obtain ⟨name, v⟩ := f
  by_cases hname : name = "features"
  · subst hname
    obtain rfl := hr.eq_gatesAt hf
    exact h'.view_gatesAt r.address
  · have hfree := hr.fixed (name, v) hf hname
    rw [beq_false_of_ne hname, Heap.view_of_isGateFree hfree, Heap.view_of_isGateFree hfree]
    rfl

/-- So the node itself looks the same, but for its flags. -/
theorem look_eq (hr : r.IsSeparate) (h h' : Heap) :
    r.look h' = (r.look h).withFlags (h'.flags r.address) := by
  have hlength : r.cls.fieldNames.length = r.fields.length := by
    rw [r.hasFields, Class.fieldNames, List.length_map]
  apply GatedNode.toValue_injective
  apply congrArg (Value.object r.cls)
  simp only [look, GatedNode.withFlags, List.zip_map_right, List.map_map]
  conv_lhs => rw [← List.map_snd_zip (Nat.le_of_eq hlength.symm), List.map_map]
  exact List.map_congr_left fun f hf => hr.view_field hf

theorem look_congr (hr : r.IsSeparate) (hflags : h'.flags r.address = h.flags r.address) :
    r.look h' = r.look h := by
  rw [hr.look_eq h h', hflags, ← hr.look_eq h h]

end IsSeparate

end NodeRef

namespace World

variable {w w' : World} {call : Call} {r : NodeRef}

/-- No node is stored twice, and none is held in another or in the table of tokens. -/
structure Separate (w : World) : Prop where
  reached : w.Reached
  nodup : w.nodes.Nodup
  nodes : ∀ r ∈ w.nodes, r.IsSeparate
  tokens : w.tokens.isGateFree

namespace Separate

/-- A joined node looks as before but for its flags, and all others look as before. -/
theorem looks_write (hw : w.Separate) {before after : List NodeRef}
    (hnodes : w.nodes = before ++ r :: after) (flags : List Value) :
    w.nodes.map (·.look (w.heap.write r.address flags)) =
      before.map (·.look w.heap) ++
        (r.look w.heap).withFlags flags :: after.map (·.look w.heap) := by
  have hr : r ∈ w.nodes := by simp [hnodes]
  have hframe := hw.reached.owned.frame_write (hw.reached.owned.stored r hr) flags
  have hothers : ∀ s ∈ w.nodes, s ≠ r → s.look (w.heap.write r.address flags) = s.look w.heap :=
    fun s hs hne => (hw.nodes s hs).look_congr (hframe.stored s hs hne)
  have hself : r.look (w.heap.write r.address flags) = (r.look w.heap).withFlags flags := by
    rw [(hw.nodes r hr).look_eq w.heap, hw.reached.owned.flags_write (hw.reached.owned.stored r hr)]
  obtain ⟨hnew, -⟩ := List.nodup_cons.1 (List.nodup_middle.1 (hnodes ▸ hw.nodup))
  have hne : ∀ s ∈ before ++ after, s ≠ r := fun s hs heq => hnew (heq ▸ hs)
  rw [hnodes, List.map_append, List.map_cons, hself]
  rw [hnodes] at hothers
  congr 1
  · refine List.map_congr_left fun s hs => hothers s (List.mem_append_left _ hs) ?_
    exact hne s (List.mem_append_left _ hs)
  · congr 1
    refine List.map_congr_left fun s hs =>
      hothers s (List.mem_append_right _ (List.mem_cons_of_mem _ hs)) ?_
    exact hne s (List.mem_append_right _ hs)

theorem view_tokens (hw : w.Separate) (h : Heap) : h.view w.tokens = w.heap.view w.tokens := by
  rw [Heap.view_of_isGateFree hw.tokens, Heap.view_of_isGateFree hw.tokens]

theorem exists_joined_view (hw : w.Separate) {before after : List GatedNode} {stored : GatedNode}
    (hlooks : w.looks = before ++ stored :: after) (flags : List Value) :
    ∃ s, w.store.joined (Definitions.joiningOf before stored flags) = .ok s ∧
      s.view = w.store.view.withGates (w.looks.map GatedNode.toValue)
        (Definitions.joiningOf before stored flags) := by
  obtain ⟨before', rest, hnodes, rfl, hrest⟩ := List.map_eq_append_iff.1 hlooks
  obtain ⟨s, after', rfl, rfl, rfl⟩ := List.map_eq_cons_iff.1 hrest
  refine ⟨_, joined_store hnodes flags, ?_⟩
  rw [view_store, view_store, hlooks, Definitions.withGates_joiningOf,
    ← hw.looks_write hnodes flags, ← hw.view_tokens]
  rfl

/-- A declaration does to the store what it does to definitions that look like it. -/
theorem add_view (hw : w.Separate) (r : NodeRef) :
    (w.store.add r.toValue).map (fun p => (p.1.view, p.2)) =
      (w.store.view.add (w.heap.view r.toValue)).map fun a =>
        (a.definitions, a.position, a.event?) := by
  have hreceived := (Definitions.Call.add (r.look w.heap)).received (w.heap.view w.tokens) w.looks
  rw [add_store, Definitions.add, view_store, r.view_toValue]
  change Definitions.Call.Received _ _
    ((Definitions.ofGated (w.heap.view w.tokens) w.looks).receive (r.look w.heap).toValue)
    at hreceived
  rw [Definitions.receiveCall]
  generalize (Definitions.ofGated (w.heap.view w.tokens) w.looks).receive _ = receipt at hreceived ⊢
  cases hreceived with
  | appended =>
    have hview : Store.view { w with nodes := w.nodes ++ [r] }.store =
        .ofGated (w.heap.view w.tokens) (w.looks ++ [r.look w.heap]) := by
      rw [view_store, looks, List.map_append]
      rfl
    simp only [bind, Except.bind, follow_appended, Except.map, hview, Definitions.nodes_ofGated]
    simp [Definitions.ofGated, Definitions.withNodes, Value.withItems, looks, pure, Except.pure]
  | @joined before after stored flags event? hlooks =>
    obtain ⟨s, hs, hview⟩ := hw.exists_joined_view hlooks flags
    rw [view_store] at hview
    simp only [bind, Except.bind, Store.follow, hs, Except.map, Definitions.nodes_ofGated,
      ← hview]
    rfl
  | refused hkind => rfl

theorem joinFlags_view (hw : w.Separate) (ident : Value) (flags : List Value) :
    (w.store.joinFlags ident (.list flags)).map Store.view =
      w.store.view.joinFlags (w.heap.view ident) (.list (flags.map w.heap.view)) := by
  have hreceived := (Definitions.Call.join (w.heap.view ident) (flags.map w.heap.view)).received
    (w.heap.view w.tokens) w.looks
  rw [joinFlags_store, Definitions.joinFlags, view_store]
  change Definitions.Call.Received _ _
    ((Definitions.ofGated (w.heap.view w.tokens) w.looks).receiveFlags (w.heap.view ident)
      (.list (flags.map w.heap.view)) >>= fun j => .ok (.joined j (.ok none))) at hreceived
  generalize (Definitions.ofGated (w.heap.view w.tokens) w.looks).receiveFlags _ _ = joining
    at hreceived ⊢
  cases joining with
  | error e => rfl
  | ok j =>
    cases hreceived with
    | @joined before after stored joined event? hlooks =>
      obtain ⟨s, hs, hview⟩ := hw.exists_joined_view hlooks joined
      rw [view_store] at hview
      simp only [bind, Except.bind, hs, Except.map, Definitions.nodes_ofGated, ← hview]
      rfl

/-- Refused or not, a declaration leaves what it leaves among values. -/
theorem attempt_view (hw : w.Separate) (r : NodeRef) :
    (w.store.perform (.add r)).1.view = w.store.view.attempt (r.look w.heap).toValue := by
  have hadd := hw.add_view r
  rw [r.view_toValue] at hadd
  rw [Store.perform, Definitions.attempt]
  cases hstore : w.store.add r.toValue with
  | error e =>
    cases hview : w.store.view.add (r.look w.heap).toValue with
    | error e' => rfl
    | ok a => simp [hstore, hview, Except.map] at hadd
  | ok p =>
    cases hview : w.store.view.add (r.look w.heap).toValue with
    | error e' => simp [hstore, hview, Except.map] at hadd
    | ok a =>
      obtain ⟨s, position, event?⟩ := p
      simp only [hstore, hview, Except.map, Except.ok.injEq, Prod.mk.injEq] at hadd
      cases event? <;> exact hadd.1

/-- What a declaration leaves is separate again, if the node that was passed is. -/
theorem change {failure? : Option Error} (hw : w.Separate) (h : w.Change (.add r) w' failure?)
    (hmade : .node r ∈ w.made) (hr : r.IsSeparate) (hnew : r ∉ w.nodes) : w'.Separate := by
  have hreached := h.reached hw.reached hmade
  cases h with
  | appended =>
    refine ⟨hreached, ?_, List.forall_mem_append.2 ⟨hw.nodes, by simpa [Call.appended] using hr⟩,
      hw.tokens⟩
    exact List.nodup_append_comm.1 (List.nodup_cons.2 ⟨hnew, hw.nodup⟩)
  | joined | refused => exact ⟨hreached, hw.nodup, hw.nodes, hw.tokens⟩

/-- So does a run of declarations of nodes that are not stored yet. -/
theorem performAll_view (hw : w.Separate) {calls : List NodeRef}
    (hmade : ∀ r ∈ calls, .node r ∈ w.made) (hcalls : ∀ r ∈ calls, r.IsSeparate)
    (hnodup : (w.nodes ++ calls).Nodup) :
    (w.store.performAll (calls.map .add)).view =
      w.store.view.addAll (calls.map fun r => (r.look w.heap).toValue) := by
  induction calls generalizing w with
  | nil => rfl
  | cons r calls ih =>
    obtain ⟨hr, hrest⟩ := List.forall_mem_cons.1 hcalls
    obtain ⟨hmade, hmadeRest⟩ := List.forall_mem_cons.1 hmade
    obtain ⟨w', failure?, hperform, hchange⟩ := w.exists_change (.add r)
    have hnext : w'.store.view = w.store.view.attempt (r.look w.heap).toValue := by
      rw [← hw.attempt_view, hperform]
    have hstored : w'.nodes.Sublist (w.nodes ++ [r]) := by
      cases hchange with
      | appended => exact .refl _
      | joined | refused => exact List.sublist_append_left ..
    have hnext' : (w'.nodes ++ calls).Nodup := by
      rw [List.append_cons] at hnodup
      exact hnodup.sublist (hstored.append_right calls)
    have hlooks : ∀ c ∈ calls, c.look w'.heap = c.look w.heap := by
      intro c hc
      refine (hrest c hc).look_congr ?_
      refine (hchange.preserves hw.reached.owned).unstored (.node c) (hmadeRest c hc) ?_
      intro s hs heq
      obtain rfl := Made.node.inj heq
      exact List.disjoint_of_nodup_append hnext' hs hc
    have hnew : r ∉ w.nodes := fun hr =>
      List.disjoint_of_nodup_append hnodup hr List.mem_cons_self
    have hrun := ih (hw.change hchange hmade hr hnew) (hchange.made_eq ▸ hmadeRest) hrest hnext'
    rw [hnext, List.map_congr_left fun c hc => congrArg GatedNode.toValue (hlooks c hc)] at hrun
    rw [List.map_cons, List.map_cons, Store.performAll, List.foldl_cons, hperform]
    exact hrun

end Separate

/-- A struct that was made, and nothing that is stored. -/
example : (ofMade [.bare (.text "A") full] []).Separate ∧
    ((RawNode.bare (.text "A") full).placed 0).IsSeparate :=
  ⟨⟨reached_ofMade (by decide) (by simp), .nil, by simp [ofMade], rfl⟩, .struct, by decide⟩

end World

end AstSchema
