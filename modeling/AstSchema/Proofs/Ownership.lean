import AstSchema.Proofs.HeapView
import AstSchema.Proofs.RawNode
import Mathlib.Data.List.Induction
import Mathlib.Data.List.Nodup

/-! Who owns which gates. A node that is made gets gates that nothing else holds yet, whatever gates
it is made of; so, whatever is made and stored and changed, no two nodes ever have the same ones,
and what is done to the gates of one of them is done to no other node and to no gates that were
given away. -/
namespace AstSchema

namespace Heap

variable {α β : Type} {h h' : Heap}

theorem bind_eq_ok_iff {x : Making α} {f : α → Making β} {b : β} :
    (x >>= f) h = .ok (b, h') ↔ ∃ a mid, x h = .ok (a, mid) ∧ f a mid = .ok (b, h') := by
  change (do let p ← x h; f p.1 p.2) = _ ↔ _
  rw [AstSchema.bind_eq_ok_iff]
  simp

theorem lift_eq_ok_iff {x : Except Error α} {a : α} :
    (liftM x : Making α) h = .ok (a, h') ↔ x = .ok a ∧ h' = h := by
  change (do let a ← x; return (a, h)) = _ ↔ _
  rw [AstSchema.bind_eq_ok_iff]
  simp [pure, Except.pure, eq_comm]

/-! ## Flags -/

theorem flags_write_of_ne (h : Heap) {a b : Nat} (flags : List Value) (hne : b ≠ a) :
    (h.write a flags).flags b = h.flags b := by
  simp [Heap.flags, write, List.getD_eq_getElem?_getD, List.getElem?_set_ne hne.symm]

theorem flags_write_self (h : Heap) {a : Nat} (flags : List Value) (ha : a < h.cells.length) :
    (h.write a flags).flags a = flags := by
  simp [Heap.flags, write, List.getD_eq_getElem?_getD, ha]

theorem flags_append (h : Heap) {a : Nat} (flags : List Value) (ha : a < h.cells.length) :
    Heap.flags ⟨h.cells ++ [flags]⟩ a = h.flags a := by
  simp [Heap.flags, List.getD_eq_getElem?_getD, List.getElem?_append_left ha]

/-- No gates are held in a flag. -/
def IsPlain (h : Heap) : Prop := ∀ flags ∈ h.cells, ∀ f ∈ flags, f.isGateFree

instance (h : Heap) : Decidable h.IsPlain :=
  inferInstanceAs (Decidable (∀ flags ∈ h.cells, ∀ f ∈ flags, f.isGateFree))

theorem IsPlain.flags (hplain : h.IsPlain) (a : Nat) : ∀ f ∈ h.flags a, f.isGateFree := by
  rw [Heap.flags, List.getD_eq_getElem?_getD]
  cases hcell : h.cells[a]? with
  | none => simp
  | some flags => exact hplain flags (List.mem_of_getElem? hcell)

/-! ## What is made -/

theorem eq_of_settling_tuple {v w : Value} (hrun : settling.tuple v h = .ok (w, h')) : h' = h := by
  obtain ⟨_, mid, hget, hrun⟩ := bind_eq_ok_iff.1 hrun
  obtain ⟨rfl, rfl⟩ := Prod.mk.inj (Except.ok.inj hget)
  exact (lift_eq_ok_iff.1 hrun).2

/-- The flags that gates have when a node is made with them. -/
def givenFlags (h : Heap) (v : Value) : Except Error (List Value) := do
  Features.ofValue (← (h.view v).field "flags")

theorem settling_gates_eq_ok {v w : Value} (hrun : settling.gates v h = .ok (w, h')) :
    ∃ flags, h.givenFlags v = .ok flags ∧ w = .gatesAt .features h.cells.length ∧
      h' = ⟨h.cells ++ [flags]⟩ := by
  obtain ⟨_, _, hget, hfield⟩ := bind_eq_ok_iff.1 hrun
  obtain ⟨rfl, rfl⟩ := Prod.mk.inj (Except.ok.inj hget)
  obtain ⟨held, _, hlifted, hread⟩ := bind_eq_ok_iff.1 hfield
  obtain ⟨hheld, rfl⟩ := lift_eq_ok_iff.1 hlifted
  obtain ⟨flags, _, hlifted, hplace⟩ := bind_eq_ok_iff.1 hread
  obtain ⟨hflags, rfl⟩ := lift_eq_ok_iff.1 hlifted
  obtain ⟨rfl, rfl⟩ := Prod.mk.inj (Except.ok.inj hplace)
  exact ⟨flags, AstSchema.bind_eq_ok_iff.2 ⟨held, hheld, hflags⟩, rfl, rfl⟩

/-- Gates by themselves are new, too. -/
theorem make_features_eq_ok {given v : Value} (hrun : make .features [given] h = .ok (v, h')) :
    ∃ flags, Features.ofValue (h.view given) = .ok flags ∧
      v = .gatesAt .features h.cells.length ∧ h' = ⟨h.cells ++ [flags]⟩ := by
  obtain ⟨settled, _, hsettle, hmade⟩ := bind_eq_ok_iff.1 hrun
  obtain ⟨rfl, rfl⟩ := Prod.mk.inj (Except.ok.inj hmade)
  obtain ⟨w, _, hflags, hrest⟩ := bind_eq_ok_iff.1 hsettle
  obtain ⟨rfl, rfl⟩ := Prod.mk.inj (Except.ok.inj hrest)
  obtain ⟨_, _, hget, hread⟩ := bind_eq_ok_iff.1 hflags
  obtain ⟨rfl, rfl⟩ := Prod.mk.inj (Except.ok.inj hget)
  obtain ⟨flags, _, hlifted, hplace⟩ := bind_eq_ok_iff.1 hread
  obtain ⟨hgiven, rfl⟩ := lift_eq_ok_iff.1 hlifted
  obtain ⟨rfl, rfl⟩ := Prod.mk.inj (Except.ok.inj hplace)
  exact ⟨flags, hgiven, rfl, rfl⟩

/-- The gates among these fields are new ones, with the flags of those that were given. -/
structure OwnsGates (h h' : Heap) (cls : Class) (given settled : List Value) : Prop where
  length_eq : settled.length = cls.fields.length
  gates_eq : (cls.fieldNames.zip settled).lookup "features" =
    some (.gatesAt .features h.cells.length)
  heap_eq : ∃ gates flags, (cls.fieldNames.zip given).lookup "features" = some gates ∧
    h.givenFlags gates = .ok flags ∧ h' = ⟨h.cells ++ [flags]⟩

section

variable {cls : Class} {given mid settled : List Value}

theorem ownsGates_of_revise (hnode : cls.IsNode) (hlen : given.length = cls.fields.length)
    (hrun : Class.revise "features" settling.gates cls.fields given h = .ok (settled, h')) :
    OwnsGates h h' cls given settled := by
  have hnames : given.length = cls.fieldNames.length := by
    rw [hlen, Class.fieldNames, List.length_map]
  obtain ⟨gates, hgates⟩ := Class.exists_lookup_zip hnode.hasFeatures hnames
  rw [Class.revise_of_lookup hgates, map_eq_pure_bind] at hrun
  obtain ⟨new, _, hnew, hrun⟩ := bind_eq_ok_iff.1 hrun
  obtain ⟨rfl, rfl⟩ := Prod.mk.inj (Except.ok.inj hrun)
  obtain ⟨flags, hflags, rfl, rfl⟩ := settling_gates_eq_ok hnew
  refine ⟨(Class.length_replaceFirst ..).trans hlen, ?_, gates, flags, hgates, hflags, rfl⟩
  exact (Class.lookup_replaceFirst ..).trans (congrArg _ hgates)

/-- A tuple is made of another field, and makes no gates. -/
theorem OwnsGates.tuple {last : List Value} {name : String} {mid' : Heap}
    (howns : OwnsGates h mid' cls given settled) (hne : "features" ≠ name)
    (hrun : Class.revise name settling.tuple cls.fields settled mid' = .ok (last, h')) :
    OwnsGates h h' cls given last := by
  cases hold : (cls.fieldNames.zip settled).lookup name with
  | none =>
    rw [Class.revise_of_lookup_none hold] at hrun
    obtain ⟨rfl, rfl⟩ := Prod.mk.inj (Except.ok.inj hrun)
    exact howns
  | some old =>
    rw [Class.revise_of_lookup hold, map_eq_pure_bind] at hrun
    obtain ⟨new, _, hnew, hrun⟩ := bind_eq_ok_iff.1 hrun
    obtain ⟨rfl, rfl⟩ := Prod.mk.inj (Except.ok.inj hrun)
    obtain rfl := eq_of_settling_tuple hnew
    refine ⟨(Class.length_replaceFirst ..).trans howns.length_eq, ?_, howns.heap_eq⟩
    exact (Class.lookup_replaceFirst ..).trans
      ((congrArg _ howns.gates_eq).trans (by simp [beq_false_of_ne hne]))

/-- The gates of a node are settled first, and no later step makes others. -/
theorem ownsGates_of_settleBy (hnode : cls.IsNode) (hlen : given.length = cls.fields.length)
    (hrun : cls.settleBy settling given h = .ok (settled, h')) :
    OwnsGates h h' cls given settled := by
  have hlater : ∀ name, "features" ≠ name →
      (Class.revise "features" settling.gates cls.fields given >>=
        Class.revise name settling.tuple cls.fields) h = .ok (settled, h') →
      OwnsGates h h' cls given settled := by
    intro name hne hsteps
    obtain ⟨_, _, hgates, hlast⟩ := bind_eq_ok_iff.1 hsteps
    exact (ownsGates_of_revise hnode hlen hgates).tuple hne hlast
  have hrole := hnode.family_eq
  rw [Class.settleBy] at hrun
  cases hcls : cls.role with
  | node =>
    rw [hcls] at hrun
    exact ownsGates_of_revise hnode hlen hrun
  | struct =>
    rw [hcls] at hrun
    exact hlater "fields" (by decide) hrun
  | enum =>
    rw [hcls] at hrun
    exact hlater "variants" (by decide) hrun
  | _ =>
    rw [Class.family, hcls] at hrole
    contradiction

theorem ownsGates_of_make {v : Value} (hnode : cls.IsNode) (hlen : given.length = cls.fields.length)
    (hrun : make cls given h = .ok (v, h')) :
    ∃ settled, v = .object cls settled ∧ OwnsGates h h' cls given settled := by
  obtain ⟨settled, _, hsettle, hrun⟩ := bind_eq_ok_iff.1 hrun
  obtain ⟨rfl, rfl⟩ := Prod.mk.inj (Except.ok.inj hrun)
  exact ⟨settled, rfl, ownsGates_of_settleBy hnode hlen hsettle⟩

end

end Heap

/-! ## Nodes as they are held -/

theorem Class.role_ne_features {cls : Class} (h : cls.family = .node) : cls.role ≠ .features := by
  intro hrole
  rw [family, hrole] at h
  contradiction

theorem Value.gatesAt_injective {cls cls' : Class} {a b : Nat}
    (h : Value.gatesAt cls a = .gatesAt cls' b) : a = b := by
  simpa only [gatesAt, object.injEq, List.cons.injEq, and_true, scalar.injEq, Scalar.int.injEq,
    Int.ofNat.injEq] using (object.inj h).2

/-- A node as it is held. It does not change; its gates do, and its address is theirs. -/
structure NodeRef where
  cls : Class
  fields : List Value
  ident : Value
  address : Nat
  isNode : cls.family = .node
  hasFields : fields.length = cls.fields.length
  hasIdent : (Value.object cls fields).field? "ident" = some ident
  hasGates : (Value.object cls fields).field? "features" = some (.gatesAt .features address)

namespace NodeRef

def toValue (r : NodeRef) : Value := .object r.cls r.fields

theorem toValue_injective {r r' : NodeRef} (h : r.toValue = r'.toValue) : r = r' := by
  obtain ⟨cls, fields, ident, address, _, _, hident, hgates⟩ := r
  obtain ⟨cls', fields', ident', address', _, _, hident', hgates'⟩ := r'
  obtain ⟨rfl, rfl⟩ := Value.object.inj h
  obtain rfl := Option.some.inj (hident.symm.trans hident')
  obtain rfl := Value.gatesAt_injective (Option.some.inj (hgates.symm.trans hgates'))
  rfl

/-- The node as it looks. -/
def look (r : NodeRef) (h : Heap) : GatedNode where
  cls := r.cls
  fields := r.fields.map h.view
  ident := h.view r.ident
  flags := h.flags r.address
  isNode := r.isNode
  hasFields := by rw [List.length_map, r.hasFields]
  hasIdent := by rw [Value.field?_map, r.hasIdent, Option.map_some]
  hasFlags := by rw [Value.field?_map, r.hasGates, Option.map_some, h.view_gatesAt]

theorem view_toValue (r : NodeRef) (h : Heap) : h.view r.toValue = (r.look h).toValue :=
  h.view_object (Class.role_ne_features r.isNode) r.fields

end NodeRef

namespace RawNode

theorem isNode_cls (n : RawNode) : n.cls.IsNode := by
  cases n
  · exact .struct
  · exact .enum

theorem family_cls (n : RawNode) : n.cls.family = .node := n.isNode_cls.family_eq

def heldValues (address : Nat) : RawNode → List Value
  | .struct ident _ fields p =>
    [ident, .gatesAt .features address, .tuple (fields.map fieldValue), p]
  | .enum ident _ variants =>
    [ident, .gatesAt .features address, .tuple (variants.map variantValue)]

theorem length_heldValues (n : RawNode) (address : Nat) :
    (n.heldValues address).length = n.cls.fields.length := by
  cases n <;> rfl

theorem field?_ident_heldValues (n : RawNode) (address : Nat) :
    (Value.object n.cls (n.heldValues address)).field? "ident" = some n.ident := by
  cases n <;> rfl

theorem field?_features_heldValues (n : RawNode) (address : Nat) :
    (Value.object n.cls (n.heldValues address)).field? "features" =
      some (.gatesAt .features address) := by
  cases n <;> rfl

/-- The node as it is held, with its gates at an address. -/
def placed (n : RawNode) (address : Nat) : NodeRef where
  cls := n.cls
  fields := n.heldValues address
  ident := n.ident
  address := address
  isNode := n.family_cls
  hasFields := n.length_heldValues address
  hasIdent := n.field?_ident_heldValues address
  hasGates := n.field?_features_heldValues address

/-- A struct without fields. -/
def bare (ident : Value) (flags : List Value) : RawNode := .struct ident flags [] (.bool true)

end RawNode

/-! ## Worlds -/

/-- What a program has made that has gates: gates by themselves, and nodes. -/
inductive Made where
  | gates (address : Nat)
  | node (r : NodeRef)

def Made.address : Made → Nat
  | .gates address => address
  | .node r => r.address

/-- All that was made so far, and some definitions: any of the nodes, in any order and any number of
times. -/
structure World where
  heap : Heap
  made : List Made
  nodes : List NodeRef
  tokens : Value

namespace World

/-- Gates are made of any collection of flags, nodes of any fields. No gates are held in a flag. -/
inductive Makes (w : World) : World → Prop
  | gates {given : Value} {address : Nat} {h : Heap}
      (hmake : Heap.make .features [given] w.heap = .ok (.gatesAt .features address, h))
      (hplain : h.IsPlain) :
      Makes w { w with heap := h, made := w.made ++ [.gates address] }
  | node {given : List Value} {r : NodeRef} {h : Heap} (hcls : r.cls.IsNode)
      (hlen : given.length = r.cls.fields.length)
      (hmake : Heap.make r.cls given w.heap = .ok (r.toValue, h)) (hplain : h.IsPlain) :
      Makes w { w with heap := h, made := w.made ++ [.node r] }

/-- A program starts with nothing made. It makes gates and nodes, it changes the flags of gates that
it has, those of nodes included, and it turns to other definitions. -/
inductive Reached : World → Prop
  | start (tokens : Value) : Reached ⟨⟨[]⟩, [], [], tokens⟩
  | make {w w' : World} (h : Reached w) (hmakes : w.Makes w') : Reached w'
  | change {w : World} {o : Made} {flags : List Value} (h : Reached w) (ho : o ∈ w.made)
      (hplain : ∀ f ∈ flags, f.isGateFree) :
      Reached { w with heap := w.heap.write o.address flags }
  | turn {w : World} {nodes : List NodeRef} (h : Reached w) (tokens : Value)
      (hnodes : ∀ r ∈ nodes, .node r ∈ w.made) : Reached { w with nodes := nodes, tokens := tokens }

/-- All that was made has an address of its own, and nothing else is stored. -/
structure Owned (w : World) : Prop where
  nodup : (w.made.map Made.address).Nodup
  placed : ∀ o ∈ w.made, o.address < w.heap.cells.length
  stored : ∀ r ∈ w.nodes, .node r ∈ w.made
  plain : w.heap.IsPlain

variable {w w' : World}

/-- Whatever it is made of, what is made has an address that was not there before. -/
theorem Makes.exists_placed (h : w.Makes w') :
    ∃ o flags, w' = { w with heap := ⟨w.heap.cells ++ [flags]⟩, made := w.made ++ [o] } ∧
      o.address = w.heap.cells.length ∧ w'.heap.IsPlain := by
  cases h with
  | @gates given address h hmake hplain =>
    obtain ⟨flags, -, hgates, rfl⟩ := Heap.make_features_eq_ok hmake
    exact ⟨.gates address, flags, rfl, Value.gatesAt_injective hgates, hplain⟩
  | @node given r h hcls hlen hmake hplain =>
    obtain ⟨settled, hvalue, howns⟩ := Heap.ownsGates_of_make hcls hlen hmake
    obtain ⟨-, rfl⟩ := Value.object.inj hvalue
    obtain ⟨_, flags, -, -, rfl⟩ := howns.heap_eq
    refine ⟨.node r, flags, rfl, ?_, hplain⟩
    exact Value.gatesAt_injective (Option.some.inj (r.hasGates.symm.trans howns.gates_eq))

theorem Makes.nodes_eq (h : w.Makes w') : w'.nodes = w.nodes := by
  cases h <;> rfl

theorem Owned.makes (ho : w.Owned) (h : w.Makes w') : w'.Owned := by
  obtain ⟨o, flags, rfl, haddress, hplain⟩ := h.exists_placed
  have hnew : o.address ∉ w.made.map Made.address := by
    intro hmem
    obtain ⟨o', ho', heq⟩ := List.mem_map.1 hmem
    have hlt := ho.placed o' ho'
    omega
  refine ⟨?_, ?_, fun r hr => List.mem_append_left _ (ho.stored r hr), hplain⟩
  · rw [List.map_append, List.map_singleton, List.nodup_append_comm]
    exact List.nodup_cons.2 ⟨hnew, ho.nodup⟩
  · simp only [List.forall_mem_append, List.forall_mem_singleton, List.length_append,
      List.length_singleton]
    exact ⟨fun o' ho' => Nat.lt_succ_of_lt (ho.placed o' ho'), by omega⟩

theorem Owned.change (ho : w.Owned) (address : Nat) {flags : List Value}
    (hplain : ∀ f ∈ flags, f.isGateFree) :
    Owned { w with heap := w.heap.write address flags } where
  nodup := ho.nodup
  placed o hmade := by
    rw [Heap.write, List.length_set]
    exact ho.placed o hmade
  stored := ho.stored
  plain cell hcell := by
    obtain hold | rfl := List.mem_or_eq_of_mem_set hcell
    · exact ho.plain cell hold
    · exact hplain

/-- No two things that were made ever have the same gates. -/
theorem Reached.owned (h : w.Reached) : w.Owned := by
  induction h with
  | start => exact ⟨List.nodup_nil, by simp, by simp, by simp [Heap.IsPlain]⟩
  | make _ hmakes ih => exact ih.makes hmakes
  | change _ _ hplain ih => exact ih.change _ hplain
  | turn _ _ hnodes ih => exact ⟨ih.nodup, ih.placed, hnodes, ih.plain⟩

theorem Owned.eq_of_address_eq (ho : w.Owned) {o o' : Made} (h : o ∈ w.made) (h' : o' ∈ w.made)
    (heq : o.address = o'.address) : o = o' :=
  List.inj_on_of_nodup_map ho.nodup h h' heq

/-! ### Structs and enums -/

/-- These nodes were made one after the other. -/
def ofMade (made : List RawNode) (nodes : List NodeRef) : World where
  heap := ⟨made.map (·.flags)⟩
  made := made.zipIdx.map fun m => .node (m.1.placed m.2)
  nodes := nodes
  tokens := .mapping []

variable {made : List RawNode} {nodes : List NodeRef}

theorem makes_placed (w : World) (n : RawNode) (hflags : ∀ f ∈ n.flags, f.isGateFree)
    (hplain : w.heap.IsPlain) :
    w.Makes { w with
      heap := ⟨w.heap.cells ++ [n.flags]⟩
      made := w.made ++ [.node (n.placed w.heap.cells.length)] } := by
  have hgiven : w.heap.viewItems n.flags = n.flags := by
    rw [Heap.viewItems_eq_map]
    exact (List.map_congr_left fun f hf => Heap.view_of_isGateFree (hflags f hf)).trans
      (List.map_id _)
  refine @Makes.node w n.values _ _ n.isNode_cls (by cases n <;> rfl) ?_
    (List.forall_mem_append.2 ⟨hplain, List.forall_mem_singleton.2 hflags⟩)
  have hmake : Heap.make n.cls n.values w.heap = .ok ((n.placed w.heap.cells.length).toValue,
      ⟨w.heap.cells ++ [w.heap.viewItems n.flags]⟩) := by
    cases n <;> rfl
  rwa [hgiven] at hmake

theorem makes_ofMade (nodes : List NodeRef) (n : RawNode)
    (hmade : ∀ m ∈ made, ∀ f ∈ m.flags, f.isGateFree) (hflags : ∀ f ∈ n.flags, f.isGateFree) :
    (ofMade made nodes).Makes (ofMade (made ++ [n]) nodes) := by
  have hmakes := (ofMade made nodes).makes_placed n hflags (List.forall_mem_map.2 hmade)
  simpa [ofMade, List.zipIdx_append] using hmakes

theorem reached_ofMade (hmade : ∀ m ∈ made, ∀ f ∈ m.flags, f.isGateFree)
    (hnodes : ∀ r ∈ nodes, .node r ∈ (ofMade made nodes).made) : (ofMade made nodes).Reached := by
  suffices hreached : (ofMade made []).Reached from hreached.turn _ hnodes
  clear hnodes
  induction made using List.reverseRecOn with
  | nil => exact .start _
  | append_singleton made n ih =>
    obtain ⟨hmade, hn⟩ := List.forall_mem_append.1 hmade
    exact (ih hmade).make (makes_ofMade [] n hmade (List.forall_mem_singleton.1 hn))

end World

end AstSchema
