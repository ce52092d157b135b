import AstSchema.Heap
import AstSchema.Proofs.Equality

/-! How values look in a heap. A look is settled by the gates that a value holds: it changes with
them alone, and a value that holds none looks as it is. -/
namespace AstSchema

namespace Value

mutual
/-- The addresses of all gates that a value holds. -/
def addresses : Value → List Nat
  | .scalar _ => []
  | .list items | .tuple items => addressesOfItems items
  | .mapping entries => addressesOfEntries entries
  | .object cls fields =>
    match (Value.object cls fields).address? with
    | some address => [address]
    | none => addressesOfItems fields
termination_by structural v => v
def addressesOfItems : List Value → List Nat
  | [] => []
  | v :: vs => addresses v ++ addressesOfItems vs
termination_by structural vs => vs
def addressesOfEntries : List (Scalar × Value) → List Nat
  | [] => []
  | (_, v) :: rest => addresses v ++ addressesOfEntries rest
termination_by structural entries => entries
end

mutual
/-- Holds no gates, so no node either. -/
def isGateFree : Value → Bool
  | .scalar _ => true
  | .list items | .tuple items => areGateFree items
  | .mapping entries => areEntriesGateFree entries
  | .object cls fields => cls.role != .features && areGateFree fields
termination_by structural v => v
def areGateFree : List Value → Bool
  | [] => true
  | v :: vs => isGateFree v && areGateFree vs
termination_by structural vs => vs
def areEntriesGateFree : List (Scalar × Value) → Bool
  | [] => true
  | (_, v) :: rest => isGateFree v && areEntriesGateFree rest
termination_by structural entries => entries
end

theorem areGateFree_of_forall {items : List Value} (h : ∀ v ∈ items, v.isGateFree) :
    areGateFree items := by
  induction items with
  | nil => rfl
  | cons v items ih =>
    obtain ⟨hv, hitems⟩ := List.forall_mem_cons.1 h
    rw [areGateFree, hv, ih hitems]
    rfl

theorem areEntriesGateFree_of_forall {entries : List (Scalar × Value)}
    (h : ∀ e ∈ entries, e.2.isGateFree) : areEntriesGateFree entries := by
  induction entries with
  | nil => rfl
  | cons e entries ih =>
    obtain ⟨he, hentries⟩ := List.forall_mem_cons.1 h
    rw [areEntriesGateFree, he, ih hentries]
    rfl

theorem mem_addressesOfItems {items : List Value} {v : Value} {a : Nat} (hv : v ∈ items)
    (ha : a ∈ v.addresses) : a ∈ addressesOfItems items := by
  induction items with
  | nil => contradiction
  | cons w items ih =>
    rw [addressesOfItems, List.mem_append]
    obtain rfl | hv := List.mem_cons.1 hv
    · exact .inl ha
    · exact .inr (ih hv)

theorem mem_addressesOfEntries {entries : List (Scalar × Value)} {e : Scalar × Value} {a : Nat}
    (he : e ∈ entries) (ha : a ∈ e.2.addresses) : a ∈ addressesOfEntries entries := by
  induction entries with
  | nil => contradiction
  | cons entry entries ih =>
    rw [addressesOfEntries, List.mem_append]
    obtain rfl | he := List.mem_cons.1 he
    · exact .inl ha
    · exact .inr (ih he)

theorem isGateFree_of_mem {items : List Value} (h : areGateFree items) :
    ∀ v ∈ items, v.isGateFree := by
  induction items with
  | nil => simp
  | cons v items ih =>
    rw [areGateFree, Bool.and_eq_true] at h
    exact List.forall_mem_cons.2 ⟨h.1, ih h.2⟩

theorem isGateFree_of_mem_entries {entries : List (Scalar × Value)}
    (h : areEntriesGateFree entries) :
    ∀ e ∈ entries, e.2.isGateFree := by
  induction entries with
  | nil => simp
  | cons e entries ih =>
    rw [areEntriesGateFree, Bool.and_eq_true] at h
    exact List.forall_mem_cons.2 ⟨h.1, ih h.2⟩

theorem isGateFree_of_sameItems {as bs : List Value}
    (h : ∀ a ∈ as, ∀ {b : Value}, a.same b → b.isGateFree → a.isGateFree)
    (hab : sameItems as bs) (hbs : areGateFree bs) : areGateFree as := by
  induction as generalizing bs with
  | nil => rfl
  | cons a as ih =>
    cases bs with
    | nil => simp [sameItems] at hab
    | cons b bs =>
      obtain ⟨ha, has⟩ := List.forall_mem_cons.1 h
      simp only [sameItems, areGateFree, Bool.and_eq_true] at hab hbs ⊢
      exact ⟨ha hab.1 hbs.1, ih has hab.2 hbs.2⟩

/-- What is the same as a value that holds no gates holds none. -/
theorem isGateFree_of_same {a b : Value} (hab : a.same b) (hb : b.isGateFree) : a.isGateFree := by
  induction a using Value.induct generalizing b with
  | scalar a => rfl
  | list as ih =>
    cases b with
    | list bs => exact isGateFree_of_sameItems ih hab hb
    | _ => contradiction
  | tuple as ih =>
    cases b with
    | tuple bs => exact isGateFree_of_sameItems ih hab hb
    | _ => contradiction
  | mapping as ih =>
    cases b with
    | mapping bs =>
      simp only [same, Bool.and_eq_true, sameEntries_iff] at hab
      refine areEntriesGateFree_of_forall fun e he => ?_
      obtain ⟨v, hv, hev⟩ := hab.2 e he
      obtain ⟨k, hk, -⟩ := Entries.exists_of_find? hv
      exact ih e he hev (isGateFree_of_mem_entries hb (k, v) hk)
    | _ => contradiction
  | object cls as ih =>
    cases b with
    | object d bs =>
      simp only [same, isGateFree, Bool.and_eq_true, beq_iff_eq] at hab hb ⊢
      exact ⟨hab.1 ▸ hb.1, isGateFree_of_sameItems ih hab.2 hb.2⟩
    | _ => contradiction

/-- Only objects that are gates have an address. -/
theorem address?_of_role_ne {cls : Class} (h : cls.role ≠ .features) (fields : List Value) :
    (Value.object cls fields).address? = none := by
  unfold address?
  split
  next heq =>
    rw [(Value.object.inj heq).1] at h
    contradiction
  next => rfl

theorem field?_map (f : Value → Value) (cls : Class) (fields : List Value) (name : String) :
    (Value.object cls (fields.map f)).field? name =
      ((Value.object cls fields).field? name).map f := by
  have hlookup : ∀ names : List String,
      (names.zip (fields.map f)).lookup name = ((names.zip fields).lookup name).map f := by
    intro names
    induction names generalizing fields with
    | nil => rfl
    | cons n names ih =>
      cases fields with
      | nil => rfl
      | cons v vs =>
        rw [List.map_cons, List.zip_cons_cons, List.zip_cons_cons, List.lookup_cons,
          List.lookup_cons, ih]
        split <;> rfl
  exact hlookup _

end Value

namespace Heap

variable {h h' : Heap}

theorem viewItems_eq_map (h : Heap) (items : List Value) :
    h.viewItems items = items.map h.view := by
  induction items with
  | nil => rfl
  | cons v items ih => rw [viewItems, ih, List.map_cons]

theorem viewEntries_eq_map (h : Heap) (entries : List (Scalar × Value)) :
    h.viewEntries entries = entries.map fun e => (e.1, h.view e.2) := by
  induction entries with
  | nil => rfl
  | cons e entries ih => rw [viewEntries, ih, List.map_cons]

theorem view_gatesAt (h : Heap) (address : Nat) :
    h.view (.gatesAt .features address) = Features.toValue (h.flags address) := rfl

theorem view_object (h : Heap) {cls : Class} (hrole : cls.role ≠ .features) (fields : List Value) :
    h.view (.object cls fields) = .object cls (fields.map h.view) := by
  rw [view, Value.address?_of_role_ne hrole, viewItems_eq_map]

/-- Two heaps give a value the same look if the gates that it holds have the same flags in both. -/
theorem view_congr {v : Value} (hflags : ∀ a ∈ v.addresses, h.flags a = h'.flags a) :
    h.view v = h'.view v := by
  have hitems : ∀ items : List Value,
      (∀ v ∈ items, (∀ a ∈ v.addresses, h.flags a = h'.flags a) → h.view v = h'.view v) →
      (∀ a ∈ Value.addressesOfItems items, h.flags a = h'.flags a) →
      items.map h.view = items.map h'.view := by
    intro items ih hall
    exact List.map_congr_left fun v hv =>
      ih v hv fun a ha => hall a (Value.mem_addressesOfItems hv ha)
  induction v using Value.induct with
  | scalar s => rfl
  | list items ih =>
    rw [view, view, viewItems_eq_map, viewItems_eq_map, hitems items ih hflags]
  | tuple items ih =>
    rw [view, view, viewItems_eq_map, viewItems_eq_map, hitems items ih hflags]
  | mapping entries ih =>
    rw [view, view, viewEntries_eq_map, viewEntries_eq_map]
    exact congrArg Value.mapping <| List.map_congr_left fun e he =>
      congrArg (e.1, ·) <| ih e he fun a ha => hflags a (Value.mem_addressesOfEntries he ha)
  | object cls fields ih =>
    unfold Value.addresses at hflags
    rw [view, view]
    cases haddress : (Value.object cls fields).address? with
    | some address =>
      rw [haddress] at hflags
      simp only [hflags address List.mem_cons_self]
    | none =>
      rw [haddress] at hflags
      simp only [viewItems_eq_map, hitems fields ih hflags]

theorem view_of_isGateFree {v : Value} (hv : v.isGateFree) : h.view v = v := by
  have hitems : ∀ items : List Value, (∀ v ∈ items, v.isGateFree → h.view v = v) →
      Value.areGateFree items → items.map h.view = items := by
    intro items ih hall
    have hsame : ∀ v ∈ items, h.view v = id v := fun v hv =>
      ih v hv (Value.isGateFree_of_mem hall v hv)
    rw [List.map_congr_left hsame, List.map_id]
  induction v using Value.induct with
  | scalar s => rfl
  | list items ih => rw [view, viewItems_eq_map, hitems items ih hv]
  | tuple items ih => rw [view, viewItems_eq_map, hitems items ih hv]
  | mapping entries ih =>
    have hsame : ∀ e ∈ entries, (e.1, h.view e.2) = id e := fun e he =>
      Prod.ext rfl (ih e he (Value.isGateFree_of_mem_entries hv e he))
    rw [view, viewEntries_eq_map, List.map_congr_left hsame, List.map_id]
  | object cls fields ih =>
    rw [Value.isGateFree, Bool.and_eq_true, bne_iff_ne] at hv
    rw [view_object h hv.1, hitems fields ih hv.2]

/-- Gates look like gates, so a look without them is that of a value that holds none. -/
theorem isGateFree_of_view {v : Value} (hv : (h.view v).isGateFree) : v.isGateFree := by
  have hitems : ∀ items : List Value, (∀ v ∈ items, (h.view v).isGateFree → v.isGateFree) →
      Value.areGateFree (items.map h.view) → Value.areGateFree items := by
    intro items ih hall
    refine Value.areGateFree_of_forall fun v hv => ih v hv ?_
    exact Value.isGateFree_of_mem hall _ (List.mem_map_of_mem hv)
  induction v using Value.induct with
  | scalar s => rfl
  | list items ih =>
    rw [view, viewItems_eq_map] at hv
    exact hitems items ih hv
  | tuple items ih =>
    rw [view, viewItems_eq_map] at hv
    exact hitems items ih hv
  | mapping entries ih =>
    rw [view, viewEntries_eq_map] at hv
    refine Value.areEntriesGateFree_of_forall fun e he => ih e he ?_
    exact Value.isGateFree_of_mem_entries hv _ (List.mem_map_of_mem he)
  | object cls fields ih =>
    by_cases hrole : cls.role = .features
    · rw [view] at hv
      cases haddress : (Value.object cls fields).address? <;>
        simp [haddress, Value.isGateFree, hrole] at hv
    · rw [view_object h hrole, Value.isGateFree, Bool.and_eq_true] at hv
      rw [Value.isGateFree, hv.1, hitems fields ih hv.2]
      rfl

theorem view_eq_of_isGateFree {v : Value} (hv : (h.view v).isGateFree) : h.view v = h'.view v := by
  have hv := isGateFree_of_view hv
  rw [view_of_isGateFree hv, view_of_isGateFree hv]

/-- Flags do not decide whether a look equals a value that holds no gates. -/
theorem equal_view_of_isGateFree (v : Value) {ident : Value} (hident : ident.isGateFree) :
    (h.view v).equal ident = (h'.view v).equal ident := by
  have hlooks : ∀ {h h' : Heap}, (h.view v).equal ident → (h'.view v).equal ident := by
    intro h h' hequal
    rw [Value.equal, Bool.and_eq_true] at hequal
    have hv := isGateFree_of_view (Value.isGateFree_of_same hequal.1 hident)
    rw [view_of_isGateFree hv] at hequal ⊢
    rwa [Value.equal, Bool.and_eq_true]
  rw [Bool.eq_iff_iff]
  exact ⟨hlooks, hlooks⟩

end Heap

end AstSchema
