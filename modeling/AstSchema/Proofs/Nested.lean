import AstSchema.Proofs.RegistryCodec
import AstSchema.Proofs.Resolution
import Mathlib.Data.List.Flatten

/-! The types that stand in a type, whatever its class. The codec finds them by the shapes of the
fields. The walk goes by the built-in class that was extended and opens one field of it, so it
passes over the types in any other field, and validation over the items in there. -/
namespace AstSchema

section

variable {α β : Type} {as bs : List α} {f g : α → List β}

theorem flatMap_sublist_flatMap (h : as.Sublist bs) (hfg : ∀ a ∈ as, (f a).Sublist (g a)) :
    (as.flatMap f).Sublist (bs.flatMap g) :=
  (List.Sublist.flatMap_right as hfg).trans (h.flatMap g)

theorem flatMap_filter {p : α → Bool} (h : ∀ a, ¬ p a → f a = []) :
    (as.filter p).flatMap f = as.flatMap f := by
  induction as with
  | nil => rfl
  | cons a as ih =>
    by_cases ha : p a
    · rw [List.filter_cons_of_pos ha, List.flatMap_cons, List.flatMap_cons, ih]
    · rw [List.filter_cons_of_neg ha, List.flatMap_cons, h a ha, ih, List.nil_append]

/-- If nothing is lost on the whole, then no row is left out and nothing is lost in any row. -/
theorem eq_of_flatMap_eq (h : as.Sublist bs) (hfg : ∀ a ∈ as, (f a).Sublist (g a))
    (hne : ∀ b ∈ bs, g b ≠ []) (heq : as.flatMap f = bs.flatMap g) :
    as = bs ∧ ∀ a ∈ as, f a = g a := by
  have hlength := (congrArg List.length heq).ge
  clear heq
  induction h with
  | slnil => exact ⟨rfl, by simp⟩
  | @cons as bs b h ih =>
    have hrows := (flatMap_sublist_flatMap h hfg).length_le
    have hb := List.length_pos_iff.2 (hne b List.mem_cons_self)
    rw [List.flatMap_cons, List.length_append] at hlength
    omega
  | @cons_cons as bs a h ih =>
    obtain ⟨ha, has⟩ := List.forall_mem_cons.1 hfg
    have hrows := (flatMap_sublist_flatMap h has).length_le
    have hrow := ha.length_le
    rw [List.flatMap_cons, List.flatMap_cons, List.length_append, List.length_append] at hlength
    obtain ⟨rfl, hsame⟩ := ih has (List.forall_mem_cons.1 hne).2 (by omega)
    exact ⟨rfl, List.forall_mem_cons.2 ⟨ha.eq_of_length (by omega), hsame⟩⟩

end

/-! ## Types within a type -/

/-- The types that a field of this shape holds. -/
def Shape.held : Shape → Value → List Value
  | .type, v => [v]
  | .types, .tuple items => items
  | _, _ => []

def Shape.isPlain : Shape → Bool
  | .type | .types => false
  | _ => true

namespace Nesting

/-- The field that the walk goes on to, and the shape that it takes it to be of. -/
def field? : Nesting → Option (String × Shape)
  | .none => .none
  | .one name => some (name, .type)
  | .row name => some (name, .types)

/-- The types that the walk finds among fields with these values. -/
def held (nesting : Nesting) (value? : String → Option Value) : List Value :=
  nesting.field?.elim [] fun (name, shape) => (value? name).elim [] shape.held

/-- No field holds types but the one that the walk goes on to, which is of the shape that it takes it
to be of. -/
def covers (nesting : Nesting) : List FieldSpec → Bool
  | [] => true
  | spec :: specs =>
    if nesting.field?.any (·.1 == spec.name) then
      nesting.field? == some (spec.name, spec.shape) && specs.all (·.shape.isPlain)
    else spec.shape.isPlain && nesting.covers specs

end Nesting

namespace Value

def isObject : Value → Bool
  | .object .. => true
  | _ => false

/-- The types that stand in the fields of a type. -/
def nested : Value → List Value
  | .object cls fields => (cls.fields.zip fields).flatMap fun p => p.1.shape.held p.2
  | _ => []

/-- The types that the walk goes on to. -/
def opened (v : Value) : List Value :=
  match v with
  | .object cls _ => cls.role.nesting.held v.field?
  | _ => []

mutual
/-- A type and every type that stands in it at any depth, the outer ones first and the others from
left to right. -/
def within : Value → List Value
  | .object cls fields => .object cls fields :: withinFields cls.fields fields
  | _ => []
termination_by structural v => v
def withinFields : List FieldSpec → List Value → List Value
  | spec :: specs, v :: vs =>
    match spec.shape with
    | .type => within v ++ withinFields specs vs
    | .types => withinRow v ++ withinFields specs vs
    | _ => withinFields specs vs
  | _, _ => []
termination_by structural _ vs => vs
def withinRow : Value → List Value
  | .tuple items => withinItems items
  | _ => []
termination_by structural v => v
def withinItems : List Value → List Value
  | [] => []
  | v :: vs => within v ++ withinItems vs
termination_by structural vs => vs
end

theorem withinItems_eq_flatMap (vs : List Value) : withinItems vs = vs.flatMap within := by
  induction vs with
  | nil => rfl
  | cons v vs ih => rw [withinItems, ih, List.flatMap_cons]

theorem withinRow_eq_flatMap (v : Value) :
    withinRow v = (Shape.types.held v).flatMap within := by
  cases v with
  | tuple items => exact withinItems_eq_flatMap items
  | _ => rfl

theorem withinFields_eq_flatMap (specs : List FieldSpec) (vs : List Value) :
    withinFields specs vs =
      ((specs.zip vs).flatMap fun p => p.1.shape.held p.2).flatMap within := by
  induction specs generalizing vs with
  | nil => cases vs <;> rfl
  | cons spec specs ih =>
    cases vs with
    | nil => rfl
    | cons v vs =>
      rw [withinFields, ih, withinRow_eq_flatMap, List.zip_cons_cons, List.flatMap_cons,
        List.flatMap_append]
      cases spec.shape with
      | type => rw [Shape.held, List.flatMap_singleton]
      | _ => rfl

theorem within_object (cls : Class) (fields : List Value) :
    (object cls fields).within =
      .object cls fields :: (object cls fields).nested.flatMap within := by
  rw [within, withinFields_eq_flatMap, nested]

theorem walkRow_eq_flatMap (v : Value) : walkRow v = (Shape.types.held v).flatMap walk := by
  cases v with
  | tuple items => exact walkItems_eq_flatMap items
  | _ => rfl

theorem walkNested_eq_flatMap (nesting : Nesting) (specs : List FieldSpec) (vs : List Value) :
    walkNested nesting specs vs =
      (nesting.held fun name => ((specs.map (·.name)).zip vs).lookup name).flatMap walk := by
  induction specs generalizing vs with
  | nil => cases vs <;> cases nesting <;> rfl
  | cons spec specs ih =>
    cases vs with
    | nil => cases nesting <;> rfl
    | cons v vs =>
      cases nesting with
      | none => rfl
      | one name =>
        simp only [walkNested, ih, Nesting.held, Nesting.field?, Option.elim_some, List.map_cons,
          List.zip_cons_cons, List.lookup_cons, BEq.comm (a := name)]
        cases spec.name == name
        · rfl
        · exact (List.flatMap_singleton walk v).symm
      | row name =>
        simp only [walkNested, ih, Nesting.held, Nesting.field?, Option.elim_some, List.map_cons,
          List.zip_cons_cons, List.lookup_cons, BEq.comm (a := name)]
        cases spec.name == name
        · rfl
        · exact walkRow_eq_flatMap v

theorem held_of_isPlain {shape : Shape} (h : shape.isPlain) (v : Value) : shape.held v = [] := by
  cases shape <;> first | contradiction | rfl

/-- What the walk finds among fields that it covers are all types in them. -/
theorem held_of_covers {nesting : Nesting} {specs : List FieldSpec} (h : nesting.covers specs)
    (vs : List Value) :
    ((specs.zip vs).flatMap fun p => p.1.shape.held p.2) =
      nesting.held fun name => ((specs.map (·.name)).zip vs).lookup name := by
  induction specs generalizing vs with
  | nil =>
    cases vs <;> cases nesting <;> rfl
  | cons spec specs ih =>
    cases vs with
    | nil => cases nesting <;> rfl
    | cons v vs =>
      rw [List.zip_cons_cons, List.flatMap_cons, Nesting.held, List.map_cons, List.zip_cons_cons]
      rw [Nesting.covers] at h
      split at h
      next =>
        rw [Bool.and_eq_true, List.all_eq_true] at h
        obtain ⟨hfield, hplain⟩ := h
        have hrest : ((specs.zip vs).flatMap fun p => p.1.shape.held p.2) = [] :=
          List.flatMap_eq_nil_iff.2 fun p hp => held_of_isPlain (hplain p.1 (List.of_mem_zip hp).1) p.2
        rw [hrest, beq_iff_eq.1 hfield]
        simp
      next hname =>
        rw [Bool.and_eq_true] at h
        rw [held_of_isPlain h.1, List.nil_append, ih h.2, Nesting.held]
        cases hfield : nesting.field? with
        | none => rfl
        | some field =>
          have hne : (field.1 == spec.name) = false := by simpa [hfield] using hname
          simp [List.lookup_cons, hne]

theorem opened_of_covers {cls : Class} (h : cls.role.nesting.covers cls.fields)
    (fields : List Value) : (object cls fields).opened = (object cls fields).nested :=
  (held_of_covers h fields).symm

theorem walk_object (cls : Class) (fields : List Value) :
    (object cls fields).walk =
      .object cls fields :: (object cls fields).opened.flatMap walk := by
  rw [walk, walkNested_eq_flatMap]
  rfl

theorem filter_walk_of_not_isObject {v : Value} (h : ¬ v.isObject) :
    v.walk.filter isObject = [] := by
  cases v with
  | object cls fields => exact absurd rfl h
  | _ => rfl

/-- The names of all items within a type. -/
def namesWithin (v : Value) : List Value := v.within.filterMap Validate.itemName?

theorem mem_of_field? {cls : Class} {fields : List Value} {name : String} {v : Value}
    (h : (object cls fields).field? name = some v) :
    ∃ spec, (spec, v) ∈ cls.fields.zip fields := by
  have hmem : (name, v) ∈ (cls.fields.map (·.name)).zip fields := Entries.mem_of_lookup h
  rw [List.zip_map_left, List.mem_map] at hmem
  obtain ⟨⟨spec, v⟩, hmem, heq⟩ := hmem
  obtain ⟨rfl, rfl⟩ := Prod.mk.inj heq
  exact ⟨spec, hmem⟩

theorem isSome_fingerprints? {vs : List Value} (h : ∀ v ∈ vs, v.isHashable) :
    (fingerprints? vs).isSome := by
  induction vs with
  | nil => rfl
  | cons v vs ih =>
    obtain ⟨hv, hvs⟩ := List.forall_mem_cons.1 h
    obtain ⟨_, hv⟩ := Option.isSome_iff_exists.1 hv
    obtain ⟨_, hvs⟩ := Option.isSome_iff_exists.1 (ih hvs)
    rw [fingerprints?, hv, hvs]
    rfl

theorem isSome_fieldFingerprints? {specs : List FieldSpec} {vs : List Value}
    (h : ∀ p ∈ specs.zip vs, p.2.isHashable) : (fieldFingerprints? specs vs).isSome := by
  induction specs generalizing vs with
  | nil => cases vs <;> rfl
  | cons spec specs ih =>
    cases vs with
    | nil => rfl
    | cons v vs =>
      rw [List.zip_cons_cons, List.forall_mem_cons] at h
      obtain ⟨_, hv⟩ := Option.isSome_iff_exists.1 h.1
      obtain ⟨_, hvs⟩ := Option.isSome_iff_exists.1 (ih h.2)
      rw [fieldFingerprints?, hv, hvs]
      split <;> rfl

/-- A type can be looked up if all its fields can. -/
theorem isHashable_object {cls : Class} {fields : List Value} (hfamily : cls.family = .type)
    (h : ∀ p ∈ cls.fields.zip fields, p.2.isHashable) : (object cls fields).isHashable := by
  obtain ⟨_, hfields⟩ := Option.isSome_iff_exists.1 (isSome_fieldFingerprints? h)
  rw [isHashable, fingerprint?, hfields]
  rw [Class.family] at hfamily
  cases hrole : cls.role with
  | features | definitions | report =>
    rw [hrole] at hfamily
    contradiction
  | _ => rfl

end Value

/-! ## Well-typed values -/

namespace Registry

open Value

/-- What a field of this shape can hold: a text, an object of a registered class of types with a
value for each field that is of its shape, or a tuple of such objects. -/
inductive WellTyped (r : Registry) : Shape → Value → Prop
  | text (s : String) : WellTyped r .text (.text s)
  | type {tag : Scalar} {cls : Class} {fields : List Value} (hfamily : cls.family = .type)
      (hregistered : r.type? tag = some cls) (hlength : fields.length = cls.fields.length)
      (hfields : ∀ p ∈ cls.fields.zip fields, WellTyped r p.1.shape p.2) :
      WellTyped r .type (.object cls fields)
  | types {vs : List Value} (h : ∀ v ∈ vs, WellTyped r .type v) : WellTyped r .types (.tuple vs)

namespace WellTyped

variable {r : Registry} {shape : Shape} {v t : Value}

theorem of_mem_held (h : r.WellTyped shape v) (ht : t ∈ shape.held v) : r.WellTyped .type t := by
  cases h with
  | text s => contradiction
  | type hfamily hregistered hlength hfields =>
    obtain rfl := List.mem_singleton.1 ht
    exact .type hfamily hregistered hlength hfields
  | types h => exact h t ht

theorem of_mem_nested (h : r.WellTyped .type v) (ht : t ∈ v.nested) : r.WellTyped .type t := by
  cases h with
  | type _ _ _ hfields =>
    obtain ⟨p, hp, ht⟩ := List.mem_flatMap.1 ht
    exact (hfields p hp).of_mem_held ht

theorem exists_object (h : r.WellTyped .type v) : ∃ cls fields, v = .object cls fields := by
  cases h
  exact ⟨_, _, rfl⟩

theorem isObject (h : r.WellTyped .type v) : v.isObject := by
  obtain ⟨cls, fields, rfl⟩ := h.exists_object
  rfl

theorem within_eq_cons (h : r.WellTyped .type v) : v.within = v :: v.nested.flatMap within := by
  obtain ⟨cls, fields, rfl⟩ := h.exists_object
  exact within_object cls fields

theorem walk_eq_cons (h : r.WellTyped .type v) : v.walk = v :: v.opened.flatMap walk := by
  obtain ⟨cls, fields, rfl⟩ := h.exists_object
  exact walk_object cls fields

/-- Induction over the types that stand in the fields of a type. -/
@[elab_as_elim]
theorem induct {motive : ∀ v, r.WellTyped .type v → Prop}
    (step : ∀ v (h : r.WellTyped .type v),
      (∀ t (ht : t ∈ v.nested), motive t (h.of_mem_nested ht)) → motive v h)
    (h : r.WellTyped .type v) : motive v h := by
  have hheld : ∀ {shape v} (h : r.WellTyped shape v), ∀ t (ht : t ∈ shape.held v),
      motive t (h.of_mem_held ht) := by
    intro shape v h
    induction h with
    | text s => exact fun t ht => nomatch ht
    | type hfamily hregistered hlength hfields ih =>
      intro t ht
      obtain rfl := List.mem_singleton.1 ht
      refine step _ (.type hfamily hregistered hlength hfields) fun t ht => ?_
      obtain ⟨p, hp, ht⟩ := List.mem_flatMap.1 ht
      exact ih p hp t ht
    | types h ih => exact fun t ht => ih t ht t (List.mem_singleton_self t)
  exact hheld h v (List.mem_singleton_self v)

theorem of_mem_within (h : r.WellTyped .type v) (ht : t ∈ v.within) : r.WellTyped .type t := by
  induction h using induct with
  | step v h ih =>
    rw [h.within_eq_cons, List.mem_cons, List.mem_flatMap] at ht
    obtain rfl | ⟨s, hs, ht⟩ := ht
    · exact h
    · exact ih s hs ht

/-! ### The walk -/

/-- Read as of whatever shape, a value does not hold objects that it does not hold as of its own. -/
theorem filter_held_sublist (h : r.WellTyped shape v) (other : Shape) :
    ((other.held v).filter Value.isObject).Sublist (shape.held v) := by
  cases h with
  | text s => cases other <;> simp [Shape.held, Value.isObject]
  | type => cases other <;> simp [Shape.held, Value.isObject]
  | types => cases other <;> simp [Shape.held, Value.isObject]

/-- A field may have been declared again with another shape, so the walk can come by a text or a
tuple. But it goes on to no type that does not stand in a field. -/
theorem filter_opened_sublist (h : r.WellTyped .type v) :
    (v.opened.filter Value.isObject).Sublist v.nested := by
  cases h with
  | @type _ cls fields _ _ _ hfields =>
    have hfield (name : String) (other : Shape) :
        ((((object cls fields).field? name).elim [] other.held).filter Value.isObject).Sublist
          (object cls fields).nested := by
      cases hv : (object cls fields).field? name with
      | none => exact List.nil_sublist _
      | some v =>
        obtain ⟨spec, hmem⟩ := mem_of_field? hv
        have hheld : (spec.shape.held v).Sublist (object cls fields).nested := by
          simpa [nested] using (List.singleton_sublist.2 hmem).flatMap fun p => p.1.shape.held p.2
        exact ((hfields _ hmem).filter_held_sublist other).trans hheld
    rw [opened]
    cases cls.role.nesting with
    | none => exact List.nil_sublist _
    | one name => exact hfield name .type
    | row name => exact hfield name .types

/-- The walk does not make up a type. -/
theorem filter_walk_sublist (h : r.WellTyped .type v) :
    (v.walk.filter Value.isObject).Sublist v.within := by
  induction h using induct with
  | step v h ih =>
    have hopened := h.filter_opened_sublist
    rw [h.walk_eq_cons, h.within_eq_cons, List.filter_cons_of_pos h.isObject, List.filter_flatMap,
      ← flatMap_filter fun t => filter_walk_of_not_isObject]
    exact (flatMap_sublist_flatMap hopened fun t ht => ih t (hopened.subset ht)).cons_cons _

/-- A walk that meets every type goes on to all that stand in the fields, and it meets every type in
each of them. -/
theorem opened_eq_nested (h : r.WellTyped .type v) (heq : v.walk = v.within) :
    v.opened = v.nested ∧ ∀ t ∈ v.nested, t.walk = t.within := by
  -- Nothing but types is met, so the filters of the lemmas before have nothing to leave out.
  have hobjects : ∀ t ∈ v.opened, ∀ s ∈ t.walk, s.isObject := by
    intro t ht s hs
    have hmem : s ∈ v.walk := by
      rw [h.walk_eq_cons]
      exact List.mem_cons_of_mem _ (List.mem_flatMap.2 ⟨t, ht, hs⟩)
    exact (h.of_mem_within (heq ▸ hmem)).isObject
  have hopened := h.filter_opened_sublist
  rw [List.filter_eq_self.2 fun t ht => hobjects t ht t (mem_walk_self t)] at hopened
  have hwalks : ∀ t ∈ v.opened, t.walk.Sublist t.within := by
    intro t ht
    have hwalk := (h.of_mem_nested (hopened.subset ht)).filter_walk_sublist
    rwa [List.filter_eq_self.2 (hobjects t ht)] at hwalk
  have hne : ∀ t ∈ v.nested, t.within ≠ [] := by
    intro t ht
    rw [(h.of_mem_nested ht).within_eq_cons]
    exact List.cons_ne_nil _ _
  rw [h.walk_eq_cons, h.within_eq_cons] at heq
  obtain ⟨hsame, hequal⟩ := eq_of_flatMap_eq hopened hwalks hne (List.cons.inj heq).2
  exact ⟨hsame, hsame ▸ hequal⟩

/-- The walk meets every type exactly if it goes on to all that stand in the fields of each. -/
theorem walk_eq_within_iff (h : r.WellTyped .type v) :
    v.walk = v.within ↔ ∀ t ∈ v.within, t.opened = t.nested := by
  induction h using induct with
  | step v h ih =>
    rw [h.within_eq_cons, List.forall_mem_cons, ← h.within_eq_cons]
    constructor
    · intro heq
      obtain ⟨hsame, hequal⟩ := h.opened_eq_nested heq
      refine ⟨hsame, fun t ht => ?_⟩
      obtain ⟨s, hs, ht⟩ := List.mem_flatMap.1 ht
      exact (ih s hs).1 (hequal s hs) t ht
    · rintro ⟨hsame, hrest⟩
      have hequal : ∀ t ∈ v.nested, t.walk = t.within := fun t ht =>
        (ih t ht).2 fun s hs => hrest s (List.mem_flatMap.2 ⟨t, ht, hs⟩)
      rw [h.walk_eq_cons, h.within_eq_cons, hsame, List.flatMap_congr hequal]

/-- The walk meets every type if it covers the fields of all registered classes. -/
theorem walk_eq_within (h : r.WellTyped .type v)
    (hcovers : ∀ tag cls, r.type? tag = some cls → cls.role.nesting.covers cls.fields) :
    v.walk = v.within := by
  refine h.walk_eq_within_iff.2 fun t ht => ?_
  cases h.of_mem_within ht with
  | type _ hregistered _ _ => exact opened_of_covers (hcovers _ _ hregistered) _

example : ∀ cls ∈ Class.builtinTypes, cls.role.nesting.covers cls.fields := by decide

/-! ### Look-ups -/

theorem isHashable (h : r.WellTyped shape v) : v.isHashable := by
  induction h with
  | text s => rfl
  | type hfamily _ _ _ ih => exact isHashable_object hfamily ih
  | types _ ih =>
    obtain ⟨_, hitems⟩ := Option.isSome_iff_exists.1 (isSome_fingerprints? ih)
    rw [Value.isHashable, fingerprint?, hitems]
    rfl

theorem isHashable_of_mem_namesWithin {name : Value} (h : r.WellTyped .type v)
    (hname : name ∈ v.namesWithin) : name.isHashable := by
  obtain ⟨t, ht, hname⟩ := List.mem_filterMap.1 hname
  cases h.of_mem_within ht with
  | type _ _ _ hfields =>
    unfold Validate.itemName? at hname
    split at hname
    next =>
      obtain ⟨spec, hmem⟩ := mem_of_field? hname
      exact (hfields _ hmem).isHashable
    next => contradiction

/-- The names that the walk comes by are among those of all items. -/
theorem itemNames_sublist (h : r.WellTyped .type v) : v.itemNames.Sublist v.namesWithin := by
  have hnames := h.filter_walk_sublist.filterMap Validate.itemName?
  have hitem : (fun t => if t.isObject then Validate.itemName? t else none) =
      Validate.itemName? := by
    funext t
    cases t <;> rfl
  rwa [List.filterMap_filter, hitem] at hnames

end WellTyped

/-- Under any registry the walk over a type keeps to the types that stand in it, each one after those
around it and none more often. It meets them all exactly if it goes on to every type in a field of
one of them. Validation then reports every item without a declaration; otherwise it can pass over
some of them, but it reports no other one. -/
theorem walk_wellTyped {r : Registry} {v : Value} (h : r.WellTyped .type v) (location : String)
    (declared : List Value) :
    (v.walk.filter Value.isObject).Sublist v.within ∧
    (v.walk = v.within ↔ ∀ t ∈ v.within, t.opened = t.nested) ∧
    ∃ problems, Validate.unresolved location declared v = .ok problems ∧
      problems.Sublist (Problem.unfound declared location v.namesWithin) ∧
      (v.walk = v.within → problems = Problem.unfound declared location v.namesWithin) := by
  have hnames := h.itemNames_sublist
  have hhashable : v.itemNames.all Value.isHashable := by
    rw [List.all_eq_true]
    exact fun name hname => h.isHashable_of_mem_namesWithin (hnames.subset hname)
  refine ⟨h.filter_walk_sublist, h.walk_eq_within_iff,
    Problem.unfound declared location v.itemNames, ?_, hnames.filterMap _, fun heq => ?_⟩
  · rw [Validate.unresolved_eq, if_pos hhashable]
  · rw [itemNames, heq, namesWithin]

/-! ### A type of functions -/

/-- The built-in classes and one more. -/
def withArrow : Registry := ⟨builtin.types ++ [(.text "arrow", arrow)], builtin.nodes⟩

theorem define_arrow : builtin.define arrowDeclaration = .ok (withArrow, arrow) := by
  have hname : "Arrow".contains '\x00' = false := by simp
  rw [define, arrowDeclaration, hname]
  rfl

theorem wellTyped_item (name : String) : withArrow.WellTyped .type (itemObject name) := by
  refine @WellTyped.type _ (.text "item") .item _ rfl rfl rfl ?_
  simpa [Class.item, Class.builtinType] using WellTyped.text name

theorem wellTyped_arrow : withArrow.WellTyped .type (.object arrow arrowFields) := by
  refine @WellTyped.type _ (.text "arrow") arrow _ rfl rfl rfl ?_
  have hdomain : withArrow.WellTyped .types (.tuple [itemObject "Expr"]) :=
    .types (by simpa using wellTyped_item "Expr")
  simpa [arrow, arrowFields] using ⟨hdomain, wellTyped_item "Type"⟩

theorem walk_wellTyped_arrow :
    withArrow.WellTyped .type (.object arrow arrowFields) ∧
      ¬ ∀ t ∈ (Value.object arrow arrowFields).within, t.opened = t.nested := by
  have hiff := (walk_wellTyped wellTyped_arrow "Fn.signature" []).2.1
  refine ⟨wellTyped_arrow, fun h => ?_⟩
  have hlength := congrArg List.length (hiff.2 h)
  contradiction

/-- A struct with a function for a field. -/
def functionStruct : RawNode :=
  .struct (.text "Fn") [] [(.text "signature", .object arrow arrowFields)] (.bool true)

/-- The codec keeps the items in a function, but the walk does not meet them, and validation passes
a struct with such a field though they are not declared. -/
theorem walk_arrow :
    let v := Value.object arrow arrowFields
    builtin.define arrowDeclaration = .ok (withArrow, arrow) ∧
      withArrow.WellTyped .type v ∧
      (∃ j, v.encode = .ok (.ofJson j) ∧ withArrow.decode j = .ok v) ∧
      v.within = [v, itemObject "Expr", itemObject "Type"] ∧ v.walk = [v] ∧
      validate (Definitions.toValue ⟨.list [functionStruct.toValue], .mapping []⟩) =
        .ok (Report.ofProblems [], .validated 1 0) :=
  ⟨define_arrow, wellTyped_arrow, ⟨.object [("arrow", .object
    [("domain", .array [.object [("item", .text "Expr")]]),
      ("to", .object [("item", .text "Type")])])], rfl, rfl⟩, rfl, rfl, rfl⟩

end Registry

end AstSchema
