import AstSchema.Proofs.ClassExtension
import AstSchema.Proofs.FieldRow

/-! The codec under any registry. What it keeps are objects of types, whatever fields their classes
have, and objects of classes that extend the built-in nodes by fields for documents. Tags of types
and keys of fields are texts, as all keys of documents are. -/
namespace AstSchema

/-- No object within the document has a key twice. -/
def Json.Keyed (j : Json) : Prop := (Value.ofJson j).Keyed

/-! ## Types -/

namespace Registry

/-- An object that a class of types makes. The class is registered under its tag, and its fields
have different keys. -/
structure TypeInstance (r : Registry) (tag : String) (cls : Class) (fields : List Value) :
    Prop where
  family_eq : cls.family = .type
  tag?_eq : cls.tag? = some (.text tag)
  registered : r.type? (.text tag) = some cls
  keys : ∃ keys : List String,
    cls.fields.map (·.key?) = keys.map (fun key => some (.text key)) ∧ keys.Nodup
  made : ∃ given, cls.make given = .ok (.object cls fields)
  length_eq : fields.length = cls.fields.length

/-- What a field of this shape holds: a text, an object of a registered type whose fields hold what
is of their shape, or a tuple of such objects. -/
inductive Holds (r : Registry) : Shape → Value → Prop
  | text (s : String) : Holds r .text (.text s)
  | type {tag : String} {cls : Class} {fields : List Value} (h : r.TypeInstance tag cls fields)
      (hfields : ∀ p ∈ cls.fields.zip fields, Holds r p.1.shape p.2) :
      Holds r .type (.object cls fields)
  | types {vs : List Value} (h : ∀ v ∈ vs, Holds r .type v) : Holds r .types (.tuple vs)

/-- The value is read again in any field of this shape, under any tag. -/
def Returns (r : Registry) (shape : Shape) (v : Value) (j : Json) : Prop :=
  ∀ tag spec, spec.shape = shape → ReadBack (r.decodePayload tag spec) v j

theorem Returns.readBack_type {r : Registry} {v : Value} {j : Json} (h : r.Returns .type v j) :
    ReadBack r.decodeType v j := by
  have hpayload := h "" { name := "", shape := .type } rfl
  refine ⟨hpayload.encode_eq, ?_, hpayload.keyed⟩
  have hread := hpayload.read_eq
  cases j with
  | object members => exact hread
  | array items => contradiction
  | scalar s => cases s <;> contradiction

variable {r : Registry} {cls : Class} {tag : String} {slots : List Slot}
  {read : FieldSpec → Json → Except Error Value}

theorem encode_type (hfamily : cls.family = .type) (htag : cls.tag? = some (.text tag))
    (hspecs : slots.map Slot.spec = cls.fields) (hnodup : (slots.map Slot.key).Nodup)
    (h : ∀ s ∈ slots, s.Reads read) :
    (Value.object cls (slots.map Slot.value)).encode =
      .ok (.ofJson (.object [(tag, Slot.payload slots)])) := by
  have hfields := Slot.encodeFields_row h
  have hkeys : ((slots.map Slot.member).map (·.1)).Nodup := by rwa [List.map_map]
  have hentries := Value.entriesOf_ofJsonMembers hkeys
  rw [Value.encode.eq_def]
  simp only [hfamily, htag, ← hspecs]
  cases slots with
  | nil => rfl
  | cons s slots =>
    cases slots with
    | nil =>
      simp only [List.map_cons, List.map_nil, (h s List.mem_cons_self).encode_eq]
      rfl
    | cons t rest =>
      simp only [List.map_cons] at hfields hentries ⊢
      simp only [hfields, hentries, bind, Except.bind]
      rfl

theorem decodeType_row (hregistered : r.type? (.text tag) = some cls)
    (hspecs : slots.map Slot.spec = cls.fields) (hnodup : (slots.map Slot.key).Nodup)
    (h : ∀ s ∈ slots, s.Reads (r.decodePayload tag))
    (hmake : cls.make (slots.map Slot.value) = .ok (.object cls (slots.map Slot.value))) :
    r.decodeType (.object [(tag, Slot.payload slots)]) =
      .ok (.object cls (slots.map Slot.value)) := by
  have hmembers : (slots.map Slot.spec).mapM
      (fun spec => r.decodeMember tag spec (slots.map Slot.member)) =
        .ok (slots.map Slot.value) := by
    refine mapM_map_eq_ok fun s hs => ?_
    rw [decodeMember_eq r tag (h s hs).key?_eq, Slot.lookup_row hnodup hs]
    exact (h s hs).read_eq
  rw [decodeType, decodeTagged, hregistered]
  simp only [← hspecs]
  cases slots with
  | nil => exact hmake
  | cons s slots =>
    cases slots with
    | nil =>
      simp only [List.map_cons, List.map_nil, Slot.payload, (h s List.mem_cons_self).read_eq]
      exact hmake
    | cons t rest =>
      simp only [List.map_cons, Slot.payload] at hmembers hmake ⊢
      rw [hmembers]
      exact hmake

/-- An object of a type is read from an object with its tag for a single key, if all its fields are
read back. -/
theorem TypeInstance.exists_payload {fields : List Value} (h : r.TypeInstance tag cls fields)
    (hfields : ∀ p ∈ cls.fields.zip fields, ∃ j, r.Returns p.1.shape p.2 j) :
    ∃ payload, ReadBack r.decodeType (.object cls fields) (.object [(tag, payload)]) := by
  obtain ⟨keys, hkeys, hnodup⟩ := h.keys
  obtain ⟨given, hmade⟩ := h.made
  obtain ⟨slots, hspecs, rfl, rfl, hslots⟩ := Slot.exists_row hkeys h.length_eq
    fun p hp => (hfields p hp).imp fun _ hj => hj tag p.1 rfl
  have hmake : cls.make (slots.map Slot.value) = .ok (.object cls (slots.map Slot.value)) := by
    obtain ⟨settled, hsettle, heq⟩ := bind_eq_ok_iff.1 hmade
    obtain ⟨-, rfl⟩ := Value.object.inj (Except.ok.inj heq)
    rw [Class.make, Class.settle_settle h.family_eq hsettle]
    rfl
  exact ⟨Slot.payload slots, encode_type h.family_eq h.tag?_eq hspecs hnodup hslots,
    decodeType_row h.registered hspecs hnodup hslots hmake, Slot.keyed_row hslots cls⟩

theorem Holds.exists_document {shape : Shape} {v : Value} (h : r.Holds shape v) :
    ∃ j, r.Returns shape v j := by
  induction h with
  | text s =>
    refine ⟨.text s, fun tag spec hshape => ⟨rfl, ?_, .scalar _⟩⟩
    rw [decodePayload]
    simp only [hshape]
  | type h _ ih =>
    obtain ⟨payload, hpayload⟩ := h.exists_payload ih
    refine ⟨_, fun tag spec hshape => ⟨hpayload.encode_eq, ?_, hpayload.keyed⟩⟩
    rw [decodePayload]
    simp only [hshape]
    exact hpayload.read_eq
  | @types vs _ ih =>
    obtain ⟨items, hitems⟩ := ReadBack.exists_row (g := id)
      fun v hv => (ih v hv).imp fun j hj => hj.readBack_type
    rw [List.map_id] at hitems
    refine ⟨_, fun tag spec hshape => ⟨hitems.encode_eq, ?_, hitems.keyed⟩⟩
    rw [decodePayload]
    simp only [hshape, decodeTypes_eq_mapM]
    exact hitems.read_eq

theorem Holds.readBack {v : Value} (h : r.Holds .type v) : ∃ j, ReadBack r.decodeType v j :=
  h.exists_document.imp fun _ hj => hj.readBack_type

/-! ## Nodes -/

/-- An object of a class of nodes that is registered under its tag. The keys of its fields are
different, and none is that of the tag. -/
structure NodeInstance (r : Registry) (tag : Scalar) (cls : Class) (fields : List Value) :
    Prop where
  tag?_eq : cls.tag? = some tag
  registered : r.node? tag = some cls
  keys : ∃ keys : List String,
    cls.fields.map (·.key?) = keys.map (fun key => some (.text key)) ∧ (nodeKey :: keys).Nodup
  length_eq : fields.length = cls.fields.length

theorem encode_node {tag : Scalar} (hfamily : cls.family = .node) (htag : cls.tag? = some tag)
    (hspecs : slots.map Slot.spec = cls.fields) (hnodup : (nodeKey :: slots.map Slot.key).Nodup)
    (h : ∀ s ∈ slots, s.Reads read) :
    (Value.object cls (slots.map Slot.value)).encode =
      .ok (.ofJson (.object ((nodeKey, .scalar tag) :: slots.map Slot.member))) := by
  have hkeys : (((nodeKey, Json.scalar tag) :: slots.map Slot.member).map (·.1)).Nodup := by
    rwa [List.map_cons, List.map_map]
  have hentries := Value.entriesOf_ofJsonMembers hkeys
  rw [Value.ofJsonMembers, Value.ofJson] at hentries
  rw [Value.encode.eq_def]
  simp only [hfamily, htag, ← hspecs, Slot.encodeFields_row h, bind, Except.bind, hentries]
  rfl

theorem decodeNode_row {tag : Scalar} (hregistered : r.node? tag = some cls)
    (hspecs : slots.map Slot.spec = cls.fields) (hnodup : (nodeKey :: slots.map Slot.key).Nodup)
    (h : ∀ s ∈ slots, s.Reads fun spec => r.decodeNodeField spec.name)
    (hmake : cls.make (slots.map Slot.value) = .ok (.object cls (slots.map Slot.value))) :
    r.decodeNode (.object ((nodeKey, .scalar tag) :: slots.map Slot.member)) =
      .ok (.object cls (slots.map Slot.value)) := by
  obtain ⟨hnode, hnodup⟩ := List.nodup_cons.1 hnodup
  have hfields : (slots.map Slot.spec).mapM
      (r.nodeField tag (.object ((nodeKey, .scalar tag) :: slots.map Slot.member))) =
        .ok (slots.map Slot.value) := by
    refine mapM_map_eq_ok fun s hs => ?_
    have hne : s.key ≠ nodeKey := fun heq => hnode (heq ▸ List.mem_map_of_mem hs)
    have hlookup := Slot.lookup_row hnodup hs
    simp only [nodeField, (h s hs).key?_eq, Option.elim, bind, Except.bind, Json.member?,
      List.lookup_cons, beq_false_of_ne hne, hlookup]
    exact (h s hs).read_eq
  rw [decodeNode_eq rfl hregistered, ← hspecs, hfields]
  exact hmake

theorem ownGates_of_decodeFeatures {j : Json} {v : Value} (h : decodeFeatures j = .ok v) :
    Class.ownGates v = .ok v := by
  obtain ⟨found, -, h⟩ := bind_eq_ok_iff.1 h
  obtain ⟨flags, -, h⟩ := bind_eq_ok_iff.1 h
  obtain rfl := Except.ok.inj h
  rfl

theorem asTuple_of_readRow {read : Json → Except Error Value} {j : Json} {v : Value}
    (h : readRow read j = .ok v) : Class.asTuple v = .ok v := by
  obtain ⟨items, -, h⟩ := bind_eq_ok_iff.1 h
  obtain ⟨vs, -, h⟩ := bind_eq_ok_iff.1 h
  obtain rfl := Except.ok.inj h
  rfl

/-- Nothing is left to be settled of what is read into a node. -/
theorem make_of_readBack {fields : List Value} (hfamily : cls.family = .node)
    (h : ∀ p ∈ cls.fields.zip fields, ∃ j, ReadBack (r.decodeNodeField p.1.name) p.2 j) :
    cls.make fields = .ok (.object cls fields) := by
  have hgates : ∀ p ∈ cls.fields.zip fields, p.1.name = "features" →
      Class.ownGates p.2 = .ok p.2 := by
    intro p hp hname
    obtain ⟨j, hj⟩ := h p hp
    have hread := hj.read_eq
    rw [hname] at hread
    exact ownGates_of_decodeFeatures hread
  have hrow : ∀ p ∈ cls.fields.zip fields, p.1.name = "fields" ∨ p.1.name = "variants" →
      Class.asTuple p.2 = .ok p.2 := by
    intro p hp hname
    obtain ⟨j, hj⟩ := h p hp
    have hread := hj.read_eq
    obtain hname | hname := hname
    · rw [hname] at hread
      change readRow r.decodeField j = _ at hread
      exact asTuple_of_readRow hread
    · rw [hname] at hread
      change readRow r.decodeVariant j = _ at hread
      exact asTuple_of_readRow hread
  rw [Class.make, Class.settle_of_fixed hfamily hgates hrow]
  rfl

theorem NodeInstance.exists_members {tag : Scalar} {fields : List Value}
    (h : r.NodeInstance tag cls fields) (hfamily : cls.family = .node)
    (hfields : ∀ p ∈ cls.fields.zip fields, ∃ j, ReadBack (r.decodeNodeField p.1.name) p.2 j) :
    ∃ members, ReadBack r.decodeNode (.object cls fields)
      (.object ((nodeKey, .scalar tag) :: members)) := by
  obtain ⟨keys, hkeys, hnodup⟩ := h.keys
  have hmake := make_of_readBack hfamily hfields
  obtain ⟨slots, hspecs, rfl, rfl, hslots⟩ :=
    @Slot.exists_row (fun spec => r.decodeNodeField spec.name) _ _ _ hkeys h.length_eq hfields
  exact ⟨slots.map Slot.member, encode_node hfamily h.tag?_eq hspecs hnodup hslots,
    decodeNode_row h.registered hspecs hnodup hslots hmake, Slot.keyed_row hslots cls⟩

/-- What stands in the fields of a built-in class of nodes: any documents for idents, flags and
visibility, and objects of registered types. -/
inductive BaseFields (r : Registry) : Class → List Value → Prop
  | node {ident : Json} {flags : List Json} (hident : ident.Keyed) (hflags : ∀ f ∈ flags, f.Keyed) :
      BaseFields r .node [.ofJson ident, Features.toValue (flags.map .ofJson)]
  | struct {ident allPublic : Json} {flags : List Json} {fields : List (Json × Value)}
      (hident : ident.Keyed) (hflags : ∀ f ∈ flags, f.Keyed)
      (hfields : ∀ f ∈ fields, f.1.Keyed ∧ r.Holds .type f.2) (hpublic : allPublic.Keyed) :
      BaseFields r .struct [.ofJson ident, Features.toValue (flags.map .ofJson),
        .tuple (fields.map fun f => .object .field [.ofJson f.1, f.2]), .ofJson allPublic]
  | enum {ident : Json} {flags : List Json} {variants : List (Json × List Value)}
      (hident : ident.Keyed) (hflags : ∀ f ∈ flags, f.Keyed)
      (hvariants : ∀ v ∈ variants, v.1.Keyed ∧ ∀ t ∈ v.2, r.Holds .type t) :
      BaseFields r .enum [.ofJson ident, Features.toValue (flags.map .ofJson),
        .tuple (variants.map fun v => .object .variant [.ofJson v.1, .tuple v.2])]

section

variable (r)

/-- A document stands for itself in any field without a form of its own. -/
theorem readBack_ofJson {name : String} {j : Json} (hj : j.Keyed) (hgates : name ≠ "features")
    (hfields : name ≠ "fields") (hvariants : name ≠ "variants") :
    ReadBack (r.decodeNodeField name) (.ofJson j) j := by
  refine ⟨Value.encode_ofJson j, ?_, hj⟩
  rw [decodeNodeField, beq_false_of_ne hgates, beq_false_of_ne hfields, beq_false_of_ne hvariants]
  rfl

theorem readBack_gates {flags : List Json} (hflags : ∀ f ∈ flags, f.Keyed) :
    ∃ j, ReadBack (r.decodeNodeField "features") (Features.toValue (flags.map .ofJson)) j := by
  have hkeyed : (Value.list (flags.map .ofJson)).Keyed := .list (List.forall_mem_map.2 hflags)
  exact ⟨_, encode_gates id flags, decodeFeatures_toJson id flags, .object (by simpa using hkeyed)⟩

theorem readBack_field {ident j : Json} {v : Value} (hident : ident.Keyed)
    (h : ReadBack r.decodeType v j) :
    ReadBack r.decodeField (.object .field [.ofJson ident, v])
      (.object [("ident", ident), ("type", j)]) where
  encode_eq := by
    rw [Value.encode.eq_def]
    simp only [Class.family, Class.field, Role.family, Value.encodeFields, Value.encode_ofJson,
      h.encode_eq]
    rfl
  read_eq := by
    change (r.decodeType j >>= fun ty => Class.field.make [.ofJson ident, ty]) = _
    rw [h.read_eq]
    rfl
  keyed := .object (by simpa using ⟨hident, h.keyed⟩)

theorem readBack_variant {ident j : Json} {types : List Value} (hident : ident.Keyed)
    (h : ReadBack (readRow r.decodeType) (.tuple types) j) :
    ReadBack r.decodeVariant (.object .variant [.ofJson ident, .tuple types])
      (.object [("ident", ident), ("fields", j)]) where
  encode_eq := by
    rw [Value.encode.eq_def]
    simp only [Class.family, Class.variant, Role.family, Value.encodeFields, Value.encode_ofJson,
      h.encode_eq]
    rfl
  read_eq := by
    obtain ⟨items, hitems, hrow⟩ := bind_eq_ok_iff.1 h.read_eq
    obtain ⟨types, htypes, heq⟩ := bind_eq_ok_iff.1 hrow
    obtain rfl := Value.tuple.inj (Except.ok.inj heq)
    change (j.items >>= fun items => items.mapM r.decodeType >>= fun types =>
      Class.variant.make [.ofJson ident, .tuple types]) = _
    rw [hitems]
    change (items.mapM r.decodeType >>= fun types => _) = _
    rw [htypes]
    rfl
  keyed := .object (by simpa using ⟨hident, h.keyed⟩)

theorem readBack_fields {fields : List (Json × Value)}
    (hfields : ∀ f ∈ fields, f.1.Keyed ∧ r.Holds .type f.2) :
    ∃ j, ReadBack (r.decodeNodeField "fields")
      (.tuple (fields.map fun f => .object .field [.ofJson f.1, f.2])) j := by
  have hrow : ∀ f ∈ fields, ∃ j, ReadBack r.decodeField
      (.object .field [.ofJson f.1, f.2]) j := by
    intro f hf
    obtain ⟨hident, htype⟩ := hfields f hf
    obtain ⟨j, hj⟩ := htype.readBack
    exact ⟨_, r.readBack_field hident hj⟩
  obtain ⟨items, hitems⟩ := ReadBack.exists_row hrow
  exact ⟨_, hitems⟩

theorem readBack_variants {variants : List (Json × List Value)}
    (hvariants : ∀ v ∈ variants, v.1.Keyed ∧ ∀ t ∈ v.2, r.Holds .type t) :
    ∃ j, ReadBack (r.decodeNodeField "variants")
      (.tuple (variants.map fun v => .object .variant [.ofJson v.1, .tuple v.2])) j := by
  have hrow : ∀ v ∈ variants, ∃ j, ReadBack r.decodeVariant
      (.object .variant [.ofJson v.1, .tuple v.2]) j := by
    intro v hv
    obtain ⟨hident, htypes⟩ := hvariants v hv
    obtain ⟨items, hitems⟩ := ReadBack.exists_row (g := id) fun t ht => (htypes t ht).readBack
    rw [List.map_id] at hitems
    exact ⟨_, r.readBack_variant hident hitems⟩
  obtain ⟨items, hitems⟩ := ReadBack.exists_row hrow
  exact ⟨_, hitems⟩

end

theorem BaseFields.family_eq {base : Class} {values : List Value} (h : r.BaseFields base values) :
    base.family = .node := by
  cases h <;> rfl

theorem BaseFields.length_eq {base : Class} {values : List Value} (h : r.BaseFields base values) :
    values.length = base.fields.length := by
  cases h <;> rfl

theorem BaseFields.exists_documents {base : Class} {values : List Value}
    (h : r.BaseFields base values) :
    ∀ p ∈ base.fields.zip values, ∃ j, ReadBack (r.decodeNodeField p.1.name) p.2 j := by
  have hident : ∀ {ident : Json}, ident.Keyed →
      ∃ j, ReadBack (r.decodeNodeField "ident") (.ofJson ident) j :=
    fun h => ⟨_, r.readBack_ofJson h (by decide) (by decide) (by decide)⟩
  cases h with
  | node hkeyed hflags =>
    simpa [Class.node, Class.nodeFields] using ⟨hident hkeyed, r.readBack_gates hflags⟩
  | struct hkeyed hflags hfields hpublic =>
    have hallPublic := r.readBack_ofJson hpublic (show "all_fields_pub" ≠ "features" by decide)
      (by decide) (by decide)
    simpa [Class.struct, Class.nodeFields] using
      ⟨hident hkeyed, r.readBack_gates hflags, r.readBack_fields hfields, _, hallPublic⟩
  | enum hkeyed hflags hvariants =>
    simpa [Class.enum, Class.nodeFields] using
      ⟨hident hkeyed, r.readBack_gates hflags, r.readBack_variants hvariants⟩

/-! ## Objects -/

/-- An object that a document can hold: of a type, unless its tag is the key of the tag of nodes, or
of a class that extends a built-in class of nodes by fields for documents. -/
inductive Storable (r : Registry) : Value → Prop
  | type {tag : String} {cls : Class} {fields : List Value} (h : r.TypeInstance tag cls fields)
      (hfields : ∀ p ∈ cls.fields.zip fields, r.Holds p.1.shape p.2) (hroot : tag ≠ nodeKey) :
      Storable r (.object cls fields)
  | node {tag : Scalar} {base cls : Class} {values : List Value} {further : List Json}
      (hextends : base.Extends cls) (hbase : r.BaseFields base values)
      (hfurther : ∀ j ∈ further, j.Keyed)
      (h : r.NodeInstance tag cls (values ++ further.map .ofJson)) :
      Storable r (.object cls (values ++ further.map .ofJson))

theorem decode_type {payload : Json} {v : Value} (hregistered : r.type? (.text tag) = some cls)
    (hroot : tag ≠ nodeKey) (h : r.decodeType (.object [(tag, payload)]) = .ok v) :
    r.decode (.object [(tag, payload)]) = .ok v := by
  have hhas : (Json.object [(tag, payload)]).has nodeKey = .ok false := by
    simp [Json.has, hroot]
  have hstarts : r.startsWithTypeTag (.object [(tag, payload)]) = .ok true := by
    change Except.ok (r.type? (.text tag)).isSome = _
    rw [hregistered]
    rfl
  rw [decode, hhas]
  change (r.startsWithTypeTag (.object [(tag, payload)]) >>= fun b => _) = _
  rw [hstarts]
  exact h

theorem decode_node {tag : Json} {members : List (String × Json)} {v : Value}
    (h : r.decodeNode (.object ((nodeKey, tag) :: members)) = .ok v) :
    r.decode (.object ((nodeKey, tag) :: members)) = .ok v := by
  have hhas : (Json.object ((nodeKey, tag) :: members)).has nodeKey = .ok true := by
    simp [Json.has]
  rw [decode, hhas]
  exact h

/-- Under any registry, objects that documents can hold have a document, and decoding it gives the
very object back. -/
theorem decode_encode_of_storable {r : Registry} {v : Value} (h : r.Storable v) :
    ∃ j, v.encode = .ok (.ofJson j) ∧ r.decode j = .ok v ∧ v.equal v := by
  cases h with
  | type h hfields hroot =>
    obtain ⟨payload, hpayload⟩ := h.exists_payload fun p hp => (hfields p hp).exists_document
    exact ⟨_, hpayload.encode_eq, decode_type h.registered hroot hpayload.read_eq,
      Value.equal_refl hpayload.keyed rfl⟩
  | @node tag base cls values further hextends hbase hfurther h =>
    obtain ⟨hrole, more, hmore, hnames⟩ := hextends.exists_further
    have hfamily : cls.family = .node := by
      rw [Class.family, hrole]
      exact hbase.family_eq
    have hfields : ∀ p ∈ cls.fields.zip (values ++ further.map .ofJson),
        ∃ j, ReadBack (r.decodeNodeField p.1.name) p.2 j := by
      rw [hmore, List.zip_append hbase.length_eq.symm]
      refine List.forall_mem_append.2 ⟨hbase.exists_documents, fun p hp => ?_⟩
      obtain ⟨hspec, hvalue⟩ := List.of_mem_zip hp
      obtain ⟨j, hj, heq⟩ := List.mem_map.1 hvalue
      have hname := hnames p.1 hspec
      simp only [Class.reservedNames, List.mem_cons, not_or] at hname
      obtain ⟨hgates, hfields, hvariants, -⟩ := hname
      exact ⟨j, heq ▸ r.readBack_ofJson (hfurther j hj) hgates hfields hvariants⟩
    obtain ⟨members, hmembers⟩ := h.exists_members hfamily hfields
    exact ⟨_, hmembers.encode_eq, decode_node hmembers.read_eq,
      Value.equal_refl hmembers.keyed rfl⟩

/-! ### A type of functions and structs with a note -/

/-- What a function gives has a key of its own. -/
def arrowDeclaration : Declaration :=
  ⟨"Arrow", .type, some (.text "arrow"),
    [⟨"domain", .types, none⟩, ⟨"codomain", .type, some (.text "to")⟩]⟩

def notedDeclaration : Declaration :=
  ⟨"Noted", .struct, some (.text "noted"), [⟨"note", .other "str", none⟩]⟩

def arrow : Class :=
  ⟨"Arrow", Declaration.home, .type, some (.text "arrow"),
    [{ name := "domain", shape := .types },
      { name := "codomain", shape := .type, key? := some (.text "to") }]⟩

def noted : Class :=
  ⟨"Noted", Declaration.home, .struct, some (.text "noted"),
    Class.struct.fields ++ [{ name := "note", shape := .other "str" }]⟩

def extended : Registry :=
  ⟨builtin.types ++ [(.text "arrow", arrow)], builtin.nodes ++ [(.text "noted", noted)]⟩

theorem define_extended :
    (do (← builtin.define arrowDeclaration).1.define notedDeclaration) =
      .ok (extended, noted) := by
  have harrow : "Arrow".contains '\x00' = false := by simp
  have hnoted : "Noted".contains '\x00' = false := by simp
  rw [define, arrowDeclaration, harrow]
  change define ⟨builtin.types ++ [(.text "arrow", arrow)], builtin.nodes⟩ notedDeclaration = _
  rw [define, notedDeclaration, hnoted]
  rfl

def itemObject (name : String) : Value := .object .item [.text name]

def arrowFields : List Value := [.tuple [itemObject "Expr"], itemObject "Type"]

def structFields : List Value :=
  [.text "Fn", Features.toValue [.text "full"],
    .tuple [.object .field [.text "signature", .object arrow arrowFields]], .bool true]

def notedObject : Value := .object noted (structFields ++ [Json.text "Draft."].map .ofJson)

theorem holds_item (name : String) : extended.Holds .type (itemObject name) := by
  have hinstance : extended.TypeInstance "item" .item [.text name] :=
    ⟨rfl, rfl, rfl, ⟨["name"], rfl, by simp⟩, ⟨[.text name], rfl⟩, rfl⟩
  exact .type hinstance (by simpa [Class.item, Class.builtinType] using Holds.text name)

theorem typeInstance_arrow : extended.TypeInstance "arrow" arrow arrowFields :=
  ⟨rfl, rfl, rfl, ⟨["domain", "to"], rfl, by simp⟩, ⟨arrowFields, rfl⟩, rfl⟩

theorem holds_arrowFields :
    ∀ p ∈ arrow.fields.zip arrowFields, extended.Holds p.1.shape p.2 := by
  have hdomain : extended.Holds .types (.tuple [itemObject "Expr"]) :=
    .types (by simpa using holds_item "Expr")
  simpa [arrow, arrowFields] using ⟨hdomain, holds_item "Type"⟩

theorem storable_notedObject : extended.Storable notedObject := by
  have htext : ∀ s, (Json.text s).Keyed := fun s => .scalar (.text s)
  have hextends : Class.struct.Extends noted :=
    @Class.Extends.declare _ notedDeclaration _ .refl (by decide) rfl
  have hfield : extended.Holds .type (.object arrow arrowFields) :=
    .type typeInstance_arrow holds_arrowFields
  have hbase : extended.BaseFields .struct structFields :=
    @BaseFields.struct _ (.text "Fn") (.scalar (.bool true)) [.text "full"]
      [(.text "signature", .object arrow arrowFields)] (htext "Fn") (by simpa using htext "full")
      (by simpa using ⟨htext "signature", hfield⟩) (.scalar (.bool true))
  exact .node hextends hbase (by simpa using htext "Draft.")
    ⟨rfl, rfl, ⟨["ident", "features", "fields", "all_fields_pub", "note"], rfl, by decide⟩, rfl⟩

/-- Two classes declared one after the other: a function comes back, and so does a struct with a
note and a field of that type. -/
theorem decode_encode_of_notedObject :
    (do (← builtin.define arrowDeclaration).1.define notedDeclaration) =
        .ok (extended, noted) ∧
      (∃ j, (Value.object arrow arrowFields).encode = .ok (.ofJson j) ∧
        extended.decode j = .ok (.object arrow arrowFields) ∧
        (Value.object arrow arrowFields).equal (.object arrow arrowFields)) ∧
      ∃ j, notedObject.encode = .ok (.ofJson j) ∧ extended.decode j = .ok notedObject ∧
        notedObject.equal notedObject :=
  ⟨define_extended,
    decode_encode_of_storable (.type typeInstance_arrow holds_arrowFields (by decide)),
    decode_encode_of_storable storable_notedObject⟩

end Registry

end AstSchema
