import AstSchema.Encode
import AstSchema.Proofs.Json.RoundTrip
import AstSchema.Proofs.Outcome
import AstSchema.Proofs.Tree

/-! What is encoded decodes to itself, by way of documents and by way of their text. -/
namespace AstSchema

/-! ## Documents as values -/

namespace Value

@[simp] theorem ofJsonItems_eq_map (js : List Json) : ofJsonItems js = js.map ofJson := by
  induction js with
  | nil => rfl
  | cons j js ih => rw [ofJsonItems, ih, List.map_cons]

@[simp] theorem ofJsonMembers_eq_map (ms : List (String × Json)) :
    ofJsonMembers ms = ms.map fun m => (.text m.1, ofJson m.2) := by
  induction ms with
  | nil => rfl
  | cons m ms ih =>
    obtain ⟨k, j⟩ := m
    rw [ofJsonMembers, ih, List.map_cons]

mutual
/-- A document survives being a value. -/
@[simp] theorem toJson_ofJson : ∀ j, toJson (ofJson j) = .ok j
  | .scalar s => rfl
  | .array items => by
    rw [ofJson, toJson, toJsonItems_ofJsonItems items]
    rfl
  | .object members => by
    rw [ofJson, toJson, toJsonMembers_ofJsonMembers members]
    rfl
theorem toJsonItems_ofJsonItems : ∀ js, toJsonItems (ofJsonItems js) = .ok js
  | [] => rfl
  | j :: js => by
    rw [ofJsonItems, toJsonItems, toJson_ofJson j, toJsonItems_ofJsonItems js]
    rfl
theorem toJsonMembers_ofJsonMembers : ∀ ms, toJsonMembers (ofJsonMembers ms) = .ok ms
  | [] => rfl
  | (k, j) :: ms => by
    rw [ofJsonMembers, toJsonMembers, toJson_ofJson j, toJsonMembers_ofJsonMembers ms]
    rfl
end

mutual
/-- A document has no objects to encode. -/
@[simp] theorem encode_ofJson : ∀ j, encode (ofJson j) = .ok (ofJson j)
  | .scalar s => rfl
  | .array items => by
    rw [ofJson, encode, encodeItems_ofJsonItems items]
    rfl
  | .object members => by
    rw [ofJson, encode, encodeEntries_ofJsonMembers members]
    rfl
theorem encodeItems_ofJsonItems : ∀ js, encodeItems (ofJsonItems js) = .ok (ofJsonItems js)
  | [] => rfl
  | j :: js => by
    rw [ofJsonItems, encodeItems, encode_ofJson j, encodeItems_ofJsonItems js]
    rfl
theorem encodeEntries_ofJsonMembers :
    ∀ ms, encodeEntries (ofJsonMembers ms) = .ok (ofJsonMembers ms)
  | [] => rfl
  | (k, j) :: ms => by
    rw [ofJsonMembers, encodeEntries, encode_ofJson j, encodeEntries_ofJsonMembers ms]
    rfl
end

theorem encodeItems_eq_mapM (vs : List Value) : encodeItems vs = vs.mapM encode := by
  induction vs with
  | nil => rfl
  | cons v vs ih => rw [encodeItems, ih, List.mapM_cons]

theorem encodeText_of_encode {v : Value} {j : Json} (h : v.encode = .ok (ofJson j))
    (layout : Json.Layout) : v.encodeText layout = .ok (Json.render layout j) := by
  unfold encodeText
  rw [h]
  change (do return Json.render layout (← toJson (ofJson j))) = _
  rw [toJson_ofJson]
  rfl

end Value

theorem Json.ofJson_injective {d e : Json} (h : Value.ofJson d = Value.ofJson e) : d = e := by
  have hjson := congrArg Value.toJson h
  rw [Value.toJson_ofJson, Value.toJson_ofJson] at hjson
  exact Except.ok.inj hjson

/-! ## Types -/

namespace Value

theorem encode_wrap (cls : WrapClass) {v doc : Value} (h : encode v = .ok doc) :
    encode (.object cls.toClass [v]) = .ok (.mapping [(.text cls.tag, doc)]) := by
  cases cls <;> (
    change (encode v >>= fun doc => _) = _
    rw [h]
    rfl)

theorem encode_punctuated {v doc : Value} (punct : String) (h : encode v = .ok doc) :
    encode (.object .punctuated [v, .text punct]) = .ok (.mapping [(.text "punctuated",
      .mapping [(.text "element", doc), (.text "punct", .text punct)])]) := by
  rw [encode.eq_def]
  simp only [Class.family, Class.punctuated, Class.builtinType, Role.family]
  simp only [encodeFields, h]
  rfl

theorem encode_tuple_map {α : Type} {g : α → Value} {h : α → Json} {xs : List α}
    (hxs : ∀ x ∈ xs, encode (g x) = .ok (.ofJson (h x))) :
    encode (.tuple (xs.map g)) = .ok (.ofJson (.array (xs.map h))) := by
  have hitems : (xs.map g).mapM encode = .ok (xs.map fun x => .ofJson (h x)) :=
    mapM_map_eq_ok hxs
  rw [encode, encodeItems_eq_mapM, hitems, ofJson, ofJsonItems_eq_map, List.map_map]
  rfl

end Value

namespace TypeTree

theorem encode_toValue (t : TypeTree) : t.toValue.encode = .ok (.ofJson t.toJson) := by
  induction t with
  | name cls text => cases cls <;> rfl
  | wrap cls inner ih =>
    rw [toValue, Value.encode_wrap cls ih]
    rfl
  | punctuated element punct ih =>
    rw [toValue, Value.encode_punctuated punct ih]
    rfl
  | tuple elements ih =>
    have helements := Value.encode_tuple_map ih
    rw [toValue, toValues_eq_map]
    change (Value.encode (.tuple (elements.map toValue)) >>= fun doc => _) = _
    rw [helements, toJson, toJsons_eq_map]
    rfl

end TypeTree

namespace Registry

theorem decodeTypes_eq_mapM (r : Registry) (js : List Json) :
    r.decodeTypes js = js.mapM r.decodeType := by
  induction js with
  | nil => rfl
  | cons j js ih => rw [decodeTypes, ih, List.mapM_cons]

theorem decodeType_of_nameTag (cls : NameClass) (payload : Json) :
    builtin.decodeType (.object [(cls.tag, payload)]) = (do
      let name ← builtin.decodePayload cls.tag { name := "name", shape := .text } payload
      return .object cls.toClass [name]) := by
  cases cls <;> rfl

theorem decodeType_of_wrapTag (cls : WrapClass) (payload : Json) :
    builtin.decodeType (.object [(cls.tag, payload)]) = (do
      let inner ← builtin.decodePayload cls.tag { name := "inner", shape := .type } payload
      return .object cls.toClass [inner]) := by
  cases cls <;> rfl

theorem decodeType_of_tuple (items : List Json) :
    builtin.decodeType (.object [("tuple", .array items)]) = (do
      return .object .tuple [.tuple (← items.mapM builtin.decodeType)]) := by
  rw [← decodeTypes_eq_mapM]
  change ((builtin.decodeTypes items >>= fun types => pure (Value.tuple types)) >>= fun v => _) = _
  cases builtin.decodeTypes items <;> rfl

theorem decodeMember_eq (r : Registry) (tag : String) {spec : FieldSpec} {key : String}
    (hkey : spec.key? = some (.text key)) (members : List (String × Json)) :
    r.decodeMember tag spec members =
      (members.lookup key).elim (.error (.missingKey (.text key))) (r.decodePayload tag spec) := by
  induction members with
  | nil => rw [decodeMember, hkey]; rfl
  | cons m rest ih =>
    obtain ⟨k, j⟩ := m
    rw [decodeMember, List.lookup_cons, ih, hkey]
    by_cases h : key = k
    · simp [h]
    · simp [h, beq_false_of_ne h]

theorem decodeType_of_punctuated (members : List (String × Json)) :
    builtin.decodeType (.object [("punctuated", .object members)]) = (do
      let element ← (members.lookup "element").elim (.error (.missingKey (.text "element")))
        (builtin.decodePayload "punctuated" { name := "element", shape := .type })
      let punct ← (members.lookup "punct").elim (.error (.missingKey (.text "punct")))
        (builtin.decodePayload "punctuated" { name := "punct", shape := .text })
      return .object .punctuated [element, punct]) := by
  rw [← decodeMember_eq builtin "punctuated" rfl, ← decodeMember_eq builtin "punctuated" rfl]
  change ([_, _].mapM (fun spec => builtin.decodeMember "punctuated" spec _) >>= fun fields =>
    Class.punctuated.make fields) = _
  simp only [List.mapM_cons, List.mapM_nil, bind_assoc, pure_bind]
  rfl

theorem decodeType_name (cls : NameClass) (text : String) :
    builtin.decodeType (.object [(cls.tag, .text text)]) =
      .ok (.object cls.toClass [.text text]) := by
  rw [decodeType_of_nameTag]
  rfl

theorem decodeType_wrap (cls : WrapClass) {members : List (String × Json)} {v : Value}
    (h : builtin.decodeType (.object members) = .ok v) :
    builtin.decodeType (.object [(cls.tag, .object members)]) = .ok (.object cls.toClass [v]) := by
  rw [decodeType_of_wrapTag]
  change (builtin.decodeType (.object members) >>= fun inner => _) = _
  rw [h]
  rfl

theorem decodeType_punctuated {members : List (String × Json)} {v : Value} (punct : String)
    (h : builtin.decodeType (.object members) = .ok v) :
    builtin.decodeType (.object [("punctuated", .object [("element", .object members),
      ("punct", .text punct)])]) = .ok (.object .punctuated [v, .text punct]) := by
  rw [decodeType_of_punctuated]
  change (builtin.decodeType (.object members) >>= fun element => _) = _
  rw [h]
  rfl

theorem decodeType_tuple {items : List Json} {types : List Value}
    (h : items.mapM builtin.decodeType = .ok types) :
    builtin.decodeType (.object [("tuple", .array items)]) =
      .ok (.object .tuple [.tuple types]) := by
  rw [decodeType_of_tuple, h]
  rfl

end Registry

namespace TypeTree

/-- A type is an object with a single key, which is the tag of a type and not the key of a node. -/
theorem toJson_eq_tagged (t : TypeTree) : ∃ tag payload, t.toJson = .object [(tag, payload)] ∧
    (Registry.builtin.type? (.text tag)).isSome ∧ (tag == nodeKey) = false := by
  cases t with
  | name cls text => cases cls <;> exact ⟨_, _, rfl, rfl, rfl⟩
  | wrap cls inner => cases cls <;> exact ⟨_, _, rfl, rfl, rfl⟩
  | punctuated element punct => exact ⟨_, _, rfl, rfl, rfl⟩
  | tuple elements => exact ⟨_, _, rfl, rfl, rfl⟩

theorem decodeType_toJson (t : TypeTree) :
    Registry.builtin.decodeType t.toJson = .ok t.toValue := by
  induction t with
  | name cls text => exact Registry.decodeType_name cls text
  | wrap cls inner ih =>
    obtain ⟨tag, payload, hinner, -⟩ := toJson_eq_tagged inner
    rw [toJson, hinner]
    rw [hinner] at ih
    exact Registry.decodeType_wrap cls ih
  | punctuated element punct ih =>
    obtain ⟨tag, payload, helement, -⟩ := toJson_eq_tagged element
    rw [toJson, helement]
    rw [helement] at ih
    exact Registry.decodeType_punctuated punct ih
  | tuple elements ih =>
    have hitems : (toJsons elements).mapM Registry.builtin.decodeType =
        .ok (toValues elements) := by
      rw [toJsons_eq_map, toValues_eq_map]
      exact mapM_map_eq_ok ih
    exact Registry.decodeType_tuple hitems

end TypeTree

/-! ## Nodes -/

section

variable {ι φ π : Type} (ident : ι → Json) (flag : φ → Json) (pub : π → Json)

open Value in
theorem FieldTree.encode_toValue (f : FieldTree ι) :
    (f.toValue fun i => .ofJson (ident i)).encode = .ok (.ofJson (f.toJson ident)) := by
  have hident := encode_ofJson (ident f.ident)
  have htype := f.type.encode_toValue
  rw [toValue, encode.eq_def]
  simp only [Class.family, Class.field, Role.family, encodeFields, hident, htype]
  rfl

open Value in
theorem VariantTree.encode_toValue (v : VariantTree ι) :
    (v.toValue fun i => .ofJson (ident i)).encode = .ok (.ofJson (v.toJson ident)) := by
  have hident := encode_ofJson (ident v.ident)
  have htypes := encode_tuple_map fun t (_ : t ∈ v.types) => t.encode_toValue
  rw [toValue, encode.eq_def]
  simp only [Class.family, Class.variant, Role.family, encodeFields, hident, htypes]
  rfl

open Value in
theorem encode_gates (flags : List φ) :
    encode (Features.toValue (flags.map fun f => .ofJson (flag f))) =
      .ok (.ofJson (.object [(flagsKey, .array (flags.map flag))])) := by
  rw [ofJson, ofJsonMembers, ofJson, ofJsonItems_eq_map, List.map_map]
  rfl

open Value in
theorem NodeTree.encode_toValue (n : NodeTree ι φ π) :
    (n.toValue (fun i => .ofJson (ident i)) (fun f => .ofJson (flag f))
      (fun p => .ofJson (pub p))).encode = .ok (.ofJson (n.toJson ident flag pub)) := by
  cases n with
  | struct i flags fields p =>
    have hident := encode_ofJson (ident i)
    have hgates := encode_gates flag flags
    have hfields := encode_tuple_map fun f (_ : f ∈ fields) => f.encode_toValue ident
    have hpub := encode_ofJson (pub p)
    rw [toValue, encode.eq_def]
    simp only [Class.family, Class.struct, Class.nodeFields, List.cons_append, List.nil_append,
      Role.family, encodeFields, hident, hgates, hfields, hpub]
    rfl
  | enum i flags variants =>
    have hident := encode_ofJson (ident i)
    have hgates := encode_gates flag flags
    have hvariants := encode_tuple_map fun v (_ : v ∈ variants) => v.encode_toValue ident
    rw [toValue, encode.eq_def]
    simp only [Class.family, Class.enum, Class.nodeFields, List.cons_append, List.nil_append,
      Role.family, encodeFields, hident, hgates, hvariants]
    rfl

theorem FieldTree.decodeField_toJson (f : FieldTree ι) :
    Registry.builtin.decodeField (f.toJson ident) = .ok (f.toValue fun i => .ofJson (ident i)) := by
  change (Registry.builtin.decodeType f.type.toJson >>= fun ty =>
    Class.field.make [.ofJson (ident f.ident), ty]) = _
  rw [f.type.decodeType_toJson]
  rfl

theorem VariantTree.decodeVariant_toJson (v : VariantTree ι) :
    Registry.builtin.decodeVariant (v.toJson ident) =
      .ok (v.toValue fun i => .ofJson (ident i)) := by
  have htypes : (v.types.map TypeTree.toJson).mapM Registry.builtin.decodeType =
      .ok (v.types.map TypeTree.toValue) := mapM_map_eq_ok fun t _ => t.decodeType_toJson
  change ((v.types.map TypeTree.toJson).mapM Registry.builtin.decodeType >>= fun types =>
    Class.variant.make [.ofJson (ident v.ident), .tuple types]) = _
  rw [htypes]
  rfl

theorem decodeFeatures_toJson (flags : List φ) :
    Registry.decodeFeatures (.object [(flagsKey, .array (flags.map flag))]) =
      .ok (Features.toValue (flags.map fun f => .ofJson (flag f))) := by
  change Except.ok (Features.toValue (Value.ofJsonItems (flags.map flag))) = _
  rw [Value.ofJsonItems_eq_map, List.map_map]
  rfl

namespace Registry

def nodeField (r : Registry) (tag : Scalar) (j : Json) (spec : FieldSpec) : Except Error Value := do
  let key ← spec.key?.elim (.error .wrongType) .ok
  match j.member? key with
  | some found => r.decodeNodeField spec.name found
  | none => .error (.missingField key tag)

/-- A node is made of its fields, each read in its turn. -/
theorem decodeNode_eq {r : Registry} {j : Json} {tag : Scalar} {cls : Class}
    (htag : j.member nodeKey = .ok (.scalar tag)) (hcls : r.node? tag = some cls) :
    r.decodeNode j = cls.fields.mapM (r.nodeField tag j) >>= cls.make := by
  unfold decodeNode
  rw [htag]
  simp only [bind, Except.bind, hcls]
  rfl

theorem decodeRow_map {α : Type} {f : Json → Except Error Value} {g : α → Value} {h : α → Json}
    {xs : List α} (hxs : ∀ x ∈ xs, f (h x) = .ok (g x)) :
    (do return .tuple (← (← (Json.array (xs.map h)).items).mapM f)) =
      Except.ok (Value.tuple (xs.map g)) := by
  change ((xs.map h).mapM f >>= fun vs => pure (Value.tuple vs)) = _
  rw [mapM_map_eq_ok hxs]
  rfl

end Registry

theorem NodeTree.decodeNode_toJson (n : NodeTree ι φ π) :
    Registry.builtin.decodeNode (n.toJson ident flag pub) =
      .ok (n.toValue (fun i => .ofJson (ident i)) (fun f => .ofJson (flag f))
        fun p => .ofJson (pub p)) := by
  cases n with
  | struct i flags fields p =>
    have hfields : Registry.builtin.decodeNodeField "fields"
        (.array (fields.map (FieldTree.toJson ident))) =
        .ok (.tuple (fields.map (FieldTree.toValue fun i => .ofJson (ident i)))) :=
      Registry.decodeRow_map fun f _ => f.decodeField_toJson ident
    rw [Registry.decodeNode_eq rfl rfl, bind_eq_ok_iff]
    refine ⟨[.ofJson (ident i), Features.toValue (flags.map fun f => .ofJson (flag f)),
      .tuple (fields.map (FieldTree.toValue fun i => .ofJson (ident i))), .ofJson (pub p)], ?_, rfl⟩
    rw [mapM_eq_ok_iff]
    exact .cons rfl (.cons (decodeFeatures_toJson flag flags) (.cons hfields (.cons rfl .nil)))
  | enum i flags variants =>
    have hvariants : Registry.builtin.decodeNodeField "variants"
        (.array (variants.map (VariantTree.toJson ident))) =
        .ok (.tuple (variants.map (VariantTree.toValue fun i => .ofJson (ident i)))) :=
      Registry.decodeRow_map fun v _ => v.decodeVariant_toJson ident
    rw [Registry.decodeNode_eq rfl rfl, bind_eq_ok_iff]
    refine ⟨[.ofJson (ident i), Features.toValue (flags.map fun f => .ofJson (flag f)),
      .tuple (variants.map (VariantTree.toValue fun i => .ofJson (ident i)))], ?_, rfl⟩
    rw [mapM_eq_ok_iff]
    exact .cons rfl (.cons (decodeFeatures_toJson flag flags) (.cons hvariants .nil))

/-- A node is told by its tag. -/
theorem NodeTree.decode_toJson (n : NodeTree ι φ π) :
    Registry.builtin.decode (n.toJson ident flag pub) =
      .ok (n.toValue (fun i => .ofJson (ident i)) (fun f => .ofJson (flag f))
        fun p => .ofJson (pub p)) := by
  have hnode : (n.toJson ident flag pub).has nodeKey = .ok true := by cases n <;> rfl
  rw [Registry.decode, hnode]
  exact n.decodeNode_toJson ident flag pub

end

theorem TypeTree.decode_toJson (t : TypeTree) :
    Registry.builtin.decode t.toJson = .ok t.toValue := by
  obtain ⟨tag, payload, hjson, htag, hnode⟩ := t.toJson_eq_tagged
  have hdecode := t.decodeType_toJson
  rw [hjson] at hdecode ⊢
  have hhas : (Json.object [(tag, payload)]).has nodeKey = .ok false := by
    simp [Json.has, hnode]
  have hstarts : Registry.builtin.startsWithTypeTag (.object [(tag, payload)]) = .ok true :=
    congrArg Except.ok htag
  rw [Registry.decode, hhas]
  change (Registry.builtin.startsWithTypeTag (.object [(tag, payload)]) >>= fun b => _) = _
  rw [hstarts]
  exact hdecode

end AstSchema
