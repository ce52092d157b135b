import AstSchema.Proofs.NormalForm
import AstSchema.Proofs.TextCodec

/-! What the decoder reads. Whatever it accepts is encoded in its normal form, which is accepted in
its turn and stays as it is, so documents that differ in nothing that is read give equal values. -/
namespace AstSchema

/-! ## What is read -/

theorem Json.member_eq_ok_iff {key : String} {d found : Json} :
    d.member key = .ok found ↔ ∃ ms, d = .object ms ∧ ms.lookup key = some found := by
  cases d with
  | object ms => cases h : ms.lookup key <;> simp [member, member?, h]
  | _ => simp [member]

section

variable {p : Scalar → Prop}

theorem Json.All.item {items : List Json} (h : (Json.array items).All p) :
    ∀ j ∈ items, j.All p := by
  cases h with
  | array hitems => exact hitems

theorem Json.All.member {ms : List (String × Json)} (h : (Json.object ms).All p) {key : String}
    {j : Json} (hlookup : ms.lookup key = some j) : j.All p := by
  cases h with
  | object _ hmembers => exact hmembers (key, j) (Entries.mem_of_lookup hlookup)

variable (p) in
abbrev DocumentOf : Type := { j : Json // j.All p }

variable {T : Type} {toValue : T → Value} {toJson : T → Json}

variable (p) in
/-- What a decoder gives for a document comes from a tree, and the document of that tree is the
normal form of the one that was read. -/
def Form.Reads (form : Form) (decode : Json → Except Error Value) (toValue : T → Value)
    (toJson : T → Json) : Prop :=
  ∀ {d : Json} {v : Value}, d.All p → decode d = .ok v →
    ∃ t, v = toValue t ∧ form.normal d = toJson t

namespace Form

theorem reads_type :
    type.Reads p Registry.builtin.decodeType TypeTree.toValue TypeTree.toJson := by
  intro d v _ hv
  obtain ⟨t, ht, hnormal⟩ := (d.verdict.isType hv).decode
  exact ⟨t, Except.ok.inj (hv.symm.trans ht), hnormal⟩

variable {form : Form} {decode : Json → Except Error Value}

theorem reads_items (hform : form.Reads p decode toValue toJson) {items : List Json}
    {vs : List Value} (hitems : ∀ j ∈ items, j.All p) (h : items.mapM decode = .ok vs) :
    ∃ ts : List T, vs = ts.map toValue ∧ items.map form.normal = ts.map toJson := by
  rw [mapM_eq_ok_iff] at h
  induction h with
  | nil => exact ⟨[], rfl, rfl⟩
  | cons hv _ ih =>
    obtain ⟨hitem, hitems⟩ := List.forall_mem_cons.1 hitems
    obtain ⟨t, rfl, hnormal⟩ := hform hitem hv
    obtain ⟨ts, rfl, hnormals⟩ := ih hitems
    exact ⟨t :: ts, rfl, by rw [List.map_cons, hnormal, hnormals, List.map_cons]⟩

theorem mapM_texts (htext : ∀ s v, decode (.text s) ≠ .ok v) {texts : List String}
    {vs : List Value} (h : (texts.map Json.text).mapM decode = .ok vs) :
    texts = [] ∧ vs = [] := by
  rw [mapM_eq_ok_iff] at h
  cases texts with
  | nil => exact ⟨rfl, List.forall₂_nil_left_iff.1 h⟩
  | cons s texts =>
    cases h with
    | cons hv _ => exact absurd hv (htext s _)

/-- Where no text can be read as an item, the keys of an object or the characters of a text can be
read as a row only if there are none. -/
theorem reads_row (hform : form.Reads p decode toValue toJson)
    (htext : ∀ s v, decode (.text s) ≠ .ok v) {d : Json} {items : List Json} {vs : List Value}
    (hd : d.All p) (hitems : d.items = .ok items) (h : items.mapM decode = .ok vs) :
    ∃ ts : List T, vs = ts.map toValue ∧ (row form).normal d = .array (ts.map toJson) := by
  cases d with
  | array js =>
    obtain rfl : js = items := Except.ok.inj hitems
    obtain ⟨ts, rfl, hnormal⟩ := reads_items hform hd.item h
    exact ⟨ts, rfl, congrArg Json.array hnormal⟩
  | object ms =>
    obtain rfl : (ms.map (·.1)).map Json.text = items := by
      rw [List.map_map]
      exact Except.ok.inj hitems
    obtain ⟨hkeys, rfl⟩ := mapM_texts htext h
    obtain rfl := List.map_eq_nil_iff.1 hkeys
    exact ⟨[], rfl, rfl⟩
  | scalar s =>
    cases s with
    | text s =>
      obtain rfl : (characters s).map Json.text = items := Except.ok.inj hitems
      obtain ⟨hcharacters, rfl⟩ := mapM_texts htext h
      obtain rfl : s = "" := by simpa [characters] using hcharacters
      exact ⟨[], rfl, rfl⟩
    | _ => contradiction

open Registry

theorem reads_tuple (hform : form.Reads p decode toValue toJson)
    (htext : ∀ s v, decode (.text s) ≠ .ok v) :
    (row form).Reads p (fun j => do return .tuple (← (← j.items).mapM decode))
      (fun ts : List T => .tuple (ts.map toValue)) fun ts => .array (ts.map toJson) := by
  intro d v hd hv
  obtain ⟨items, hitems, hv⟩ := bind_eq_ok_iff.1 hv
  obtain ⟨vs, hvs, hmake⟩ := bind_eq_ok_iff.1 hv
  obtain ⟨ts, rfl, hnormal⟩ := reads_row hform htext hd hitems hvs
  exact ⟨ts, (Except.ok.inj hmake).symm, hnormal⟩

theorem decodeType_text (s : String) (v : Value) : builtin.decodeType (.text s) ≠ .ok v := by
  intro h
  contradiction

theorem decodeField_text (s : String) (v : Value) : builtin.decodeField (.text s) ≠ .ok v := by
  intro h
  contradiction

theorem decodeVariant_text (s : String) (v : Value) :
    builtin.decodeVariant (.text s) ≠ .ok v := by
  intro h
  contradiction

theorem reads_field : field.Reads p builtin.decodeField
    (FieldTree.toValue fun i : DocumentOf p => .ofJson i.1) (FieldTree.toJson (·.1)) := by
  intro d v hd hv
  simp only [decodeField, bind_eq_ok_iff] at hv
  obtain ⟨ident, hreadIdent, type, hreadType, ty, hty, hmake⟩ := hv
  obtain ⟨ms, rfl, hident⟩ := Json.member_eq_ok_iff.1 hreadIdent
  obtain ⟨_, ⟨rfl⟩, htype⟩ := Json.member_eq_ok_iff.1 hreadType
  obtain ⟨t, rfl, hnormal⟩ := reads_type (hd.member htype) hty
  refine ⟨⟨⟨ident, hd.member hident⟩, t⟩, (Except.ok.inj hmake).symm, ?_⟩
  rw [FieldTree.toJson, ← hnormal]
  simp [field, record, hident, htype, raw]

theorem reads_variant : variant.Reads p builtin.decodeVariant
    (VariantTree.toValue fun i : DocumentOf p => .ofJson i.1) (VariantTree.toJson (·.1)) := by
  intro d v hd hv
  simp only [decodeVariant, bind_eq_ok_iff] at hv
  obtain ⟨ident, hreadIdent, fields, hreadFields, items, hitems, types, htypes, hmake⟩ := hv
  obtain ⟨ms, rfl, hident⟩ := Json.member_eq_ok_iff.1 hreadIdent
  obtain ⟨_, ⟨rfl⟩, hfields⟩ := Json.member_eq_ok_iff.1 hreadFields
  obtain ⟨ts, rfl, hnormal⟩ :=
    reads_row reads_type decodeType_text (hd.member hfields) hitems htypes
  refine ⟨⟨⟨ident, hd.member hident⟩, ts⟩, (Except.ok.inj hmake).symm, ?_⟩
  rw [VariantTree.toJson, ← hnormal]
  simp [variant, record, hident, hfields, raw]

section

variable (hp : ∀ s, p (.text s))
include hp

theorem reads_gates : gates.Reads p decodeFeatures
    (fun flags : List (DocumentOf p) => Features.toValue (flags.map fun f => .ofJson f.1))
    (fun flags => .object [(flagsKey, .array (flags.map (·.1)))]) := by
  intro d v hd hv
  simp only [decodeFeatures, bind_eq_ok_iff] at hv
  obtain ⟨holder, hread, found, hfound, hmake⟩ := hv
  obtain rfl := Except.ok.inj hmake
  obtain ⟨ms, rfl, hholder⟩ := Json.member_eq_ok_iff.1 hread
  have hall := hd.member hholder
  obtain ⟨js, hjs, rfl, hnormal⟩ : ∃ js : List Json, (∀ j ∈ js, j.All p) ∧
      js.map Value.ofJson = found ∧ flags.normal holder = .array js := by
    cases holder with
    | array js =>
      refine ⟨js, hall.item, ?_, rfl⟩
      rw [← Value.ofJsonItems_eq_map]
      exact Except.ok.inj hfound
    | object ms =>
      refine ⟨ms.map fun m => .text m.1, ?_, ?_, rfl⟩
      · exact List.forall_mem_map.2 fun m _ => .scalar (hp m.1)
      · obtain rfl := Except.ok.inj hfound
        simp [Value.ofJson]
    | scalar s => cases s <;> contradiction
  obtain ⟨found, rfl⟩ : ∃ found : List (DocumentOf p), found.map (·.1) = js :=
    ⟨js.attachWith _ hjs, List.attachWith_map_subtype_val _⟩
  refine ⟨found, by simp, ?_⟩
  simp only [flagsKey] at hholder ⊢
  rw [← hnormal]
  simp [gates, record, hholder]

end

end Form

end

/-! ## Nodes -/

namespace Form

open Registry

theorem reads_member {p : Scalar → Prop} {T : Type} {toValue : T → Value} {toJson : T → Json}
    {r : Registry} {form : Form} {spec : FieldSpec} {key : String} {tag : Scalar}
    {ms : List (String × Json)} {v : Value}
    (hform : form.Reads p (r.decodeNodeField spec.name) toValue toJson)
    (hkey : spec.key? = some (.text key)) (hd : (Json.object ms).All p)
    (h : r.nodeField tag (.object ms) spec = .ok v) :
    ∃ t, v = toValue t ∧ ∃ j, ms.lookup key = some j ∧ form.normal j = toJson t := by
  rw [nodeField, hkey, Option.elim_some, bind_eq_ok_iff] at h
  obtain ⟨_, ⟨rfl⟩, h⟩ := h
  simp only [Json.member?] at h
  cases hlookup : ms.lookup key with
  | none => simp [hlookup] at h
  | some found =>
    simp only [hlookup] at h
    obtain ⟨t, hv, hnormal⟩ := hform (hd.member hlookup) h
    exact ⟨t, hv, found, rfl, hnormal⟩

section

variable {p : Scalar → Prop}

theorem reads_raw :
    raw.Reads p (fun j => .ok (.ofJson j)) (fun i : DocumentOf p => .ofJson i.1) (·.1) := by
  intro d v hd hv
  exact ⟨⟨d, hd⟩, (Except.ok.inj hv).symm, rfl⟩

section

variable (hp : ∀ s, p (.text s)) {ms : List (String × Json)} (hd : (Json.object ms).All p)
  {vs : List Value}
include hp hd

theorem reads_struct (htag : ms.lookup "node" = some (.text "struct"))
    (h : Class.struct.fields.mapM (builtin.nodeField (.text "struct") (.object ms)) = .ok vs) :
    ∃ (ident : DocumentOf p) (flags : List (DocumentOf p))
      (fields : List (FieldTree (DocumentOf p))) (pub : DocumentOf p),
      vs = [.ofJson ident.1, Features.toValue (flags.map fun f => .ofJson f.1),
        .tuple (fields.map (FieldTree.toValue fun i => .ofJson i.1)), .ofJson pub.1] ∧
      struct.normal (.object ms) =
        (NodeTree.struct ident flags fields pub).toJson (·.1) (·.1) (·.1) := by
  rw [mapM_eq_ok_iff] at h
  simp only [Class.struct, Class.nodeFields, List.cons_append, List.nil_append,
    List.forall₂_cons_left_iff, List.forall₂_nil_left_iff] at h
  obtain ⟨v₁, _, h₁, ⟨v₂, _, h₂, ⟨v₃, _, h₃, ⟨v₄, _, h₄, rfl, rfl⟩, rfl⟩, rfl⟩, rfl⟩ := h
  obtain ⟨ident, rfl, j₁, hj₁, hident⟩ := reads_member reads_raw rfl hd h₁
  obtain ⟨flags, rfl, j₂, hj₂, hflags⟩ := reads_member (reads_gates hp) rfl hd h₂
  obtain ⟨fields, rfl, j₃, hj₃, hfields⟩ :=
    reads_member (reads_tuple reads_field decodeField_text) rfl hd h₃
  obtain ⟨pub, rfl, j₄, hj₄, hpub⟩ := reads_member reads_raw rfl hd h₄
  refine ⟨ident, flags, fields, pub, rfl, ?_⟩
  simp only [flagsKey] at hflags
  rw [NodeTree.toJson, ← hident, ← hflags, ← hfields, ← hpub]
  simp [struct, record, htag, hj₁, hj₂, hj₃, hj₄, raw]

theorem reads_enum (htag : ms.lookup "node" = some (.text "enum"))
    (h : Class.enum.fields.mapM (builtin.nodeField (.text "enum") (.object ms)) = .ok vs) :
    ∃ (ident : DocumentOf p) (flags : List (DocumentOf p))
      (variants : List (VariantTree (DocumentOf p))),
      vs = [.ofJson ident.1, Features.toValue (flags.map fun f => .ofJson f.1),
        .tuple (variants.map (VariantTree.toValue fun i => .ofJson i.1))] ∧
      enum.normal (.object ms) =
        (NodeTree.enum (π := DocumentOf p) ident flags variants).toJson (·.1) (·.1) (·.1) := by
  rw [mapM_eq_ok_iff] at h
  simp only [Class.enum, Class.nodeFields, List.cons_append, List.nil_append,
    List.forall₂_cons_left_iff, List.forall₂_nil_left_iff] at h
  obtain ⟨v₁, _, h₁, ⟨v₂, _, h₂, ⟨v₃, _, h₃, rfl, rfl⟩, rfl⟩, rfl⟩ := h
  obtain ⟨ident, rfl, j₁, hj₁, hident⟩ := reads_member reads_raw rfl hd h₁
  obtain ⟨flags, rfl, j₂, hj₂, hflags⟩ := reads_member (reads_gates hp) rfl hd h₂
  obtain ⟨variants, rfl, j₃, hj₃, hvariants⟩ :=
    reads_member (reads_tuple reads_variant decodeVariant_text) rfl hd h₃
  refine ⟨ident, flags, variants, rfl, ?_⟩
  simp only [flagsKey] at hflags
  rw [NodeTree.toJson, ← hident, ← hflags, ← hvariants]
  simp [enum, record, htag, hj₁, hj₂, hj₃, raw]

end

end

end Form

/-! ## Documents -/

theorem Scalar.eq_text_of_same {s : String} {a : Scalar} (h : (text s).same a) : a = text s := by
  have hmeaning : Meaning.text s = a.meaning := Scalar.same_iff.1 h
  cases a with
  | text t => exact congrArg text (Meaning.text.inj hmeaning).symm
  | float x =>
    rw [meaning] at hmeaning
    split at hmeaning <;> contradiction
  | _ => contradiction

theorem Registry.node?_builtin {tag : Scalar} {cls : Class} (h : builtin.node? tag = some cls) :
    (tag = .text "struct" ∧ cls = .struct) ∨ (tag = .text "enum" ∧ cls = .enum) := by
  obtain ⟨k, hmem, hsame⟩ := Entries.exists_of_find? h
  have hentry : (k, cls) ∈ [(Scalar.text "struct", Class.struct), (.text "enum", .enum)] := hmem
  simp only [List.mem_cons, Prod.mk.injEq, List.not_mem_nil, or_false] at hentry
  obtain ⟨rfl, rfl⟩ | ⟨rfl, rfl⟩ := hentry
  · exact .inl ⟨Scalar.eq_text_of_same hsame, rfl⟩
  · exact .inr ⟨Scalar.eq_text_of_same hsame, rfl⟩

namespace Json

open Registry

theorem form_eq_type {d : Json} (h : d.has nodeKey = .ok false) : d.form = .type := by
  cases d with
  | object ms =>
    have hnone : ms.lookup nodeKey = none := by
      rw [List.lookup_eq_none_iff]
      intro m hm
      have hne := List.any_eq_false.1 (Except.ok.inj h) m hm
      simpa using Ne.symm (by simpa using hne)
    simp [form, hnone]
  | _ => rfl

variable {p : Scalar → Prop}

variable (p) in
/-- The normal form stands for all that the decoder makes of a document. -/
structure Normalizes (d : Json) (x : Value) : Prop where
  encode : x.encode = .ok (.ofJson d.normal)
  decode : builtin.decode d.normal = .ok x
  equal : x.equal x
  all : d.normal.All p

section

variable (hp : ∀ s, p (.text s)) {d : Json} {x : Value}
include hp

theorem normalizes_type {t : TypeTree} (h : d.normal = t.toJson) : d.Normalizes p t.toValue where
  encode := by rw [h, t.encode_toValue]
  decode := by rw [h, t.decode_toJson]
  equal := Value.equal_refl (Value.keyed_type t) (by cases t <;> rfl)
  all := by
    rw [h]
    exact t.all_toJson hp

theorem normalizes_node {n : NodeTree (DocumentOf p) (DocumentOf p) (DocumentOf p)}
    (h : d.normal = n.toJson (·.1) (·.1) (·.1)) :
    d.Normalizes p
      (n.toValue (fun i => .ofJson i.1) (fun f => .ofJson f.1) fun b => .ofJson b.1) where
  encode := by rw [h, n.encode_toValue]
  decode := by rw [h, n.decode_toJson]
  equal := by
    have hdocument : ∀ j : DocumentOf p, (Value.ofJson j.1).Keyed :=
      fun j => Value.keyed_ofJson j.2
    exact Value.equal_refl (Value.keyed_node hdocument hdocument hdocument n)
      (by cases n <;> rfl)
  all := by
    rw [h]
    exact n.all_toJson hp (·.2) (·.2) (·.2)

theorem exists_node_of_decodeNode (hd : d.All p) (h : builtin.decodeNode d = .ok x) :
    ∃ n : NodeTree (DocumentOf p) (DocumentOf p) (DocumentOf p),
      x = n.toValue (fun i => .ofJson i.1) (fun f => .ofJson f.1) (fun b => .ofJson b.1) ∧
        d.normal = n.toJson (·.1) (·.1) (·.1) := by
  obtain ⟨found, htag, hnode⟩ := bind_eq_ok_iff.1 h
  obtain ⟨ms, rfl, hlookup⟩ := member_eq_ok_iff.1 htag
  cases found with
  | scalar tag =>
    cases hcls : builtin.node? tag with
    | none => simp [hcls] at hnode
    | some cls =>
      rw [decodeNode_eq htag hcls, bind_eq_ok_iff] at h
      obtain ⟨vs, hvs, hmake⟩ := h
      obtain ⟨rfl, rfl⟩ | ⟨rfl, rfl⟩ := node?_builtin hcls
      · obtain ⟨ident, flags, fields, pub, rfl, hnormal⟩ := Form.reads_struct hp hd hlookup hvs
        have hform : (object ms).form = .struct := by simp [form, hlookup]
        rw [← hform] at hnormal
        exact ⟨.struct ident flags fields pub, (Except.ok.inj hmake).symm, hnormal⟩
      · obtain ⟨ident, flags, variants, rfl, hnormal⟩ := Form.reads_enum hp hd hlookup hvs
        have hform : (object ms).form = .enum := by simp [form, hlookup]
        rw [← hform] at hnormal
        exact ⟨.enum ident flags variants, (Except.ok.inj hmake).symm, hnormal⟩
  | _ => contradiction

/-- Whatever the decoder accepts is a well-formed type or node. -/
theorem exists_tree_of_decode (hd : d.All p) (h : builtin.decode d = .ok x) :
    (∃ t : TypeTree, x = t.toValue ∧ d.normal = t.toJson) ∨
    ∃ n : NodeTree (DocumentOf p) (DocumentOf p) (DocumentOf p),
      x = n.toValue (fun i => .ofJson i.1) (fun f => .ofJson f.1) (fun b => .ofJson b.1) ∧
        d.normal = n.toJson (·.1) (·.1) (·.1) := by
  obtain ⟨isNode, hnode, h⟩ := bind_eq_ok_iff.1 h
  cases isNode with
  | true => exact .inr (exists_node_of_decodeNode hp hd h)
  | false =>
    obtain ⟨isType, htype, h⟩ := bind_eq_ok_iff.1 h
    cases isType with
    | false => contradiction
    | true =>
      obtain ⟨t, ht, hnormal⟩ := (d.verdict.isType h).decode
      refine .inl ⟨t, Except.ok.inj (h.symm.trans ht), ?_⟩
      rw [normal, form_eq_type hnode]
      exact hnormal

theorem normalizes_of_decode (hd : d.All p) (h : builtin.decode d = .ok x) :
    d.Normalizes p x := by
  obtain ⟨t, rfl, hnormal⟩ | ⟨n, rfl, hnormal⟩ := exists_tree_of_decode hp hd h
  · exact normalizes_type hp hnormal
  · exact normalizes_node hp hnormal

end

/-- Whatever the decoder accepts is encoded in its normal form. That form is accepted for an equal
value and is its own normal form, and accepted documents that differ in nothing that is read give
equal values. -/
theorem decode_normal {d : Json} (hd : d.All fun s => s.isNaN = false) {x : Value}
    (h : builtin.decode d = .ok x) :
    x.encode = .ok (.ofJson d.normal) ∧
    (∃ y, builtin.decode d.normal = .ok y ∧ y.equal x) ∧
    d.normal.normal = d.normal ∧
    ∀ (e : Json) (y : Value), e.All (fun s => s.isNaN = false) → d.Alike e →
      builtin.decode e = .ok y → y.equal x := by
  have htext : ∀ s, (Scalar.text s).isNaN = false := fun s => rfl
  have hx := normalizes_of_decode htext hd h
  refine ⟨hx.encode, ⟨x, hx.decode, hx.equal⟩, ?_, ?_⟩
  · -- The normal form is accepted for the same value, and a value has one encoding.
    have hagain := normalizes_of_decode htext hx.all hx.decode
    exact ofJson_injective (Except.ok.inj (hagain.encode.symm.trans hx.encode))
  · intro e y he halike hy
    have hdecode := (normalizes_of_decode htext he hy).decode
    rw [← halike.normal_eq, hx.decode] at hdecode
    obtain rfl := Except.ok.inj hdecode
    exact hx.equal

/-- A struct in no particular order, with flags for keys, a text for its fields and a note. -/
def looseStruct : Json := .object
  [("fields", .text ""), ("note", .text "draft"), ("ident", .text "Path"),
    ("all_fields_pub", .scalar (.bool true)),
    ("features", .object [("any", .object [("full", .scalar .null)])]), ("node", .text "struct")]

/-- The same struct in the order of its class and without the note. -/
def orderedStruct : Json := .object
  [("node", .text "struct"), ("ident", .text "Path"),
    ("features", .object [("any", .object [("full", .scalar .null)])]), ("fields", .text ""),
    ("all_fields_pub", .scalar (.bool true))]

theorem decode_normal_of_loose : ∃ x y,
    builtin.decode looseStruct = .ok x ∧ builtin.decode orderedStruct = .ok y ∧ y.equal x ∧
      x.encode = .ok (.ofJson (.object
        [("node", .text "struct"), ("ident", .text "Path"),
          ("features", .object [("any", .array [.text "full"])]), ("fields", .array []),
          ("all_fields_pub", .scalar (.bool true))])) := by
  have hgates : (object [("any", object [("full", .scalar .null)])]).All
      fun s => s.isNaN = false := by
    refine .object (by simp) (List.forall_mem_singleton.2 (.object (by simp) ?_))
    exact List.forall_mem_singleton.2 (.scalar rfl)
  have hloose : looseStruct.All fun s => s.isNaN = false := by
    refine .object (by decide) ?_
    simp only [List.forall_mem_cons, hgates, true_and]
    exact ⟨.scalar rfl, .scalar rfl, .scalar rfl, .scalar rfl, .scalar rfl, by simp⟩
  have hordered : orderedStruct.All fun s => s.isNaN = false := by
    refine .object (by decide) ?_
    simp only [List.forall_mem_cons, hgates, true_and]
    exact ⟨.scalar rfl, .scalar rfl, .scalar rfl, .scalar rfl, by simp⟩
  have halike : looseStruct.Alike orderedStruct := by
    refine ⟨rfl, .inr ⟨_, _, rfl, rfl, ?_⟩⟩
    simp only [List.forall_mem_cons]
    exact ⟨.some rfl, .some rfl, .some (.inl rfl), .some (.inl rfl), .some rfl, by simp⟩
  obtain ⟨hencode, -, -, hequal⟩ := decode_normal hloose rfl
  exact ⟨_, _, rfl, rfl, hequal _ _ hordered halike rfl, hencode⟩

end Json

end AstSchema
