import AstSchema.Proofs.RegistryCodec
import Mathlib.Tactic.FinCases

/-! Values that become documents, however they are nested. A document is a value without tuples and
objects, so it is its own document, and each layout gives it one text. -/
namespace AstSchema

/-! ## What becomes a document -/

/-- A class whose objects become documents if their fields do: it has texts for keys, and for a tag
if it is one of types or nodes. -/
structure Class.Documented (cls : Class) : Prop where
  keys : ∀ spec ∈ cls.fields, ∃ key, spec.key? = some (.text key)
  tag : cls.family ≠ .plain → ∃ tag, cls.tag? = some (.text tag)

/-- Of the built-in classes these are all but the bases of types and nodes, which have no tag. -/
theorem Class.documented_of_mem_builtins {cls : Class} (h : cls ∈ builtins)
    (htype : cls ≠ type) (hnode : cls ≠ node) : cls.Documented := by
  have hkeys : ∀ cls ∈ builtins, ∀ spec ∈ cls.fields,
      spec.key? = some (.text spec.name) ∨ spec.key? = some (.text "type") := by decide
  refine ⟨fun spec hspec => (hkeys cls h spec hspec).elim (⟨_, ·⟩) (⟨_, ·⟩), fun hplain => ?_⟩
  fin_cases h <;> first | exact ⟨_, rfl⟩ | contradiction

namespace Value

/-- Anything may stand in any field, but for the flags of gates: these are documents already. -/
inductive Exportable : Value → Prop
  | scalar (s : Scalar) : Exportable (.scalar s)
  | list {items : List Value} (hitems : ∀ v ∈ items, Exportable v) : Exportable (.list items)
  | tuple {items : List Value} (hitems : ∀ v ∈ items, Exportable v) : Exportable (.tuple items)
  | mapping {entries : List (String × Value)} (hkeys : (entries.map (·.1)).Nodup)
      (hentries : ∀ e ∈ entries, Exportable e.2) :
      Exportable (.mapping (entries.map fun e => (.text e.1, e.2)))
  | gates {cls : Class} {flags : List Json} (hrole : cls.role = .features)
      (hflags : ∀ j ∈ flags, j.Keyed) (further : List Value) :
      Exportable (.object cls (.list (flags.map ofJson) :: further))
  | object {cls : Class} {fields : List Value} (hrole : cls.role ≠ .features)
      (hcls : cls.Documented) (hfields : ∀ v ∈ fields, Exportable v) :
      Exportable (.object cls fields)

/-! ## Rows of documents -/

/-- The value has this document, in which no object has a key twice. -/
structure Exports (v : Value) (j : Json) : Prop where
  encode_eq : v.encode = .ok (.ofJson j)
  keyed : j.Keyed

theorem exists_encodeItems {items : List Value} (h : ∀ v ∈ items, ∃ j, Exports v j) :
    ∃ js, encodeItems items = .ok (ofJsonItems js) ∧ (Json.array js).Keyed := by
  choose! document hdocument using h
  refine ⟨items.map document, ?_, keyed_array ?_⟩
  · have hitems : items.mapM encode = .ok ((items.map document).map ofJson) := by
      rw [List.map_map, mapM_eq_ok_iff, List.forall₂_map_right_iff, List.forall₂_same]
      exact fun v hv => (hdocument v hv).encode_eq
    rw [encodeItems_eq_mapM, hitems, ofJsonItems_eq_map]
  · exact List.forall_mem_map.2 fun v hv => (hdocument v hv).keyed

theorem exists_encodeEntries {entries : List (String × Value)} (hkeys : (entries.map (·.1)).Nodup)
    (h : ∀ e ∈ entries, ∃ j, Exports e.2 j) :
    ∃ members, encodeEntries (entries.map fun e => (.text e.1, e.2)) = .ok (ofJsonMembers members) ∧
      (Json.object members).Keyed := by
  choose! document hdocument using h
  refine ⟨entries.map fun e => (e.1, document e), ?_, keyed_object ?_ ?_⟩
  · induction entries with
    | nil => rfl
    | cons e entries ih =>
      obtain ⟨he, hentries⟩ := List.forall_mem_cons.1 hdocument
      rw [List.map_cons, encodeEntries, he.encode_eq, ih (List.nodup_cons.1 hkeys).2 hentries]
      rfl
  · rwa [List.map_map]
  · exact List.forall_mem_map.2 fun e he => (hdocument e he).keyed

theorem exists_encodeFields {specs : List FieldSpec} {vs : List Value}
    (hkeys : ∀ spec ∈ specs, ∃ key, spec.key? = some (.text key))
    (h : ∀ v ∈ vs, ∃ j, Exports v j) :
    ∃ members, encodeFields specs vs = .ok (ofJsonMembers members) ∧
      ∀ m ∈ members, m.2.Keyed := by
  induction specs generalizing vs with
  | nil => exact ⟨[], by cases vs <;> rfl, by simp⟩
  | cons spec specs ih =>
    cases vs with
    | nil => exact ⟨[], rfl, by simp⟩
    | cons v vs =>
      obtain ⟨⟨key, hkey⟩, hkeys⟩ := List.forall_mem_cons.1 hkeys
      obtain ⟨⟨j, hj⟩, h⟩ := List.forall_mem_cons.1 h
      obtain ⟨members, hmembers, hkeyed⟩ := ih hkeys h
      refine ⟨(key, j) :: members, ?_, List.forall_mem_cons.2 ⟨hj.keyed, hkeyed⟩⟩
      rw [encodeFields, hj.encode_eq, hmembers]
      simp only [bind, Except.bind, hkey]
      rfl

/-- Members in which a key may come up again make an object in which none does. -/
theorem exists_entriesOf {members : List (String × Json)} (h : ∀ m ∈ members, m.2.Keyed) :
    ∃ j : Json, mapping (entriesOf (ofJsonMembers members)) = ofJson j ∧ j.Keyed := by
  refine ⟨_, by rw [entriesOf_ofJsonMembers_eq, ← ofJson], keyed_object ?_ ?_⟩
  · exact List.pairwise_map.2 ((Entries.pairwise_ofPairs members).imp ne_of_beq_false)
  · exact Entries.forall_mem_ofPairs h

/-! ## Objects -/

section

variable {cls : Class} {fields : List Value}

theorem exports_type (hfamily : cls.family = .type) (hcls : cls.Documented)
    (h : ∀ v ∈ fields, ∃ j, Exports v j) : ∃ j, Exports (.object cls fields) j := by
  obtain ⟨tag, htag⟩ := hcls.tag (by simp [hfamily])
  have hpayload : ∃ payload : Json, payload.Keyed ∧
      encode (.object cls fields) = .ok (.mapping [(.text tag, ofJson payload)]) := by
    rw [encode.eq_def]
    simp only [hfamily, htag]
    -- A single field has no key under the tag: its document is all there is.
    split
    next =>
      obtain ⟨j, hj⟩ := h _ List.mem_cons_self
      exact ⟨j, hj.keyed, by rw [hj.encode_eq]; rfl⟩
    next =>
      obtain ⟨members, hmembers, hkeyed⟩ := exists_encodeFields hcls.keys h
      obtain ⟨j, hj, hdistinct⟩ := exists_entriesOf hkeyed
      exact ⟨j, hdistinct, by rw [hmembers, ← hj]; rfl⟩
  obtain ⟨payload, hkeyed, hpayload⟩ := hpayload
  exact ⟨.object [(tag, payload)], hpayload,
    keyed_object (by simp) (List.forall_mem_singleton.2 hkeyed)⟩

theorem exports_node (hfamily : cls.family = .node) (hcls : cls.Documented)
    (h : ∀ v ∈ fields, ∃ j, Exports v j) : ∃ j, Exports (.object cls fields) j := by
  obtain ⟨tag, htag⟩ := hcls.tag (by simp [hfamily])
  obtain ⟨members, hmembers, hkeyed⟩ := exists_encodeFields hcls.keys h
  have hentries : ∀ m ∈ (nodeKey, .text tag) :: members, m.2.Keyed :=
    List.forall_mem_cons.2 ⟨.scalar _, hkeyed⟩
  obtain ⟨j, hj, hdistinct⟩ := exists_entriesOf hentries
  refine ⟨j, ?_, hdistinct⟩
  rw [encode.eq_def, ← hj]
  simp only [hfamily, htag, hmembers]
  rfl

theorem exports_plain (hfamily : cls.family = .plain) (hrole : cls.role ≠ .features)
    (hcls : cls.Documented) (h : ∀ v ∈ fields, ∃ j, Exports v j) :
    ∃ j, Exports (.object cls fields) j := by
  obtain ⟨members, hmembers, hkeyed⟩ := exists_encodeFields hcls.keys h
  obtain ⟨j, hj, hdistinct⟩ := exists_entriesOf hkeyed
  refine ⟨j, ?_, hdistinct⟩
  rw [encode.eq_def, ← hj]
  simp only [hfamily, hmembers]
  rfl

end

theorem Exportable.exists_document {v : Value} (h : v.Exportable) : ∃ j, Exports v j := by
  induction h with
  | scalar s => exact ⟨.scalar s, rfl, .scalar s⟩
  | list _ ih | tuple _ ih =>
    obtain ⟨js, hjs, hkeyed⟩ := exists_encodeItems ih
    exact ⟨.array js, by rw [encode, hjs]; rfl, hkeyed⟩
  | mapping hkeys _ ih =>
    obtain ⟨members, hmembers, hkeyed⟩ := exists_encodeEntries hkeys ih
    exact ⟨.object members, by rw [encode, hmembers]; rfl, hkeyed⟩
  | @gates cls flags hrole hflags further =>
    refine ⟨.object [(flagsKey, .array flags)], ?_,
      keyed_object (by simp) (List.forall_mem_singleton.2 (keyed_array hflags))⟩
    rw [encode.eq_def]
    simp only [Class.family, hrole, Role.family]
    rw [ofJson, ofJsonMembers, ofJson, ofJsonItems_eq_map]
    rfl
  | @object cls fields hrole hcls _ ih =>
    cases hfamily : cls.family with
    | type => exact exports_type hfamily hcls ih
    | node => exact exports_node hfamily hcls ih
    | plain => exact exports_plain hfamily hrole hcls ih

/-- Whatever is nested in it, a value that may be exported has a document. Encoding gives the
document as a value, so it has neither tuples nor objects and each of its keys is a text that comes
up once. The document encodes to itself, and either one is written with the same text. -/
theorem Exportable.encode_document {v : Value} (h : v.Exportable) : ∃ j : Json, j.Keyed ∧
    v.encode = .ok (.ofJson j) ∧ (ofJson j).encode = .ok (.ofJson j) ∧
    ∀ layout, v.encodeText layout = .ok (Json.render layout j) ∧
      (ofJson j).encodeText layout = .ok (Json.render layout j) := by
  obtain ⟨j, hj⟩ := h.exists_document
  have hfixed := encode_ofJson j
  refine ⟨j, hj.keyed, hj.encode_eq, hfixed, fun layout => ⟨?_, ?_⟩⟩
  · exact encodeText_of_encode hj.encode_eq layout
  · exact encodeText_of_encode hfixed layout

/-- Definitions in which hardly a field is of its shape. -/
def mixedValue : Value :=
  .object .definitions [
    .tuple [.object .enum [.object .item [.tuple []], .object .features [.list [.int 1]], .int 7]],
    .mapping [(.text "Eq", .object .report [.tuple [], .scalar .null])]]

def mixedDocument : Json :=
  .object [
    ("types", .array [.object [("node", .text "enum"), ("ident", .object [("item", .array [])]),
      ("features", .object [("any", .array [.scalar (.int 1)])]), ("variants", .scalar (.int 7))]]),
    ("tokens", .object [("Eq", .object [("success", .array []), ("errors", .scalar .null)])])]

theorem exportable_mixedValue : mixedValue.Exportable := by
  have hobject : ∀ {cls : Class} {fields : List Value},
      cls ∈ Class.builtins ∧ cls ≠ .type ∧ cls ≠ .node ∧ cls.role ≠ .features →
      (∀ v ∈ fields, v.Exportable) → (Value.object cls fields).Exportable := fun h hfields =>
    .object h.2.2.2 (Class.documented_of_mem_builtins h.1 h.2.1 h.2.2.1) hfields
  have hempty : (tuple []).Exportable := .tuple (by simp)
  have hitem : (Value.object .item [.tuple []]).Exportable :=
    hobject (by decide) (by simpa using hempty)
  have hflags : ∀ j ∈ [Json.scalar (.int 1)], j.Keyed :=
    List.forall_mem_singleton.2 (.scalar (.int 1))
  have hgates : (Value.object .features [.list [.int 1]]).Exportable := .gates rfl hflags []
  have hreport : (Value.object .report [.tuple [], .scalar .null]).Exportable :=
    hobject (by decide) (by simpa using ⟨hempty, .scalar .null⟩)
  have htokens : ∀ e ∈ [("Eq", Value.object .report [.tuple [], .scalar .null])], e.2.Exportable :=
    List.forall_mem_singleton.2 hreport
  have hnode : (Value.object .enum
      [.object .item [.tuple []], .object .features [.list [.int 1]], .int 7]).Exportable :=
    hobject (by decide) (by simpa using ⟨hitem, hgates, .scalar (.int 7)⟩)
  exact hobject (by decide)
    (by simpa using ⟨.tuple (by simpa using hnode), .mapping (by simp) htokens⟩)

theorem encode_document_of_mixed : mixedValue.Exportable ∧
    mixedValue.encode = .ok (.ofJson mixedDocument) ∧
    (ofJson mixedDocument).encode = .ok (.ofJson mixedDocument) ∧
    ∀ layout, mixedValue.encodeText layout = .ok (Json.render layout mixedDocument) := by
  have hencode : mixedValue.encode = .ok (.ofJson mixedDocument) := rfl
  obtain ⟨j, -, hj, hfixed, htext⟩ := exportable_mixedValue.encode_document
  obtain rfl := Json.ofJson_injective (Except.ok.inj (hj.symm.trans hencode))
  exact ⟨exportable_mixedValue, hencode, hfixed, fun layout => (htext layout).1⟩

end Value

end AstSchema
