import AstSchema.Proofs.Refusal
import AstSchema.Proofs.Sections

/-! Which documents are refused for something that is missing. A key can be missing in any part of
an entry, and the loader passes that on as it is: a bad entry can be told like a document without a
section. -/
namespace AstSchema

/-! ## Steps -/

/-- The step is refused for something that is missing in what it was given. -/
def Missing {α : Type} (x : Except Error α) : Prop := ∃ e, x = .error e ∧ e.kind = .missing

section

variable {α β : Type} {x : Except Error α}

@[simp] theorem not_missing_ok (a : α) : ¬ Missing (.ok a : Except Error α) := by
  simp [Missing]

@[simp] theorem missing_error_iff {e : Error} :
    Missing (.error e : Except Error α) ↔ e.kind = .missing := by
  simp [Missing]

theorem missing_bind_iff {f : α → Except Error β} :
    Missing (x >>= f) ↔ Missing x ∨ ∃ a, x = .ok a ∧ Missing (f a) := by
  cases x with
  | error e => simp [bind, Except.bind]
  | ok a => simp [bind, Except.bind]

/-- A second step that lacks nothing leaves it to the first. -/
theorem missing_bind_of_not {f : α → Except Error β} (h : ∀ a, x = .ok a → ¬ Missing (f a)) :
    Missing (x >>= f) ↔ Missing x := by
  rw [missing_bind_iff]
  exact or_iff_left fun ⟨a, ha, hf⟩ => h a ha hf

theorem missing_map_iff {f : α → β} : Missing (x >>= fun a => .ok (f a)) ↔ Missing x :=
  missing_bind_of_not fun _ _ => not_missing_ok _

theorem missing_mapM_iff {f : α → Except Error β} {accepted lacking : α → Prop} {xs : List α}
    (h : ∀ x ∈ xs, ((∃ y, f x = .ok y) ↔ accepted x) ∧ (Missing (f x) ↔ lacking x)) :
    Missing (xs.mapM f) ↔ FirstFault accepted lacking xs := by
  induction xs with
  | nil => simp [pure, Except.pure]
  | cons x xs ih =>
    obtain ⟨⟨haccepted, hlacking⟩, hxs⟩ := List.forall_mem_cons.1 h
    rw [List.mapM_cons, missing_bind_iff, firstFault_cons, ← ih hxs, hlacking, ← haccepted]
    refine or_congr_right ⟨?_, ?_⟩
    · rintro ⟨y, hy, h⟩
      exact ⟨⟨y, hy⟩, missing_map_iff.1 h⟩
    · rintro ⟨⟨y, hy⟩, h⟩
      exact ⟨y, hy, missing_map_iff.2 h⟩

end

/-! ## Grammars with keys that can be missing -/

/-- A grammar, with the documents in which the first fault is a key that is missing. -/
structure Demand extends Grammar where
  Lacks : Json → Prop

namespace Demand

/-- The reader judges by the grammar, and it misses a key exactly in a document that lacks one. -/
def Governs {α : Type} (g : Demand) (read : Json → Except Error α) : Prop :=
  g.Judges read ∧ ∀ j, Missing (read j) ↔ g.Lacks j

/-- Any document, taken as it is. -/
def raw : Demand := ⟨.raw, fun _ => False⟩

def type : Demand := ⟨.type, fun j => ∃ key, j.Lacks key⟩

def flags : Demand := ⟨.flags, fun _ => False⟩

def row (item : Demand) : Demand :=
  ⟨.row item.toGrammar, fun j =>
    ∃ items, j.items = .ok items ∧ FirstFault item.Accepts item.Lacks items⟩

/-- There is no such member, or something is missing in it. -/
def LacksMember (ms : List (String × Json)) (key : String) (g : Demand) : Prop :=
  ms.lookup key = none ∨ Grammar.Member ms key g.Lacks

def record (parts : List (String × Demand)) : Demand :=
  ⟨.record (parts.map fun p => (p.1, p.2.toGrammar)), fun j => ∃ ms, j = .object ms ∧
    FirstFault (fun p => Grammar.Member ms p.1 p.2.Accepts) (fun p => LacksMember ms p.1 p.2) parts⟩

def field : Demand := record [("ident", raw), ("type", type)]

def variant : Demand := record [("ident", raw), ("fields", row type)]

def gates : Demand := record [("any", flags)]

def struct : Demand := record
  [("ident", raw), ("features", gates), ("fields", row field), ("all_fields_pub", raw)]

def enum : Demand := record [("ident", raw), ("features", gates), ("variants", row variant)]

/-- No key is missing in a node of no known tag, which is refused for its tag. -/
def unknown (tag : Json) : Demand := ⟨.unknown tag, fun _ => False⟩

/-- An object that is neither tagged as a node nor as a type lacks a tag. -/
def untagged (ms : List (String × Json)) : Demand :=
  ⟨.type, fun j => ¬ Registry.IsTagged ms ∨ type.Lacks j⟩

end Demand

/-- The member for the tag of a node tells what an object has to have. -/
def Json.demand (ms : List (String × Json)) : Demand :=
  match ms.lookup nodeKey with
  | some (.scalar (.text "struct")) => .struct
  | some (.scalar (.text "enum")) => .enum
  | some tag => .unknown tag
  | none => .untagged ms

namespace Json

variable {ms : List (String × Json)}

theorem demand_struct (h : ms.lookup nodeKey = some (.text "struct")) : demand ms = .struct := by
  simp [demand, h]

theorem demand_enum (h : ms.lookup nodeKey = some (.text "enum")) : demand ms = .enum := by
  simp [demand, h]

theorem demand_unknown {tag : Json} (h : ms.lookup nodeKey = some tag)
    (hstruct : tag ≠ .text "struct") (henum : tag ≠ .text "enum") :
    demand ms = .unknown tag := by
  rw [demand, h]
  split
  next heq => exact absurd (Option.some.inj heq) hstruct
  next heq => exact absurd (Option.some.inj heq) henum
  next heq => rw [Option.some.inj heq]
  next heq => contradiction

theorem demand_untagged (h : ms.lookup nodeKey = none) : demand ms = .untagged ms := by
  simp [demand, h]

end Json

/-! ## Readers -/

namespace Demand

open Registry Grammar

variable {α : Type} {g : Demand} {read : Json → Except Error α}

theorem Governs.accepts_iff (h : g.Governs read) (j : Json) :
    (∃ a, read j = .ok a) ↔ g.Accepts j :=
  (h.1 j).ok_iff

theorem governs_raw (f : Json → α) : raw.Governs fun j => .ok (f j) :=
  ⟨judges_raw f, fun _ => by simp [raw]⟩

theorem governs_type : type.Governs builtin.decodeType := by
  refine ⟨judges_type, fun j => ⟨?_, ?_⟩⟩
  · rintro ⟨e, he, hkind⟩
    cases j.verdict with
    | accepted h =>
      obtain ⟨t, ht, -⟩ := h.decode
      simp [ht] at he
    | @lacking key h => exact ⟨key, h⟩
    | refused h =>
      obtain ⟨e', he', hkind'⟩ := h
      obtain rfl := Except.error.inj (he.symm.trans he')
      simp [hkind] at hkind'
  · rintro ⟨key, h⟩
    rw [h.decode, missing_error_iff]
    rfl

theorem governs_flags : flags.Governs fun j => Features.ofValue (.ofJson j) := by
  refine ⟨judges_flags, fun j => ?_⟩
  cases j with
  | scalar s => cases s <;> exact iff_of_false (by rintro ⟨_, ⟨rfl⟩, hkind⟩; contradiction) id
  | array items => exact iff_of_false (not_missing_ok _) id
  | object ms => exact iff_of_false (not_missing_ok _) id

theorem not_missing_items (j : Json) : ¬ Missing j.items := by
  cases j with
  | scalar s => cases s <;> simp [Json.items, Error.kind]
  | _ => exact not_missing_ok _

theorem governs_row (h : g.Governs read) :
    (row g).Governs fun j => j.items >>= fun items => items.mapM read := by
  refine ⟨judges_row h.1, fun j => ?_⟩
  have hitems (items : List Json) : Missing (items.mapM read) ↔ FirstFault g.Accepts g.Lacks items :=
    missing_mapM_iff fun i _ => ⟨h.accepts_iff i, h.2 i⟩
  simp only [missing_bind_iff, not_missing_items, false_or, hitems]
  rfl

theorem missing_lookup_iff (h : g.Governs read) (ms : List (String × Json)) (key : String)
    {e : Error} (he : e.kind = .missing) :
    Missing ((ms.lookup key).elim (.error e) read) ↔ LacksMember ms key g := by
  cases hlookup : ms.lookup key with
  | none => simp [LacksMember, hlookup, he]
  | some j => simp [LacksMember, Member, hlookup, h.2]

theorem missing_member_iff (h : g.Governs read) (ms : List (String × Json)) (key : String) :
    Missing ((Json.object ms).member key >>= read) ↔ LacksMember ms key g := by
  rw [← missing_lookup_iff h ms key (e := .missingKey (.text key)) rfl]
  change Missing ((ms.lookup key).elim (.error (.missingKey (.text key))) .ok >>= read) ↔ _
  cases ms.lookup key <;> rfl

theorem Governs.map (h : g.Governs read) {β : Type} (f : α → β) :
    g.Governs fun j => read j >>= fun a => .ok (f a) :=
  ⟨fun j => (h.1 j).map f, fun j => missing_map_iff.trans (h.2 j)⟩

theorem governs_gates : gates.Governs decodeFeatures := by
  refine ⟨judges_gates, fun j => ?_⟩
  cases j with
  | object ms =>
    have h := missing_member_iff (governs_flags.map Features.toValue) ms flagsKey
    exact h.trans (by simp [gates, record, flagsKey])
  | _ => exact iff_of_false (by rintro ⟨_, ⟨rfl⟩, hkind⟩; contradiction) (by simp [gates, record])

/-- An ident is taken as it is, before the rest of the object is read. -/
theorem missing_ident_iff {p : Prop} (ms : List (String × Json)) {f : Json → Except Error α}
    (h : ∀ ident, Missing (f ident) ↔ p) :
    Missing ((Json.object ms).member "ident" >>= f) ↔
      LacksMember ms "ident" raw ∨ Member ms "ident" raw.Accepts ∧ p := by
  change Missing ((ms.lookup "ident").elim (.error (.missingKey (.text "ident"))) .ok >>= f) ↔ _
  cases hlookup : ms.lookup "ident" with
  | none => simp [LacksMember, hlookup, bind, Except.bind, Error.kind]
  | some ident => simp [LacksMember, Member, hlookup, raw, Grammar.raw, h, bind, Except.bind]

theorem governs_field : field.Governs builtin.decodeField := by
  refine ⟨judges_field, fun j => ?_⟩
  cases j with
  | object ms =>
    have h (ident : Json) := missing_member_iff
      (governs_type.map fun ty => Value.object .field [.ofJson ident, ty]) ms "type"
    exact (missing_ident_iff ms h).trans (by simp [field, record])
  | _ => exact iff_of_false (by rintro ⟨_, ⟨rfl⟩, hkind⟩; contradiction) (by simp [field, record])

theorem governs_variant : variant.Governs builtin.decodeVariant := by
  refine ⟨judges_variant, fun j => ?_⟩
  cases j with
  | object ms =>
    have h (ident : Json) := missing_member_iff ((governs_row governs_type).map
      fun types => Value.object .variant [.ofJson ident, .tuple types]) ms "fields"
    simp only [bind_assoc] at h
    exact (missing_ident_iff ms h).trans (by simp [variant, record])
  | _ =>
    exact iff_of_false (by rintro ⟨_, ⟨rfl⟩, hkind⟩; contradiction) (by simp [variant, record])

/-! ### Nodes -/

/-- What the field of a node has to have. -/
def ofName (name : String) : Demand :=
  if name == "features" then gates
  else if name == "fields" then row field
  else if name == "variants" then row variant
  else raw

theorem governs_ofName (name : String) : (ofName name).Governs (builtin.decodeNodeField name) := by
  unfold ofName decodeNodeField
  split
  · exact governs_gates
  · split
    · have hrow := (governs_row governs_field).map Value.tuple
      simp only [bind_assoc] at hrow
      exact hrow
    · split
      · have hrow := (governs_row governs_variant).map Value.tuple
        simp only [bind_assoc] at hrow
        exact hrow
      · exact governs_raw Value.ofJson

theorem struct_eq_record : struct =
    record (Class.struct.fields.map fun spec => (spec.name, ofName spec.name)) := rfl

theorem enum_eq_record : enum =
    record (Class.enum.fields.map fun spec => (spec.name, ofName spec.name)) := rfl

variable {tag : Scalar} {ms : List (String × Json)}

theorem missing_fields_iff {specs : List FieldSpec}
    (hkeys : ∀ spec ∈ specs, spec.key? = some (.text spec.name)) :
    Missing (specs.mapM (builtin.nodeField tag (.object ms))) ↔
      (record (specs.map fun spec => (spec.name, ofName spec.name))).Lacks (.object ms) := by
  have hfield : ∀ spec ∈ specs,
      ((∃ v, builtin.nodeField tag (.object ms) spec = .ok v) ↔
        Member ms spec.name (ofName spec.name).Accepts) ∧
      (Missing (builtin.nodeField tag (.object ms) spec) ↔
        LacksMember ms spec.name (ofName spec.name)) := by
    intro spec hspec
    have hgoverns := governs_ofName spec.name
    rw [nodeField_eq_elim (hkeys spec hspec)]
    exact ⟨(judged_lookup hgoverns.1 ms spec.name rfl).ok_iff,
      missing_lookup_iff hgoverns ms spec.name rfl⟩
  exact (missing_mapM_iff hfield).trans (by simp [record, firstFault_map])

theorem missing_decode_iff (ms : List (String × Json)) :
    Missing (builtin.decode (.object ms)) ↔ (Json.demand ms).Lacks (.object ms) := by
  cases dispatch ms with
  | struct hlookup h =>
    rw [Json.demand_struct hlookup, struct_eq_record, h, ← missing_fields_iff (by decide)]
    exact missing_bind_of_not fun vs hvs => by simp [make_struct hvs]
  | enum hlookup h =>
    rw [Json.demand_enum hlookup, enum_eq_record, h, ← missing_fields_iff (by decide)]
    exact missing_bind_of_not fun vs hvs => by simp [make_enum hvs]
  | unknown hlookup hstruct henum h =>
    rw [Json.demand_unknown hlookup (by simpa using hstruct) (by simpa using henum), h]
    exact iff_of_false (by simp [Error.kind]) id
  | misshapen hlookup htag h =>
    rw [Json.demand_unknown hlookup (htag _) (htag _), h]
    exact iff_of_false (by simp [Error.kind]) id
  | type hlookup htagged h =>
    rw [Json.demand_untagged hlookup, h, governs_type.2]
    simp [untagged, htagged]
  | untagged hlookup htagged h =>
    rw [Json.demand_untagged hlookup, h]
    exact iff_of_true ⟨_, rfl, rfl⟩ (.inl htagged)

end Demand

/-! ## Entries -/

namespace Definitions

open Registry

variable {ms : List (String × Json)}

/-- The object names the tag of a node and has all that it asks for. -/
def Declares (ms : List (String × Json)) : Prop :=
  ms.lookup nodeKey ≠ none ∧ (Json.grammar ms).Accepts (.object ms)

/-- What was read is taken for a node unless it is an object of another family. -/
def asNode : Value → Except Error Value
  | .object cls fields =>
    if cls.family == .node then .ok (.object cls fields) else .error (.notNode cls.name)
  | v => .ok v

theorem decodeEntry_eq (r : Registry) (j : Json) : decodeEntry r j = r.decode j >>= asNode := rfl

theorem not_missing_asNode (v : Value) : ¬ Missing (asNode v) := by
  unfold asNode
  split
  · split
    · exact not_missing_ok _
    · simp [Error.kind]
  · exact not_missing_ok _

theorem asNode_toValue (t : TypeTree) : ∃ name, asNode t.toValue = .error (.notNode name) := by
  cases t with
  | name cls text => cases cls <;> exact ⟨_, rfl⟩
  | wrap cls inner => cases cls <;> exact ⟨_, rfl⟩
  | punctuated element punct => exact ⟨_, rfl⟩
  | tuple elements => exact ⟨_, rfl⟩

theorem judged_asNode {v : Value} (h : builtin.decode (.object ms) = .ok v) :
    Judged (ms.lookup nodeKey ≠ none) False (asNode v) := by
  cases dispatch ms with
  | struct hlookup hdecode =>
    obtain ⟨vs, hvs, hmake⟩ := bind_eq_ok_iff.1 (hdecode.symm.trans h)
    obtain rfl := Except.ok.inj ((make_struct hvs).symm.trans hmake)
    exact (Judged.ok _).congr (by simp [hlookup]) Iff.rfl
  | enum hlookup hdecode =>
    obtain ⟨vs, hvs, hmake⟩ := bind_eq_ok_iff.1 (hdecode.symm.trans h)
    obtain rfl := Except.ok.inj ((make_enum hvs).symm.trans hmake)
    exact (Judged.ok _).congr (by simp [hlookup]) Iff.rfl
  | unknown _ _ _ hdecode | misshapen _ _ hdecode | untagged _ _ hdecode =>
    simp [hdecode] at h
  | type hlookup _ hdecode =>
    have htype := hdecode.symm.trans h
    obtain ⟨t, ht, -⟩ := ((Grammar.judges_type _).ok_iff.1 ⟨v, htype⟩).decode
    obtain rfl := Except.ok.inj (ht.symm.trans htype)
    obtain ⟨name, hname⟩ := asNode_toValue t
    rw [hname]
    exact (Judged.invalid rfl).congr (by simp [hlookup]) Iff.rfl

theorem judged_decodeEntry (ms : List (String × Json)) :
    Judged (Declares ms) ((Json.grammar ms).Misshapen (.object ms))
      (decodeEntry .builtin (.object ms)) := by
  rw [decodeEntry_eq]
  exact ((judged_decode ms).bind fun _ => judged_asNode).congr and_comm (by simp)

theorem missing_decodeEntry_iff (ms : List (String × Json)) :
    Missing (decodeEntry .builtin (.object ms)) ↔ (Json.demand ms).Lacks (.object ms) := by
  rw [decodeEntry_eq, missing_bind_of_not fun v _ => not_missing_asNode v]
  exact Demand.missing_decode_iff ms

/-! ## Sections -/

variable {members : List (String × Json)} {entries : List (List (String × Json))}

/-- With both sections there and the second an object, only an entry can be refused. -/
theorem decode_eq_mapM (htypes : ms.lookup "types" = some (.array (entries.map .object)))
    (htokens : ms.lookup "tokens" = some (.object members)) :
    decode .builtin (.object ms) = (entries.mapM fun e => decodeEntry .builtin (.object e)) >>=
      fun nodes => .ok ⟨.list nodes, .mapping (Value.ofJsonMembers members)⟩ := by
  rw [← mapM_map (decodeEntry .builtin) Json.object]
  have htypes' := Json.member_eq_ok_iff.2 ⟨ms, rfl, htypes⟩
  have htokens' := Json.member_eq_ok_iff.2 ⟨ms, rfl, htokens⟩
  simp only [decode, has_eq, htypes, htokens, htypes', htokens', bind, Except.bind]
  rfl

/-- A document of objects under a table is read exactly if every entry declares a node. It can be
refused for a wrong type, and as lacking something though it has both sections: the first entry that
declares no node decides. -/
theorem decode_refusals (htypes : ms.lookup "types" = some (.array (entries.map .object)))
    (htokens : ms.lookup "tokens" = some (.object members)) :
    ((∃ d, decode .builtin (.object ms) = .ok d) ↔ ∀ e ∈ entries, Declares e) ∧
    ((∃ e, decode .builtin (.object ms) = .error e ∧ e.kind = .missing) ↔
      FirstFault Declares (fun e => (Json.demand e).Lacks (.object e)) entries) ∧
    ((∃ e, decode .builtin (.object ms) = .error e ∧ e.kind = .wrongType) ↔
      FirstFault Declares (fun e => (Json.grammar e).Misshapen (.object e)) entries) ∧
    ∀ e, decode .builtin (.object ms) = .error e →
      e.kind = .missing ∨ e.kind = .invalid ∨ e.kind = .wrongType := by
  have hjudged := (Judged.mapM fun e (_ : e ∈ entries) => judged_decodeEntry e).map
    fun nodes => Definitions.mk (.list nodes) (.mapping (Value.ofJsonMembers members))
  have hmissing : Missing (entries.mapM fun e => decodeEntry .builtin (.object e)) ↔
      FirstFault Declares (fun e => (Json.demand e).Lacks (.object e)) entries :=
    missing_mapM_iff fun e _ => ⟨(judged_decodeEntry e).ok_iff, missing_decodeEntry_iff e⟩
  rw [decode_eq_mapM htypes htokens]
  exact ⟨hjudged.ok_iff, missing_map_iff.trans hmissing, hjudged.wrongType_iff,
    hjudged.kind_cases⟩

/-- Both sections, and an entry with nothing in it. -/
def emptyEntry : List (String × Json) := [("types", .array [.object []]), ("tokens", .object [])]

theorem decode_refusals_emptyEntry :
    emptyEntry.lookup "types" = some (.array ([[]].map .object)) ∧
      emptyEntry.lookup "tokens" = some (.object []) ∧
      FirstFault Declares (fun e => (Json.demand e).Lacks (.object e)) [[]] :=
  have hrefusals := @decode_refusals emptyEntry [] [[]] rfl rfl
  ⟨rfl, rfl, hrefusals.2.1.1 ⟨.noDiscriminator, rfl, rfl⟩⟩

/-- An entry that lacks a tag is told like a section that the document lacks. -/
theorem decode_emptyEntry : ∃ e, decode .builtin (.object emptyEntry) = .error e ∧
    e.kind ≠ .invalid ∧ e.kind ≠ .malformedText :=
  ⟨.noDiscriminator, rfl, nofun, nofun⟩

end Definitions

end AstSchema
