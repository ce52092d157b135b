import AstSchema.Proofs.FieldRow
import AstSchema.Proofs.Normalization

/-! Which documents the decoder refuses, and how. A key that is missing or a part that is invalid is
told as such. But the shapes of gates, of rows and of the tag of a node are never asked for, so a
document in which the first fault is such a shape is refused as of a wrong type. So it is with a text
of Unicode scalar values that says the document. -/
namespace AstSchema

/-! ## Verdicts -/

/-- A step succeeds exactly on what is accepted and is refused as of a wrong type exactly on what is
misshapen. Otherwise something is missing in what it was given, or invalid. -/
structure Judged {α : Type} (accepted misshapen : Prop) (x : Except Error α) : Prop where
  ok_iff : (∃ a, x = .ok a) ↔ accepted
  wrongType_iff : (∃ e, x = .error e ∧ e.kind = .wrongType) ↔ misshapen
  kind_cases : ∀ e, x = .error e → e.kind = .missing ∨ e.kind = .invalid ∨ e.kind = .wrongType

/-- Of these items the first that is not accepted is misshapen. -/
def FirstFault {α : Type} (accepted misshapen : α → Prop) (xs : List α) : Prop :=
  ∃ before x after, xs = before ++ x :: after ∧ (∀ b ∈ before, accepted b) ∧ misshapen x

section

variable {α β : Type} {accepted misshapen : α → Prop}

@[simp] theorem firstFault_nil : ¬ FirstFault accepted misshapen [] := by
  simp [FirstFault]

@[simp] theorem firstFault_cons (x : α) (xs : List α) :
    FirstFault accepted misshapen (x :: xs) ↔
      misshapen x ∨ accepted x ∧ FirstFault accepted misshapen xs := by
  constructor
  · rintro ⟨before, y, after, heq, hbefore, hy⟩
    cases before with
    | nil =>
      obtain ⟨rfl, rfl⟩ := List.cons.inj heq
      exact .inl hy
    | cons b before =>
      obtain ⟨rfl, rfl⟩ := List.cons.inj heq
      obtain ⟨hb, hbefore⟩ := List.forall_mem_cons.1 hbefore
      exact .inr ⟨hb, before, y, after, rfl, hbefore, hy⟩
  · rintro (hx | ⟨hx, before, y, after, rfl, hbefore, hy⟩)
    · exact ⟨[], x, xs, rfl, by simp, hx⟩
    · exact ⟨x :: before, y, after, rfl, List.forall_mem_cons.2 ⟨hx, hbefore⟩, hy⟩

theorem firstFault_map {f : β → α} (xs : List β) :
    FirstFault accepted misshapen (xs.map f) ↔
      FirstFault (fun x => accepted (f x)) (fun x => misshapen (f x)) xs := by
  induction xs with
  | nil => simp
  | cons x xs ih => rw [List.map_cons, firstFault_cons, firstFault_cons, ih]

namespace Judged

theorem ok (a : α) : Judged True False (.ok a : Except Error α) where
  ok_iff := by simp
  wrongType_iff := by simp
  kind_cases := by simp

theorem missing {e : Error} (h : e.kind = .missing) :
    Judged False False (.error e : Except Error α) where
  ok_iff := by simp
  wrongType_iff := by simp [h]
  kind_cases := by simp [h]

theorem invalid {e : Error} (h : e.kind = .invalid) :
    Judged False False (.error e : Except Error α) where
  ok_iff := by simp
  wrongType_iff := by simp [h]
  kind_cases := by simp [h]

theorem wrongType {e : Error} (h : e.kind = .wrongType) :
    Judged False True (.error e : Except Error α) where
  ok_iff := by simp
  wrongType_iff := by simp [h]
  kind_cases := by simp [h]

variable {p q p' q' : Prop} {x : Except Error α} {f : α → Except Error β}

theorem congr (h : Judged p q x) (hp : p ↔ p') (hq : q ↔ q') : Judged p' q' x :=
  ⟨h.ok_iff.trans hp, h.wrongType_iff.trans hq, h.kind_cases⟩

/-- The second step is taken only where the first succeeds. -/
theorem bind (hx : Judged p q x) (hf : ∀ a, x = .ok a → Judged p' q' (f a)) :
    Judged (p ∧ p') (q ∨ p ∧ q') (x >>= f) := by
  cases x with
  | error e =>
    have hp : ¬ p := fun hp => by simpa using hx.ok_iff.2 hp
    have hq : e.kind = .wrongType ↔ q := by simpa using hx.wrongType_iff
    have hkind := hx.kind_cases e rfl
    change Judged _ _ (.error e)
    exact ⟨by simp [hp], by simp [hp, hq], by simpa using hkind⟩
  | ok a =>
    have hp : p := hx.ok_iff.1 ⟨a, rfl⟩
    have hq : ¬ q := fun hq => by simpa using hx.wrongType_iff.2 hq
    exact (hf a rfl).congr (by simp [hp]) (by simp [hp, hq])

/-- A second step that cannot fail changes nothing. -/
theorem bind_of_ok (hx : Judged p q x) (hf : ∀ a, x = .ok a → ∃ b, f a = .ok b) :
    Judged p q (x >>= f) := by
  have hsecond : ∀ a, x = .ok a → Judged True False (f a) := by
    intro a ha
    obtain ⟨b, hb⟩ := hf a ha
    rw [hb]
    exact ok b
  exact (hx.bind hsecond).congr (by simp) (by simp)

theorem map (hx : Judged p q x) (f : α → β) : Judged p q (x >>= fun a => .ok (f a)) :=
  hx.bind_of_ok fun a _ => ⟨f a, rfl⟩

theorem mapM {f : α → Except Error β} {xs : List α}
    (h : ∀ x ∈ xs, Judged (accepted x) (misshapen x) (f x)) :
    Judged (∀ x ∈ xs, accepted x) (FirstFault accepted misshapen xs) (xs.mapM f) := by
  induction xs with
  | nil => exact (ok []).congr (by simp) (by simp)
  | cons x xs ih =>
    obtain ⟨hx, hxs⟩ := List.forall_mem_cons.1 h
    rw [List.mapM_cons]
    exact (hx.bind fun y _ => (ih hxs).map (y :: ·)).congr (by simp) (by simp)

end Judged

end

/-! ## Grammars -/

/-- The documents that a reader accepts, and those that it takes for something they are not. -/
structure Grammar where
  Accepts : Json → Prop
  Misshapen : Json → Prop

namespace Grammar

def Judges {α : Type} (g : Grammar) (read : Json → Except Error α) : Prop :=
  ∀ j, Judged (g.Accepts j) (g.Misshapen j) (read j)

/-- Any document, taken as it is. -/
def raw : Grammar := ⟨fun _ => True, fun _ => False⟩

/-- Whatever is no type is found out. -/
def type : Grammar := ⟨Json.IsType, fun _ => False⟩

/-- Flags come in an array or as the keys of an object. -/
def flags : Grammar := ⟨fun j => ∀ s, j ≠ .scalar s, fun j => ∃ s, j = .scalar s⟩

/-- A collection of documents of one grammar. Keys and characters are taken for items. -/
def row (item : Grammar) : Grammar where
  Accepts j := ∃ items, j.items = .ok items ∧ ∀ i ∈ items, item.Accepts i
  Misshapen j := (∃ e, j.items = .error e) ∨
    ∃ items, j.items = .ok items ∧ FirstFault item.Accepts item.Misshapen items

/-- There is such a member under the key. -/
def Member (ms : List (String × Json)) (key : String) (p : Json → Prop) : Prop :=
  ∃ j, ms.lookup key = some j ∧ p j

/-- An object with a member of some grammar for each known key. They are read one by one. -/
def record (parts : List (String × Grammar)) : Grammar where
  Accepts j := ∃ ms, j = .object ms ∧ ∀ p ∈ parts, Member ms p.1 p.2.Accepts
  Misshapen j := (∀ ms, j ≠ .object ms) ∨ ∃ ms, j = .object ms ∧
    FirstFault (fun p => Member ms p.1 p.2.Accepts) (fun p => Member ms p.1 p.2.Misshapen) parts

def field : Grammar := record [("ident", raw), ("type", type)]

def variant : Grammar := record [("ident", raw), ("fields", row type)]

def gates : Grammar := record [("any", flags)]

def struct : Grammar := record
  [("ident", raw), ("features", gates), ("fields", row field), ("all_fields_pub", raw)]

def enum : Grammar := record
  [("ident", raw), ("features", gates), ("variants", row variant)]

/-- A node of no known tag: found out if the tag is a scalar, and misshapen otherwise. -/
def unknown (tag : Json) : Grammar := ⟨fun _ => False, fun _ => ∀ s, tag ≠ .scalar s⟩

end Grammar

/-- The member for the tag of a node tells the grammar of an object. -/
def Json.grammar (ms : List (String × Json)) : Grammar :=
  match ms.lookup nodeKey with
  | some (.scalar (.text "struct")) => .struct
  | some (.scalar (.text "enum")) => .enum
  | some tag => .unknown tag
  | none => .type

namespace Json

variable {ms : List (String × Json)}

theorem grammar_struct (h : ms.lookup nodeKey = some (.text "struct")) : grammar ms = .struct := by
  simp [grammar, h]

theorem grammar_enum (h : ms.lookup nodeKey = some (.text "enum")) : grammar ms = .enum := by
  simp [grammar, h]

theorem grammar_unknown {tag : Json} (h : ms.lookup nodeKey = some tag)
    (hstruct : tag ≠ .text "struct") (henum : tag ≠ .text "enum") :
    grammar ms = .unknown tag := by
  rw [grammar, h]
  split
  next heq => exact absurd (Option.some.inj heq) hstruct
  next heq => exact absurd (Option.some.inj heq) henum
  next heq => rw [Option.some.inj heq]
  next heq => contradiction

theorem grammar_type (h : ms.lookup nodeKey = none) : grammar ms = .type := by
  simp [grammar, h]

end Json

/-! ## Readers -/

namespace Grammar

open Registry

theorem judges_raw {α : Type} (f : Json → α) : raw.Judges fun j => .ok (f j) := fun _ => .ok _

theorem judges_type : type.Judges builtin.decodeType := by
  intro j
  cases j.verdict with
  | accepted h =>
    obtain ⟨t, ht, -⟩ := h.decode
    rw [ht]
    exact (Judged.ok _).congr (by simpa [type] using h) Iff.rfl
  | lacking h =>
    have hnot : ¬ j.IsType := by
      intro htype
      obtain ⟨t, ht, -⟩ := htype.decode
      simp [h.decode] at ht
    rw [h.decode]
    exact (Judged.missing rfl).congr (by simpa [type] using hnot) Iff.rfl
  | refused h =>
    obtain ⟨e, he, hkind⟩ := h
    have hnot : ¬ j.IsType := by
      intro htype
      obtain ⟨t, ht, -⟩ := htype.decode
      simp [he] at ht
    rw [he]
    exact (Judged.invalid hkind).congr (by simpa [type] using hnot) Iff.rfl

theorem judges_flags : flags.Judges fun j => Features.ofValue (.ofJson j) := by
  intro j
  cases j with
  | array items => exact (Judged.ok _).congr (by simp [flags]) (by simp [flags])
  | object ms => exact (Judged.ok _).congr (by simp [flags]) (by simp [flags])
  | scalar s =>
    cases s <;> exact (Judged.wrongType rfl).congr (by simp [flags]) (by simp [flags])

variable {g : Grammar} {α : Type} {read : Json → Except Error α}

theorem judged_items (j : Json) :
    Judged (∃ items, j.items = .ok items) (∃ e, j.items = .error e) j.items := by
  cases j with
  | array items => exact (Judged.ok _).congr (by simp [Json.items]) (by simp [Json.items])
  | object ms => exact (Judged.ok _).congr (by simp [Json.items]) (by simp [Json.items])
  | scalar s =>
    cases s with
    | text s => exact (Judged.ok _).congr (by simp [Json.items]) (by simp [Json.items])
    | _ => exact (Judged.wrongType rfl).congr (by simp [Json.items]) (by simp [Json.items])

theorem judges_row (h : g.Judges read) :
    (row g).Judges fun j => j.items >>= fun items => items.mapM read := by
  intro j
  change Judged _ _ (j.items >>= fun items => items.mapM read)
  have hj := judged_items j
  cases hitems : j.items with
  | error e =>
    rw [hitems] at hj
    obtain ⟨_, ⟨rfl⟩, hkind⟩ := hj.wrongType_iff.2 ⟨e, rfl⟩
    exact (Judged.wrongType hkind).congr (by simp [row, hitems]) (by simp [row, hitems])
  | ok items =>
    exact (Judged.mapM fun i (_ : i ∈ items) => h i).congr (by simp [row, hitems])
      (by simp [row, hitems])

theorem judged_lookup (h : g.Judges read) (ms : List (String × Json)) (key : String) {e : Error}
    (he : e.kind = .missing) :
    Judged (Member ms key g.Accepts) (Member ms key g.Misshapen)
      ((ms.lookup key).elim (.error e) read) := by
  cases hlookup : ms.lookup key with
  | none => exact (Judged.missing he).congr (by simp [Member, hlookup]) (by simp [Member, hlookup])
  | some j => exact (h j).congr (by simp [Member, hlookup]) (by simp [Member, hlookup])

theorem judged_member (h : g.Judges read) (ms : List (String × Json)) (key : String) :
    Judged (Member ms key g.Accepts) (Member ms key g.Misshapen)
      ((Json.object ms).member key >>= read) := by
  have hmember : (Json.object ms).member key >>= read =
      (ms.lookup key).elim (.error (.missingKey (.text key))) read := by
    change (ms.lookup key).elim (.error (.missingKey (.text key))) .ok >>= read = _
    cases ms.lookup key <;> rfl
  rw [hmember]
  exact judged_lookup h ms key rfl

theorem judges_gates : gates.Judges decodeFeatures := by
  intro j
  cases j with
  | object ms =>
    have h : flags.Judges fun j => do return Features.toValue (← Features.ofValue (.ofJson j)) :=
      fun j => (judges_flags j).map Features.toValue
    exact (judged_member h ms flagsKey).congr (by simp [gates, record, flagsKey])
      (by simp [gates, record, flagsKey])
  | _ => exact (Judged.wrongType rfl).congr (by simp [gates, record]) (by simp [gates, record])

/-- An ident is taken as it is, before the rest of the object is read. -/
theorem judged_ident {p q : Prop} (ms : List (String × Json)) {f : Json → Except Error α}
    (h : ∀ ident, Judged p q (f ident)) :
    Judged (Member ms "ident" raw.Accepts ∧ p)
      (Member ms "ident" raw.Misshapen ∨ Member ms "ident" raw.Accepts ∧ q)
      ((Json.object ms).member "ident" >>= f) := by
  have hident := judged_member (judges_raw id) ms "ident"
  have hread : ((Json.object ms).member "ident" >>= fun j => Except.ok (id j)) =
      (Json.object ms).member "ident" := by
    cases (Json.object ms).member "ident" <;> rfl
  rw [hread] at hident
  exact hident.bind fun ident _ => h ident

theorem judges_field : field.Judges builtin.decodeField := by
  intro j
  cases j with
  | object ms =>
    have htype (ident : Json) := (judged_member judges_type ms "type").map fun ty =>
      Value.object .field [.ofJson ident, ty]
    simp only [bind_assoc] at htype
    exact (judged_ident ms htype).congr (by simp [field, record]) (by simp [field, record])
  | _ => exact (Judged.wrongType rfl).congr (by simp [field, record]) (by simp [field, record])

theorem judges_variant : variant.Judges builtin.decodeVariant := by
  intro j
  cases j with
  | object ms =>
    have htypes (ident : Json) := (judged_member (judges_row judges_type) ms "fields").map
      fun types => Value.object .variant [.ofJson ident, .tuple types]
    simp only [bind_assoc] at htypes
    exact (judged_ident ms htypes).congr (by simp [variant, record]) (by simp [variant, record])
  | _ =>
    exact (Judged.wrongType rfl).congr (by simp [variant, record]) (by simp [variant, record])

/-! ### Nodes -/

/-- The grammar of a field of a node. -/
def ofName (name : String) : Grammar :=
  if name == "features" then gates
  else if name == "fields" then row field
  else if name == "variants" then row variant
  else raw

theorem judges_ofName (name : String) :
    (ofName name).Judges (builtin.decodeNodeField name) := by
  unfold ofName decodeNodeField
  intro j
  split
  · exact judges_gates j
  · split
    · have hrow := (judges_row judges_field j).map Value.tuple
      simp only [bind_assoc] at hrow
      exact hrow
    · split
      · have hrow := (judges_row judges_variant j).map Value.tuple
        simp only [bind_assoc] at hrow
        exact hrow
      · exact judges_raw Value.ofJson j

theorem struct_eq_record : struct =
    record (Class.struct.fields.map fun spec => (spec.name, ofName spec.name)) := rfl

theorem enum_eq_record : enum =
    record (Class.enum.fields.map fun spec => (spec.name, ofName spec.name)) := rfl

/-- A field with its name for a key is looked for under its name. -/
theorem nodeField_eq_elim {spec : FieldSpec} (hkey : spec.key? = some (.text spec.name))
    (tag : Scalar) (ms : List (String × Json)) :
    builtin.nodeField tag (.object ms) spec =
      (ms.lookup spec.name).elim (.error (.missingField (.text spec.name) tag))
        (builtin.decodeNodeField spec.name) := by
  have hmember : (Json.object ms).member? (.text spec.name) = ms.lookup spec.name := rfl
  rw [nodeField, hkey]
  simp only [bind, Except.bind, Option.elim_some, hmember]
  cases ms.lookup spec.name <;> rfl

theorem judged_fields {specs : List FieldSpec}
    (hkeys : ∀ spec ∈ specs, spec.key? = some (.text spec.name)) (tag : Scalar)
    (ms : List (String × Json)) :
    Judged ((record (specs.map fun spec => (spec.name, ofName spec.name))).Accepts (.object ms))
      ((record (specs.map fun spec => (spec.name, ofName spec.name))).Misshapen (.object ms))
      (specs.mapM (builtin.nodeField tag (.object ms))) := by
  have hfield : ∀ spec ∈ specs,
      Judged (Member ms spec.name (ofName spec.name).Accepts)
        (Member ms spec.name (ofName spec.name).Misshapen)
        (builtin.nodeField tag (.object ms) spec) := by
    intro spec hspec
    rw [nodeField_eq_elim (hkeys spec hspec)]
    exact judged_lookup (judges_ofName spec.name) ms spec.name rfl
  exact (Judged.mapM hfield).congr (by simp [record]) (by simp [record, firstFault_map])

end Grammar

namespace Registry

open Grammar

theorem exists_flags {j : Json} {v : Value} (h : decodeFeatures j = .ok v) :
    ∃ flags, v = Features.toValue flags := by
  simp only [decodeFeatures, bind_eq_ok_iff] at h
  obtain ⟨_, -, flags, -, hmake⟩ := h
  exact ⟨flags, (Except.ok.inj hmake).symm⟩

theorem exists_tuple {read : Json → Except Error Value} {j : Json} {v : Value}
    (h : readRow read j = .ok v) : ∃ items, v = .tuple items := by
  simp only [readRow, bind_eq_ok_iff] at h
  obtain ⟨_, -, items, -, hmake⟩ := h
  exact ⟨items, (Except.ok.inj hmake).symm⟩

variable {ms : List (String × Json)} {tag : Scalar}

theorem nodeField_eq_ok {spec : FieldSpec} {v : Value}
    (h : builtin.nodeField tag (.object ms) spec = .ok v) :
    ∃ j, builtin.decodeNodeField spec.name j = .ok v := by
  obtain ⟨key, -, h⟩ := bind_eq_ok_iff.1 h
  split at h
  next found _ => exact ⟨found, h⟩
  next => contradiction

/-- The fields of a struct are settled as soon as they are read. -/
theorem make_struct {vs : List Value}
    (h : Class.struct.fields.mapM (builtin.nodeField tag (.object ms)) = .ok vs) :
    Class.struct.make vs = .ok (.object .struct vs) := by
  rw [mapM_eq_ok_iff] at h
  simp only [Class.struct, Class.nodeFields, List.cons_append, List.nil_append,
    List.forall₂_cons_left_iff, List.forall₂_nil_left_iff] at h
  obtain ⟨v₁, _, -, ⟨v₂, _, h₂, ⟨v₃, _, h₃, ⟨v₄, _, -, rfl, rfl⟩, rfl⟩, rfl⟩, rfl⟩ := h
  obtain ⟨j₂, hgates⟩ := nodeField_eq_ok h₂
  obtain ⟨j₃, hfields⟩ := nodeField_eq_ok h₃
  obtain ⟨flags, rfl⟩ := exists_flags hgates
  obtain ⟨fields, rfl⟩ := exists_tuple hfields
  rfl

theorem make_enum {vs : List Value}
    (h : Class.enum.fields.mapM (builtin.nodeField tag (.object ms)) = .ok vs) :
    Class.enum.make vs = .ok (.object .enum vs) := by
  rw [mapM_eq_ok_iff] at h
  simp only [Class.enum, Class.nodeFields, List.cons_append, List.nil_append,
    List.forall₂_cons_left_iff, List.forall₂_nil_left_iff] at h
  obtain ⟨v₁, _, -, ⟨v₂, _, h₂, ⟨v₃, _, h₃, rfl, rfl⟩, rfl⟩, rfl⟩ := h
  obtain ⟨j₂, hgates⟩ := nodeField_eq_ok h₂
  obtain ⟨j₃, hvariants⟩ := nodeField_eq_ok h₃
  obtain ⟨flags, rfl⟩ := exists_flags hgates
  obtain ⟨variants, rfl⟩ := exists_tuple hvariants
  rfl

theorem has_eq (ms : List (String × Json)) (key : String) :
    (Json.object ms).has key = .ok (ms.lookup key).isSome := by
  refine congrArg Except.ok ?_
  induction ms with
  | nil => rfl
  | cons m ms ih =>
    obtain ⟨k, j⟩ := m
    rw [List.any_cons, List.lookup_cons, ih]
    by_cases h : key = k
    · simp [h]
    · simp [beq_false_of_ne h, beq_false_of_ne (Ne.symm h)]

/-! ### Objects -/

/-- The single key of the object is the tag of a type. -/
def IsTagged (ms : List (String × Json)) : Prop :=
  ∃ tag payload, ms = [(tag, payload)] ∧ (builtin.type? (.text tag)).isSome

theorem isTagged_of_isType (h : (Json.object ms).IsType) : IsTagged ms := by
  cases h with
  | name cls text => exact ⟨cls.tag, _, rfl, by cases cls <;> rfl⟩
  | wrap cls _ => exact ⟨cls.tag, _, rfl, by cases cls <;> rfl⟩
  | punctuated => exact ⟨"punctuated", _, rfl, rfl⟩
  | tuple => exact ⟨"tuple", _, rfl, rfl⟩

theorem startsWithTypeTag_object (ms : List (String × Json)) :
    ∃ b, builtin.startsWithTypeTag (.object ms) = .ok b ∧ (b ↔ IsTagged ms) := by
  match ms with
  | [] => exact ⟨false, rfl, by simp [IsTagged]⟩
  | [(tag, payload)] => exact ⟨_, rfl, by simp [IsTagged]⟩
  | _ :: _ :: _ => exact ⟨false, rfl, by simp [IsTagged]⟩

/-- What the decoder does with an object: it reads a node of a known tag field by field, and a type
if the single key is the tag of one. Any other object it refuses at once. -/
inductive Dispatch (ms : List (String × Json)) : Prop
  | struct (hlookup : ms.lookup nodeKey = some (.text "struct"))
      (h : builtin.decode (.object ms) =
        Class.struct.fields.mapM (builtin.nodeField (.text "struct") (.object ms)) >>=
          Class.struct.make)
  | enum (hlookup : ms.lookup nodeKey = some (.text "enum"))
      (h : builtin.decode (.object ms) =
        Class.enum.fields.mapM (builtin.nodeField (.text "enum") (.object ms)) >>= Class.enum.make)
  | unknown {tag : Scalar} (hlookup : ms.lookup nodeKey = some (.scalar tag))
      (hstruct : tag ≠ .text "struct") (henum : tag ≠ .text "enum")
      (h : builtin.decode (.object ms) = .error (.unknownNodeTag tag builtin.nodeTags))
  | misshapen {tag : Json} (hlookup : ms.lookup nodeKey = some tag) (htag : ∀ s, tag ≠ .scalar s)
      (h : builtin.decode (.object ms) = .error .wrongType)
  | type (hlookup : ms.lookup nodeKey = none) (htagged : IsTagged ms)
      (h : builtin.decode (.object ms) = builtin.decodeType (.object ms))
  | untagged (hlookup : ms.lookup nodeKey = none) (htagged : ¬ IsTagged ms)
      (h : builtin.decode (.object ms) = .error .noDiscriminator)

theorem dispatch_of_nodeKey {found : Json} (hlookup : ms.lookup nodeKey = some found) :
    Dispatch ms := by
  have hdecode : builtin.decode (.object ms) = builtin.decodeNode (.object ms) := by
    rw [decode, has_eq ms nodeKey, hlookup]
    rfl
  have htag : (Json.object ms).member nodeKey = .ok found :=
    Json.member_eq_ok_iff.2 ⟨ms, rfl, hlookup⟩
  cases found with
  | scalar tag =>
    cases hcls : builtin.node? tag with
    | none =>
      refine .unknown hlookup (by rintro rfl; contradiction) (by rintro rfl; contradiction) ?_
      rw [hdecode, decodeNode, htag]
      simp only [bind, Except.bind, hcls]
    | some cls =>
      rw [decodeNode_eq htag hcls] at hdecode
      obtain ⟨rfl, rfl⟩ | ⟨rfl, rfl⟩ := node?_builtin hcls
      · exact .struct hlookup hdecode
      · exact .enum hlookup hdecode
  | array items =>
    refine .misshapen hlookup (by simp) ?_
    rw [hdecode, decodeNode, htag]
    rfl
  | object members =>
    refine .misshapen hlookup (by simp) ?_
    rw [hdecode, decodeNode, htag]
    rfl

theorem dispatch (ms : List (String × Json)) : Dispatch ms := by
  cases hlookup : ms.lookup nodeKey with
  | some found => exact dispatch_of_nodeKey hlookup
  | none =>
    obtain ⟨tagged, hstarts, htagged⟩ := startsWithTypeTag_object ms
    have hdecode : builtin.decode (.object ms) =
        if tagged then builtin.decodeType (.object ms) else .error .noDiscriminator := by
      rw [decode, has_eq ms nodeKey, hlookup, hstarts]
      rfl
    cases tagged with
    | true => exact .type hlookup (htagged.1 rfl) hdecode
    | false => exact .untagged hlookup (fun h => Bool.noConfusion (htagged.2 h)) hdecode

theorem judged_decode (ms : List (String × Json)) :
    Judged ((Json.grammar ms).Accepts (.object ms)) ((Json.grammar ms).Misshapen (.object ms))
      (builtin.decode (.object ms)) := by
  cases dispatch ms with
  | struct hlookup h =>
    rw [Json.grammar_struct hlookup, struct_eq_record, h]
    exact (judged_fields (by decide) _ ms).bind_of_ok fun vs hvs => ⟨_, make_struct hvs⟩
  | enum hlookup h =>
    rw [Json.grammar_enum hlookup, enum_eq_record, h]
    exact (judged_fields (by decide) _ ms).bind_of_ok fun vs hvs => ⟨_, make_enum hvs⟩
  | unknown hlookup hstruct henum h =>
    rw [Json.grammar_unknown hlookup (by simpa using hstruct) (by simpa using henum), h]
    exact (Judged.invalid rfl).congr (by simp [unknown]) (by simp [unknown])
  | misshapen hlookup htag h =>
    rw [Json.grammar_unknown hlookup (htag _) (htag _), h]
    exact (Judged.wrongType rfl).congr (by simp [unknown]) (by simpa [unknown] using htag)
  | type hlookup _ h =>
    rw [Json.grammar_type hlookup, h]
    exact judges_type (.object ms)
  | untagged hlookup htagged h =>
    have hnot : ¬ type.Accepts (.object ms) := fun htype => htagged (isTagged_of_isType htype)
    rw [Json.grammar_type hlookup, h]
    exact (Judged.missing rfl).congr (by simp [hnot]) Iff.rfl

theorem decodeText_object {text : String} (h : Json.read text = .ok (.object ms)) :
    builtin.decodeText text = builtin.decode (.object ms) := by
  rw [decodeText, h]

/-- A text of no object is no document, or an invalid one. -/
theorem exists_error_of_read {text : String} (h : ∀ ms, Json.read text ≠ .ok (.object ms)) :
    ∃ e, builtin.decodeText text = .error e ∧ (e.kind = .malformedText ∨ e.kind = .invalid) := by
  rw [decodeText]
  cases hread : Json.read text with
  | error fault => exact ⟨_, rfl, .inl rfl⟩
  | ok j =>
    cases j with
    | object ms => exact absurd hread (h ms)
    | scalar s => exact ⟨_, rfl, .inr rfl⟩
    | array items => exact ⟨_, rfl, .inr rfl⟩

/-- An object is read, or it is refused for something that is missing or invalid, unless the first
fault in it is a shape that is never asked for. A text can be refused in one more way, for not being
a document at all. -/
theorem decode_error_kinds (ms : List (String × Json)) (text : String) :
    ((∃ x, builtin.decode (.object ms) = .ok x) ↔ (Json.grammar ms).Accepts (.object ms)) ∧
    ((∃ e, builtin.decode (.object ms) = .error e ∧ e.kind = .wrongType) ↔
      (Json.grammar ms).Misshapen (.object ms)) ∧
    (∀ e, builtin.decode (.object ms) = .error e →
      e.kind = .missing ∨ e.kind = .invalid ∨ e.kind = .wrongType) ∧
    ((∃ e, builtin.decodeText text = .error e ∧ e.kind = .wrongType) ↔
      ∃ ms, Json.read text = .ok (.object ms) ∧ (Json.grammar ms).Misshapen (.object ms)) ∧
    (∀ e, builtin.decodeText text = .error e →
      e.kind = .malformedText ∨ e.kind = .missing ∨ e.kind = .invalid ∨ e.kind = .wrongType) := by
  have hobject := judged_decode ms
  refine ⟨hobject.ok_iff, hobject.wrongType_iff, hobject.kind_cases, ?_⟩
  by_cases hread : ∃ ms, Json.read text = .ok (.object ms)
  · obtain ⟨ms, hread⟩ := hread
    have htext := judged_decode ms
    rw [← decodeText_object hread] at htext
    refine ⟨?_, fun e he => .inr (htext.kind_cases e he)⟩
    simpa [hread] using htext.wrongType_iff
  · rw [not_exists] at hread
    obtain ⟨e, he, hkind⟩ := exists_error_of_read hread
    have hwrong : e.kind ≠ .wrongType := by
      rintro hwrong
      simp [hwrong] at hkind
    refine ⟨by simp [he, hread, hwrong], ?_⟩
    rintro _ he'
    obtain rfl := Except.error.inj (he.symm.trans he')
    exact hkind.imp_right fun h => .inr (.inl h)

/-- A tag in an array is looked up as if it were a scalar. -/
theorem decode_arrayTag : ∃ e,
    builtin.decode (.object [(nodeKey, .array [.text "struct"])]) = .error e ∧
      e.kind ≠ .missing ∧ e.kind ≠ .invalid ∧ e.kind ≠ .malformedText :=
  ⟨.wrongType, rfl, nofun, nofun, nofun⟩

end Registry

end AstSchema
