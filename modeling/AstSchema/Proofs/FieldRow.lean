import AstSchema.Proofs.Entries
import AstSchema.Proofs.TextCodec

/-! Rows of fields and rows of items. An object is encoded by the fields of its class and decoded by
what its class requires of them, so both go by one row: each field with its key, its value and the
document of that. -/
namespace AstSchema

/-- The document of a value, from which it is read again. -/
structure ReadBack (read : Json → Except Error Value) (v : Value) (j : Json) : Prop where
  encode_eq : v.encode = .ok (.ofJson j)
  read_eq : read j = .ok v
  keyed : v.Keyed

/-! ## Rows of fields -/

/-- A field of an object, with its key and its value in documents. -/
structure Slot where
  spec : FieldSpec
  key : String
  value : Value
  document : Json

namespace Slot

variable {read : FieldSpec → Json → Except Error Value} {slots : List Slot} {s : Slot}

def member (s : Slot) : String × Json := (s.key, s.document)

/-- The field has its key, and its value is read again. -/
structure Reads (read : FieldSpec → Json → Except Error Value) (s : Slot) : Prop extends
    ReadBack (read s.spec) s.value s.document where
  key?_eq : s.spec.key? = some (.text s.key)

/-- Fields with keys and values make a row if each value is read again. -/
theorem exists_row {specs : List FieldSpec} {keys : List String} {vs : List Value}
    (hkeys : specs.map (·.key?) = keys.map fun key => some (.text key))
    (hlength : vs.length = specs.length)
    (h : ∀ p ∈ specs.zip vs, ∃ j, ReadBack (read p.1) p.2 j) :
    ∃ slots : List Slot, slots.map spec = specs ∧ slots.map key = keys ∧ slots.map value = vs ∧
      ∀ s ∈ slots, s.Reads read := by
  induction specs generalizing keys vs with
  | nil =>
    obtain rfl := List.eq_nil_of_length_eq_zero hlength
    obtain rfl := List.map_eq_nil_iff.1 hkeys.symm
    exact ⟨[], rfl, rfl, rfl, by simp⟩
  | cons spec specs ih =>
    cases vs with
    | nil => contradiction
    | cons v vs =>
      cases keys with
      | nil => contradiction
      | cons key keys =>
        obtain ⟨hkey, hkeys⟩ := List.cons.inj hkeys
        rw [List.zip_cons_cons, List.forall_mem_cons] at h
        obtain ⟨⟨j, hj⟩, h⟩ := h
        obtain ⟨slots, hspecs, hkeys, hvs, hslots⟩ := ih hkeys (Nat.succ.inj hlength) h
        refine ⟨⟨spec, key, v, j⟩ :: slots, ?_, ?_, ?_, ?_⟩
        · rw [List.map_cons, hspecs]
        · rw [List.map_cons, hkeys]
        · rw [List.map_cons, hvs]
        · exact List.forall_mem_cons.2 ⟨⟨hj, hkey⟩, hslots⟩

theorem keyed_row (h : ∀ s ∈ slots, s.Reads read) (cls : Class) :
    (Value.object cls (slots.map value)).Keyed :=
  .object (List.forall_mem_map.2 fun s hs => (h s hs).keyed)

theorem encodeFields_row (h : ∀ s ∈ slots, s.Reads read) :
    Value.encodeFields (slots.map spec) (slots.map value) =
      .ok (Value.ofJsonMembers (slots.map member)) := by
  induction slots with
  | nil => rfl
  | cons s slots ih =>
    obtain ⟨hs, hslots⟩ := List.forall_mem_cons.1 h
    rw [List.map_cons, List.map_cons, Value.encodeFields, hs.encode_eq, ih hslots]
    simp only [bind, Except.bind, hs.key?_eq]
    rfl

theorem lookup_row (hnodup : (slots.map key).Nodup) (hs : s ∈ slots) :
    (slots.map member).lookup s.key = some s.document := by
  induction slots with
  | nil => contradiction
  | cons t slots ih =>
    obtain ⟨ht, hnodup⟩ := List.nodup_cons.1 hnodup
    rw [List.map_cons, member, List.lookup_cons]
    obtain rfl | hmem := List.mem_cons.1 hs
    · rw [beq_self_eq_true]
    · have hne : s.key ≠ t.key := fun heq => ht (heq ▸ List.mem_map_of_mem hmem)
      rw [beq_false_of_ne hne, ← ih hnodup hmem]

/-- What a type has under its tag: the document of its one field, or else an object of them all. -/
def payload : List Slot → Json
  | [s] => s.document
  | slots => .object (slots.map member)

end Slot

/-- The entries of an object are the members of an object again. -/
theorem Value.entriesOf_ofJsonMembers_eq (members : List (String × Json)) :
    entriesOf (ofJsonMembers members) =
      ofJsonMembers (Entries.ofPairs (fun a b => a == b) members) := by
  have hsame : ∀ a b : String, (Scalar.text a).same (.text b) = (a == b) := fun a b => by
    rw [Bool.eq_iff_iff, Scalar.same_iff]
    simp [Scalar.meaning]
  rw [ofJsonMembers_eq_map, ofJsonMembers_eq_map]
  exact Entries.ofPairs_map hsame ofJson members

/-- Members with different keys are the entries of an object. -/
theorem Value.entriesOf_ofJsonMembers {members : List (String × Json)}
    (h : (members.map (·.1)).Nodup) :
    entriesOf (ofJsonMembers members) = ofJsonMembers members := by
  rw [entriesOf_ofJsonMembers_eq, Entries.ofPairs_of_pairwise]
  exact (List.pairwise_map.1 h).imp beq_false_of_ne

/-! ## Rows of items -/

/-- A tuple from a row of documents. -/
def readRow (read : Json → Except Error Value) (j : Json) : Except Error Value := do
  return .tuple (← (← j.items).mapM read)

theorem readRow_eq_ok_of_imp {read read' : Json → Except Error Value}
    (hread : ∀ j v, read j = .ok v → read' j = .ok v) {j : Json} {v : Value}
    (h : readRow read j = .ok v) : readRow read' j = .ok v := by
  obtain ⟨items, hitems, h⟩ := bind_eq_ok_iff.1 h
  obtain ⟨vs, hvs, hmake⟩ := bind_eq_ok_iff.1 h
  have hrow := mapM_eq_ok_of_imp (fun j _ v => hread j v) hvs
  exact bind_eq_ok_iff.2 ⟨items, hitems, bind_eq_ok_iff.2 ⟨vs, hrow, hmake⟩⟩

theorem ReadBack.exists_row {α : Type} {read : Json → Except Error Value} {g : α → Value}
    {xs : List α} (h : ∀ x ∈ xs, ∃ j, ReadBack read (g x) j) :
    ∃ items, ReadBack (readRow read) (.tuple (xs.map g)) (.array items) := by
  choose! document hdocument using h
  exact ⟨xs.map document, Value.encode_tuple_map fun x hx => (hdocument x hx).encode_eq,
    Registry.decodeRow_map fun x hx => (hdocument x hx).read_eq,
    .tuple (List.forall_mem_map.2 fun x hx => (hdocument x hx).keyed)⟩

end AstSchema
