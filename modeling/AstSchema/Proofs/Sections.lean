import AstSchema.Proofs.Loading
import AstSchema.Proofs.Refusal

/-! The sections of a document of definitions: the nodes that it lists and its table of tokens. An
array lists one node for each item and an object is a table entry by entry, but the shape of a
section is never asked for: an array of pairs is a table too, and what is empty stands for a section
with nothing in it. -/
namespace AstSchema

/-! ## Nodes -/

theorem Class.exists_object_of_make {cls : Class} {given : List Value} {v : Value}
    (h : cls.make given = .ok v) : ∃ fields, v = .object cls fields := by
  obtain ⟨fields, -, h⟩ := bind_eq_ok_iff.1 h
  exact ⟨fields, (Except.ok.inj h).symm⟩

namespace Registry

variable {r : Registry} {j : Json} {v : Value}

theorem exists_object_of_decodeType (h : r.decodeType j = .ok v) :
    ∃ cls fields, v = .object cls fields := by
  cases j with
  | object members =>
    match members with
    | [] => contradiction
    | [(tag, payload)] =>
      rw [decodeType, decodeTagged] at h
      split at h
      next => contradiction
      next cls _ =>
        split at h
        next =>
          obtain ⟨_, -, hmake⟩ := bind_eq_ok_iff.1 h
          exact ⟨cls, Class.exists_object_of_make hmake⟩
        next =>
          split at h
          next =>
            obtain ⟨_, -, hmake⟩ := bind_eq_ok_iff.1 h
            exact ⟨cls, Class.exists_object_of_make hmake⟩
          next => contradiction
    | _ :: _ :: _ => contradiction
  | _ => contradiction

theorem exists_object_of_decodeNode (h : r.decodeNode j = .ok v) :
    ∃ cls fields, v = .object cls fields := by
  obtain ⟨tag, htag, hnode⟩ := bind_eq_ok_iff.1 h
  cases tag with
  | scalar tag =>
    cases hcls : r.node? tag with
    | none => simp [hcls] at hnode
    | some cls =>
      rw [decodeNode_eq htag hcls, bind_eq_ok_iff] at h
      obtain ⟨_, -, hmake⟩ := h
      exact ⟨cls, Class.exists_object_of_make hmake⟩
  | _ => contradiction

theorem exists_object_of_decode (h : r.decode j = .ok v) : ∃ cls fields, v = .object cls fields := by
  obtain ⟨isNode, -, h⟩ := bind_eq_ok_iff.1 h
  cases isNode with
  | true => exact exists_object_of_decodeNode h
  | false =>
    obtain ⟨isType, -, h⟩ := bind_eq_ok_iff.1 h
    cases isType with
    | true => exact exists_object_of_decodeType h
    | false => contradiction

/-- Neither a node nor a type is told by a text. -/
theorem decode_text (r : Registry) (s : String) (v : Value) : r.decode (.text s) ≠ .ok v := by
  intro h
  obtain ⟨isNode, -, h⟩ := bind_eq_ok_iff.1 h
  cases isNode with
  | true => contradiction
  | false =>
    obtain ⟨isType, -, h⟩ := bind_eq_ok_iff.1 h
    cases isType <;> contradiction

end Registry

theorem characters_eq_nil_iff {s : String} : characters s = [] ↔ s = "" := by
  rw [characters, List.map_eq_nil_iff, String.toList_eq_nil_iff]

namespace Definitions

/-- The document is that of a node, and this is the node. -/
def IsEntry (r : Registry) (j : Json) (v : Value) : Prop :=
  r.decode j = .ok v ∧ ∃ cls fields, v = .object cls fields ∧ cls.family = .node

theorem decodeEntry_eq_ok_iff {r : Registry} {j : Json} {v : Value} :
    decodeEntry r j = .ok v ↔ IsEntry r j v := by
  rw [decodeEntry, bind_eq_ok_iff]
  constructor
  · rintro ⟨found, hfound, h⟩
    obtain ⟨cls, fields, rfl⟩ := Registry.exists_object_of_decode hfound
    dsimp only at h
    split at h
    next hfamily =>
      obtain rfl := Except.ok.inj h
      exact ⟨hfound, cls, fields, rfl, beq_iff_eq.1 hfamily⟩
    next => contradiction
  · rintro ⟨hfound, cls, fields, rfl, hfamily⟩
    refine ⟨_, hfound, ?_⟩
    dsimp only
    rw [hfamily]
    rfl

theorem decodeEntry_text (r : Registry) (s : String) (v : Value) :
    decodeEntry r (.text s) ≠ .ok v :=
  fun h => r.decode_text s v (decodeEntry_eq_ok_iff.1 h).1

/-- The nodes that a section lists: an array one for each item. An empty text or object lists
none. -/
inductive Lists (r : Registry) : Json → List Value → Prop
  | array {items : List Json} {nodes : List Value} (h : List.Forall₂ (IsEntry r) items nodes) :
      Lists r (.array items) nodes
  | emptyText : Lists r (.text "") []
  | emptyObject : Lists r (.object []) []

theorem decodeEntries_eq_ok_iff {r : Registry} {j : Json} {nodes : List Value} :
    (j.items >>= fun items => items.mapM (decodeEntry r)) = .ok nodes ↔ Lists r j nodes := by
  constructor
  · intro h
    obtain ⟨items, hitems, h⟩ := bind_eq_ok_iff.1 h
    cases j with
    | array js =>
      obtain rfl := Except.ok.inj hitems
      exact .array ((mapM_eq_ok_iff.1 h).imp fun _ _ => decodeEntry_eq_ok_iff.1)
    | object ms =>
      obtain rfl : ms.map (fun m => Json.text m.1) = items := Except.ok.inj hitems
      have htexts : ms.map (fun m => Json.text m.1) = (ms.map (·.1)).map Json.text := by
        rw [List.map_map]
        rfl
      rw [htexts] at h
      obtain ⟨hnil, rfl⟩ := Form.mapM_texts (decodeEntry_text r) h
      obtain rfl := List.map_eq_nil_iff.1 hnil
      exact .emptyObject
    | scalar s =>
      cases s with
      | text s =>
        obtain rfl := Except.ok.inj hitems
        obtain ⟨hnil, rfl⟩ := Form.mapM_texts (decodeEntry_text r) h
        obtain rfl := characters_eq_nil_iff.1 hnil
        exact .emptyText
      | _ => contradiction
  · rintro (h | _ | _)
    · exact mapM_eq_ok_iff.2 (h.imp fun _ _ => decodeEntry_eq_ok_iff.2)
    · rfl
    · rfl

end Definitions

/-! ## Tokens -/

namespace Tokens

/-- A collection of two documents, the first of which can be a key, is a pair. -/
def IsPair (j : Json) (entry : Scalar × Value) : Prop :=
  ∃ value, j.items = .ok [.scalar entry.1, value] ∧ entry.2 = .ofJson value

/-- The entries of a table: those of an object as they are, and those of an array of pairs one after
the other, so that a later one replaces what is under its key. An empty text has none. -/
inductive Tabulates : Json → List (Scalar × Value) → Prop
  | object (members : List (String × Json)) :
      Tabulates (.object members) (Value.ofJsonMembers members)
  | pairs {items : List Json} {entries : List (Scalar × Value)}
      (h : List.Forall₂ IsPair items entries) :
      Tabulates (.array items) (Entries.ofPairs Scalar.same entries)
  | emptyText : Tabulates (.text "") []

theorem go_eq_ok_iff {position : Nat} {table entries : List (Scalar × Value)} {items : List Json} :
    decode.go position table items = .ok entries ↔
      ∃ pairs, List.Forall₂ IsPair items pairs ∧
        entries = pairs.foldl (fun entries (k, v) => Entries.put Scalar.same k v entries) table := by
  induction items generalizing position table with
  | nil => simp [decode.go, eq_comm]
  | cons j items ih =>
    rw [decode.go, bind_eq_ok_iff]
    constructor
    · rintro ⟨parts, hparts, h⟩
      split at h
      next key value =>
        obtain ⟨pairs, hpairs, rfl⟩ := ih.1 h
        exact ⟨(key, .ofJson value) :: pairs, .cons ⟨value, hparts, rfl⟩ hpairs, rfl⟩
      next => contradiction
      next => contradiction
    · rintro ⟨pairs, hpairs, rfl⟩
      cases hpairs with
      | @cons _ pair _ pairs hpair hpairs =>
        obtain ⟨key, v⟩ := pair
        obtain ⟨value, hparts, rfl⟩ := hpair
        exact ⟨[.scalar key, value], hparts, ih.2 ⟨pairs, hpairs, rfl⟩⟩

/-- A character is no pair. -/
theorem not_isPair_character (c : Char) (entry : Scalar × Value) :
    ¬ IsPair (.text (String.singleton c)) entry := by
  rintro ⟨value, h, -⟩
  simp [Json.items, characters] at h

theorem decode_eq_ok_iff {j : Json} {entries : List (Scalar × Value)} :
    decode j = .ok entries ↔ Tabulates j entries := by
  cases j with
  | object members =>
    constructor
    · rintro h
      obtain rfl := Except.ok.inj h
      exact .object members
    · rintro ⟨⟩
      rfl
  | array items =>
    change decode.go 0 [] items = .ok entries ↔ _
    rw [go_eq_ok_iff]
    constructor
    · rintro ⟨pairs, hpairs, rfl⟩
      exact .pairs hpairs
    · rintro ⟨⟩
      next pairs hpairs => exact ⟨pairs, hpairs, rfl⟩
  | scalar s =>
    cases s with
    | text s =>
      change decode.go 0 [] ((characters s).map Json.text) = .ok entries ↔ _
      rw [go_eq_ok_iff]
      constructor
      · rintro ⟨pairs, hpairs, rfl⟩
        cases hs : s.toList with
        | nil =>
          obtain rfl := String.toList_eq_nil_iff.1 hs
          obtain rfl := List.forall₂_nil_left_iff.1 hpairs
          exact .emptyText
        | cons c cs =>
          rw [characters, hs] at hpairs
          cases hpairs with
          | cons hpair _ => exact absurd hpair (not_isPair_character c _)
      · rintro ⟨⟩
        exact ⟨[], .nil, rfl⟩
    | _ =>
      constructor
      · intro h
        contradiction
      · intro h
        cases h

end Tokens

/-! ## Both sections -/

namespace Definitions

/-- A document is read as definitions exactly if it has both sections, the one lists nodes and the
other is a table. What is read are these nodes and the entries of this table. -/
theorem decode_iff_sections (r : Registry) (ms : List (String × Json)) (d : Definitions) :
    decode r (.object ms) = .ok d ↔
      ∃ types nodes table entries, ms.lookup "types" = some types ∧ Lists r types nodes ∧
        ms.lookup "tokens" = some table ∧ Tokens.Tabulates table entries ∧
        d = ⟨.list nodes, .mapping entries⟩ := by
  constructor
  · intro h
    obtain ⟨types, items, nodes, table, entries, htypes, hitems, hnodes, htable, hentries, rfl⟩ :=
      sections_of_decode h
    obtain ⟨_, ⟨rfl⟩, htypes⟩ := Json.member_eq_ok_iff.1 htypes
    obtain ⟨_, ⟨rfl⟩, htable⟩ := Json.member_eq_ok_iff.1 htable
    have hlists := decodeEntries_eq_ok_iff.1 (bind_eq_ok_iff.2 ⟨items, hitems, hnodes⟩)
    exact ⟨types, nodes, table, entries, htypes, hlists, htable,
      Tokens.decode_eq_ok_iff.1 hentries, rfl⟩
  · rintro ⟨types, nodes, table, entries, htypes, hlists, htable, htabulates, rfl⟩
    obtain ⟨items, hitems, hnodes⟩ := bind_eq_ok_iff.1 (decodeEntries_eq_ok_iff.2 hlists)
    have hentries := Tokens.decode_eq_ok_iff.2 htabulates
    have hmember := Json.member_eq_ok_iff.2 ⟨ms, rfl, htypes⟩
    have hmember' := Json.member_eq_ok_iff.2 ⟨ms, rfl, htable⟩
    simp only [decode, Registry.has_eq, htypes, htable, hmember, hmember', hitems, hnodes,
      hentries, bind, Except.bind]
    rfl

/-- Two letters in an array are taken for a spelling and its token. -/
theorem decode_letters :
    let ms := [("types", Json.text ""), ("tokens", .array [.text "ab"])]
    decode .builtin (.object ms) = .ok ⟨.list [], .mapping [(.text "a", .text "b")]⟩ ∧
      (∀ items, ms.lookup "types" ≠ some (.array items)) ∧
      ∀ members, ms.lookup "tokens" ≠ some (.object members) :=
  ⟨rfl, nofun, nofun⟩

end Definitions

end AstSchema
