import AstSchema.Proofs.DefinitionsCodec
import AstSchema.Proofs.Json.Continuation

/-! Written texts end where they end. Every document written is an object, which its own brace
closes: cut short it is no document, and after it there is room for blanks alone. Texts are of Unicode
scalar values, before the cut and after it. -/
namespace AstSchema

namespace Json

theorem skipBlank_eq_nil_iff {cs : List Char} : skipBlank cs = [] ↔ ∀ c ∈ cs, isBlank c := by
  induction cs with
  | nil => simp [skipBlank]
  | cons c cs ih =>
    by_cases hc : isBlank c
    · rw [skipBlank, List.dropWhile_cons_of_pos hc, List.forall_mem_cons, ← ih]
      simp [hc, skipBlank]
    · rw [skipBlank_cons (by simpa using hc)]
      simp [hc]

theorem read_eq_ok_iff {text : String} {j : Json} :
    read text = .ok j ↔ text.toList.head? ≠ some '\ufeff' ∧ ∃ rest,
      readValue (2 * text.toList.length + 2) (skipBlank text.toList) = .ok (j, rest) ∧
        skipBlank rest = [] := by
  unfold read
  by_cases hmark : text.toList.head? = some '\ufeff'
  · simp [hmark]
  · simp only [hmark, beq_iff_eq, if_false, ne_eq, not_false_eq_true, true_and]
    cases readValue (2 * text.toList.length + 2) (skipBlank text.toList) with
    | error h => simp
    | ok p =>
      obtain ⟨j', rest⟩ := p
      dsimp only
      cases hrest : skipBlank rest with
      | nil => simp [hrest]
      | cons c cs => simp [hrest]

section

variable {layout : Layout} {ms : List (String × Json)}

theorem write_object_eq_cons (layout : Layout) (ms : List (String × Json)) :
    ∃ tail, write layout 0 (.object ms) = '\x7b' :: tail := by
  cases ms with
  | nil => exact ⟨_, rfl⟩
  | cons m ms => exact ⟨_, rfl⟩

variable (hl : layout.IsBlank) (hfree : (object ms).FloatFree)
include hl hfree

/-- An object is read from its text, whatever comes after. -/
theorem readValue_write_object {fuel : Nat}
    (hfuel : 2 * (write layout 0 (.object ms)).length ≤ fuel) (more : List Char) :
    readValue fuel (write layout 0 (.object ms) ++ more) = .ok (.object ms, more) := by
  have hread := readsBack hl hfree 0 fuel [] endsNumber_nil hfuel
  obtain ⟨tail, htail⟩ := write_object_eq_cons layout ms
  rw [htail, List.append_nil] at hread
  rw [htail]
  exact readValue_brace_append more hread (Nat.le_refl fuel)

theorem exists_fault_of_cut {front back : String}
    (htext : render layout (.object ms) = front ++ back) (hback : back ≠ "") :
    ∃ fault, read front = .error fault := by
  cases hread : read front with
  | error fault => exact ⟨fault, rfl⟩
  | ok j =>
    exfalso
    have hchars : write layout 0 (.object ms) = front.toList ++ back.toList := by
      rw [← String.toList_append, ← htext, render, String.toList_ofList]
    obtain ⟨-, rest, hvalue, -⟩ := read_eq_ok_iff.1 hread
    obtain ⟨tail, htail⟩ := write_object_eq_cons layout ms
    have hne : front.toList ≠ [] := by
      intro hnil
      rw [hnil] at hvalue
      exact skipBlank_ne_nil_of_readValue hvalue rfl
    obtain ⟨c, cs, hfront⟩ := List.exists_cons_of_ne_nil hne
    rw [hchars, hfront] at htail
    obtain rfl : c = '\x7b' := (List.cons.inj htail).1
    -- With the rest of the text after it, the part would be read as before, and leave that rest.
    rw [hfront, skipBlank_cons rfl] at hvalue
    have hwhole := readValue_brace_append back.toList hvalue
      (Nat.le_max_left _ (2 * (write layout 0 (.object ms)).length))
    have hleft := readValue_write_object hl hfree (Nat.le_max_right
      (2 * ('\x7b' :: cs).length + 2) _) []
    rw [hchars, hfront] at hwhole
    rw [List.append_nil, hchars, hfront, hwhole] at hleft
    obtain ⟨-, hnil⟩ := Prod.mk.inj (Except.ok.inj hleft)
    rw [List.append_eq_nil_iff] at hnil
    exact hback (String.toList_inj.1 hnil.2)

theorem read_of_padded {before after : String} (hbefore : ∀ c ∈ before.toList, isBlank c)
    (hafter : ∀ c ∈ after.toList, isBlank c) :
    read (before ++ render layout (.object ms) ++ after) = .ok (.object ms) := by
  have hchars : (before ++ render layout (.object ms) ++ after).toList =
      before.toList ++ (write layout 0 (.object ms) ++ after.toList) := by
    simp [render]
  obtain ⟨tail, htail⟩ := write_object_eq_cons layout ms
  rw [read_eq_ok_iff, hchars]
  refine ⟨?_, after.toList, ?_, skipBlank_eq_nil_iff.2 hafter⟩
  · cases hcs : before.toList with
    | nil => simp [htail]
    | cons c cs =>
      rintro ⟨⟩
      have hblank := hbefore _ (hcs ▸ List.mem_cons_self)
      contradiction
  · have hskip : skipBlank (write layout 0 (.object ms) ++ after.toList) =
        write layout 0 (.object ms) ++ after.toList := by
      rw [htail, List.cons_append, skipBlank_cons rfl]
    rw [skipBlank_append hbefore, hskip]
    apply readValue_write_object hl hfree
    simp only [List.length_append]
    omega

theorem exists_fault_of_continued {more : String} (hmore : ∃ c ∈ more.toList, isBlank c = false) :
    ∃ fault, read (render layout (.object ms) ++ more) = .error fault := by
  cases hread : read (render layout (.object ms) ++ more) with
  | error fault => exact ⟨fault, rfl⟩
  | ok j =>
    exfalso
    have hchars : (render layout (.object ms) ++ more).toList =
        write layout 0 (.object ms) ++ more.toList := by
      simp [render]
    obtain ⟨tail, htail⟩ := write_object_eq_cons layout ms
    obtain ⟨-, rest, hvalue, hrest⟩ := read_eq_ok_iff.1 hread
    have hskip : skipBlank (write layout 0 (.object ms) ++ more.toList) =
        write layout 0 (.object ms) ++ more.toList := by
      rw [htail, List.cons_append, skipBlank_cons rfl]
    rw [hchars, hskip, readValue_write_object hl hfree (by simp only [List.length_append]; omega)]
      at hvalue
    obtain ⟨-, rfl⟩ := Prod.mk.inj (Except.ok.inj hvalue)
    obtain ⟨c, hc, hblank⟩ := hmore
    have hall := skipBlank_eq_nil_iff.1 hrest c hc
    simp [hblank] at hall

end

end Json

/-- A text that tells where it ends: no part of it from its start is a document, blanks on either
side change nothing, and nothing else can follow. -/
structure SelfDelimiting {α : Type} (decode : String → Except Error α) (text : String)
    (accepts : α → Prop) : Prop where
  cut : ∀ front back : String, text = front ++ back → back ≠ "" →
    ∃ fault, decode front = .error (.malformed fault)
  padded : ∀ before after : String, (∀ c ∈ before.toList, Json.isBlank c) →
    (∀ c ∈ after.toList, Json.isBlank c) → ∃ x, decode (before ++ text ++ after) = .ok x ∧ accepts x
  continued : ∀ more : String, (∃ c ∈ more.toList, Json.isBlank c = false) →
    ∃ fault, decode (text ++ more) = .error (.malformed fault)

/-- What decodes texts by their documents finds the texts of objects to be so. -/
theorem selfDelimiting_render {α : Type} {decode : String → Except Error α} {accepts : α → Prop}
    {layout : Json.Layout} {ms : List (String × Json)} {x : α} (hl : layout.IsBlank)
    (hfree : (Json.object ms).FloatFree)
    (herror : ∀ {text fault}, Json.read text = .error fault →
      decode text = .error (.malformed fault))
    (hdecode : ∀ {text}, Json.read text = .ok (.object ms) → decode text = .ok x) (hx : accepts x) :
    SelfDelimiting decode (Json.render layout (.object ms)) accepts where
  cut _ _ htext hback := by
    obtain ⟨fault, hfault⟩ := Json.exists_fault_of_cut hl hfree htext hback
    exact ⟨fault, herror hfault⟩
  padded _ _ hbefore hafter :=
    ⟨x, hdecode (Json.read_of_padded hl hfree hbefore hafter), hx⟩
  continued _ hmore := by
    obtain ⟨fault, hfault⟩ := Json.exists_fault_of_continued hl hfree hmore
    exact ⟨fault, herror hfault⟩

theorem Registry.decodeText_of_read_error {r : Registry} {text : String} {fault : Json.Fault}
    (h : Json.read text = .error fault) : r.decodeText text = .error (.malformed fault) := by
  rw [decodeText, h]

theorem Definitions.decodeText_of_read_error {r : Registry} {text : String} {fault : Json.Fault}
    (h : Json.read text = .error fault) : decodeText r text = .error (.malformed fault) := by
  rw [decodeText, h]

theorem Tree.selfDelimiting {layout : Json.Layout} (hl : layout.IsBlank) (x : Tree) :
    SelfDelimiting Registry.builtin.decodeText (Json.render layout x.toJson)
      fun v => v = x.toValue ∧ v.equal x.toValue := by
  obtain ⟨ms, hms⟩ : ∃ ms, x.toJson = .object ms := by
    cases x with
    | type t => cases t <;> exact ⟨_, rfl⟩
    | node n => cases n <;> exact ⟨_, rfl⟩
  have hfree := x.floatFree_toJson
  have hdecode := x.decode_toJson
  rw [hms] at hfree hdecode ⊢
  refine selfDelimiting_render hl hfree Registry.decodeText_of_read_error ?_ ⟨rfl, x.equal_refl⟩
  intro text hread
  rw [Registry.decodeText, hread]
  exact hdecode

theorem DefinitionsTree.selfDelimiting {layout : Json.Layout} (hl : layout.IsBlank)
    (d : DefinitionsTree) {accepts : Definitions → Prop} (hd : accepts d.toDefinitions) :
    SelfDelimiting (Definitions.decodeText .builtin) (Json.render layout d.toJson) accepts := by
  refine selfDelimiting_render hl d.floatFree_toJson Definitions.decodeText_of_read_error ?_ hd
  intro text hread
  rw [Definitions.decodeText, hread]
  exact d.decode_toJson

/-- Types, nodes and definitions have texts, in every layout, that say where they end: what is
decoded from one of them, between any blanks, is what was written, and any shorter or longer text is
no document. -/
theorem encodeText_selfDelimiting (indent : Option Int) :
    (∀ x : Tree, ∃ text, x.toValue.encodeText (.ofIndent indent) = .ok text ∧
      SelfDelimiting Registry.builtin.decodeText text
        fun v => v = x.toValue ∧ v.equal x.toValue) ∧
    (∀ d : DefinitionsTree, ∃ text, d.toDefinitions.toText (.ofIndent indent) = .ok text ∧
      SelfDelimiting (Definitions.decodeText .builtin) text (·.Agree d.toDefinitions)) := by
  have hblank := Json.Layout.isBlank_ofIndent indent
  constructor
  · intro x
    exact ⟨_, Value.encodeText_of_encode x.encode_toValue (.ofIndent indent),
      x.selfDelimiting hblank⟩
  · intro d
    exact ⟨_, d.toText_toDefinitions (.ofIndent indent),
      d.sorted.selfDelimiting hblank (DefinitionsTree.agree_of_perm rfl d.tokens_sorted_perm)⟩

end AstSchema
