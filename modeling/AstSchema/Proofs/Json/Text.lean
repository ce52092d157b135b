import AstSchema.Json.Reader
import AstSchema.Json.Writer

/-! Texts are read back. The writer escapes a character by its units, the reader collects the units
up to the closing quote, and joining them gives the characters again. -/
namespace AstSchema.Json

/-! ## Escapes -/

theorem hexValue_digitChar {d : Nat} (h : d < 16) : hexValue (Nat.digitChar d) = some d := by
  revert d
  decide

theorem hexUnit_digits {u : Nat} (h : u < 0x10000) :
    hexUnit (Nat.digitChar (u / 16 / 16 / 16 % 16)) (Nat.digitChar (u / 16 / 16 % 16))
      (Nat.digitChar (u / 16 % 16)) (Nat.digitChar (u % 16)) = some u := by
  unfold hexUnit
  simp only [hexValue_digitChar (Nat.mod_lt _ (by decide : 0 < 16)), Option.bind_eq_bind,
    Option.bind_some, Option.pure_def, Option.some.injEq]
  omega

section

variable {opening rest tail : List Char} {units : List Nat}

theorem ne_nil_of_readUnits (h : readUnits opening rest = .ok (units, tail)) : rest ≠ [] := by
  rintro rfl
  rw [readUnits] at h
  contradiction

theorem readUnits_unitEscape {u : Nat} (hu : u < 0x10000)
    (h : readUnits opening rest = .ok (units, tail)) :
    readUnits opening ('\\' :: 'u' :: hexDigits 4 u ++ rest) = .ok (u :: units, tail) := by
  obtain ⟨c, cs, rfl⟩ := List.exists_cons_of_ne_nil (ne_nil_of_readUnits h)
  have hunit := hexUnit_digits hu
  simp only [hexDigits, List.nil_append, List.cons_append]
  rw [readUnits.eq_3 _ _ _ _ _ _ u c cs hunit, h]
  rfl

theorem readUnits_shortEscape {c : Char} {u : Nat} (hc : c ≠ 'u') (hu : shortEscape c = some u)
    (h : readUnits opening rest = .ok (units, tail)) :
    readUnits opening ('\\' :: c :: rest) = .ok (u :: units, tail) := by
  rw [readUnits.eq_def]
  simp only [beq_iff_eq, Char.reduceEq, ↓reduceIte]
  split
  · contradiction
  · next heq => exact absurd (List.cons.inj heq).1 hc
  · next heq => exact absurd (List.cons.inj heq).1 hc
  · next heq =>
    obtain ⟨rfl, rfl⟩ := heq
    rw [hu, h]
    rfl

theorem readUnits_plain {c : Char} (hquote : c ≠ '\x22') (hslash : c ≠ '\\')
    (hc : ¬ c.toNat < 0x20) (h : readUnits opening rest = .ok (units, tail)) :
    readUnits opening (c :: rest) = .ok (c.toNat :: units, tail) := by
  rw [readUnits.eq_def]
  simp only [beq_iff_eq, hquote, hslash, hc, ↓reduceIte, h]
  rfl

end

/-! ## Units of characters -/

/-- A character is no half of a surrogate pair. -/
theorem toNat_valid (c : Char) : c.toNat < 0xD800 ∨ 0xDFFF < c.toNat ∧ c.toNat < 0x110000 := by
  have hvalid := c.valid
  simp only [UInt32.isValidChar, Nat.isValidChar] at hvalid
  exact hvalid

/-- What a character is read as: its code point, or its two halves past the first plane. -/
def unitsOf (c : Char) : List Nat :=
  if c.toNat < 0x10000 then [c.toNat]
  else [0xD800 + (c.toNat - 0x10000) / 0x400, 0xDC00 + (c.toNat - 0x10000) % 0x400]

theorem single_toNat (c : Char) : joinUnits.single c.toNat = c := by
  unfold joinUnits.single
  have hvalid := toNat_valid c
  have hhalf : ¬ (0xD800 ≤ c.toNat ∧ c.toNat < 0xE000) := by omega
  simp only [Bool.and_eq_true, decide_eq_true_eq, hhalf, ↓reduceIte, Char.ofNat_toNat]

theorem joinUnits_unitsOf (c : Char) (us : List Nat) :
    joinUnits (unitsOf c ++ us) = c :: joinUnits us := by
  have hvalid := toNat_valid c
  unfold unitsOf
  split
  · cases us with
    | nil => simp only [List.append_nil, joinUnits, single_toNat]
    | cons low us =>
      simp only [List.cons_append, List.nil_append]
      rw [joinUnits, if_neg, single_toNat]
      simp only [Bool.and_eq_true, decide_eq_true_eq]
      omega
  · simp only [List.cons_append, List.nil_append]
    rw [joinUnits, if_pos]
    · have hcode : 0x10000 + (0xD800 + (c.toNat - 0x10000) / 0x400 - 0xD800) * 0x400 +
          (0xDC00 + (c.toNat - 0x10000) % 0x400 - 0xDC00) = c.toNat := by omega
      rw [hcode, Char.ofNat_toNat]
    · simp only [Bool.and_eq_true, decide_eq_true_eq]
      omega

@[simp] theorem joinUnits_flatMap (cs : List Char) : joinUnits (cs.flatMap unitsOf) = cs := by
  induction cs with
  | nil => rfl
  | cons c cs ih => rw [List.flatMap_cons, joinUnits_unitsOf, ih]

/-! ## Texts -/

/-- There are three ways to write a character: a letter after a backslash, the character itself, or
its units. -/
theorem escapeChar_cases (c : Char) :
    (∃ e, escapeChar c = ['\\', e] ∧ e ≠ 'u' ∧ shortEscape e = some c.toNat ∧ c.toNat < 0x80) ∨
    (escapeChar c = [c] ∧ 0x20 ≤ c.toNat ∧ c.toNat ≤ 0x7E ∧ c ≠ '\x22' ∧ c ≠ '\\') ∨
    escapeChar c = escapeUnits c.toNat := by
  unfold escapeChar
  by_cases hquoted : c = '\x22' ∨ c = '\\'
  · obtain rfl | rfl := hquoted
    · exact .inl ⟨'\x22', rfl, by decide, rfl, by decide⟩
    · exact .inl ⟨'\\', rfl, by decide, rfl, by decide⟩
  by_cases hn : c = '\n'
  · subst hn
    exact .inl ⟨'n', rfl, by decide, rfl, by decide⟩
  by_cases hr : c = '\r'
  · subst hr
    exact .inl ⟨'r', rfl, by decide, rfl, by decide⟩
  by_cases ht : c = '\t'
  · subst ht
    exact .inl ⟨'t', rfl, by decide, rfl, by decide⟩
  by_cases hf : c = '\x0c'
  · subst hf
    exact .inl ⟨'f', rfl, by decide, rfl, by decide⟩
  by_cases hb : c = '\x08'
  · subst hb
    exact .inl ⟨'b', rfl, by decide, rfl, by decide⟩
  simp only [beq_iff_eq, hn, hr, ht, hf, hb, Bool.or_eq_true, hquoted, ↓reduceIte]
  split
  · next hprintable =>
    obtain ⟨hlow, hhigh⟩ := Bool.and_eq_true_iff.1 hprintable
    rw [not_or] at hquoted
    exact .inr (.inl ⟨rfl, UInt32.le_iff_toNat_le.1 (of_decide_eq_true hlow),
      UInt32.le_iff_toNat_le.1 (of_decide_eq_true hhigh), hquoted⟩)
  · exact .inr (.inr rfl)

section

variable {opening rest tail : List Char} {units : List Nat}

theorem readUnits_escapeUnits (c : Char) (h : readUnits opening rest = .ok (units, tail)) :
    readUnits opening (escapeUnits c.toNat ++ rest) = .ok (unitsOf c ++ units, tail) := by
  unfold escapeUnits unitsOf
  have hvalid := toNat_valid c
  split
  · next hsmall => exact readUnits_unitEscape hsmall h
  · rw [List.append_assoc]
    apply readUnits_unitEscape (by omega)
    exact readUnits_unitEscape (by omega) h

/-- However a character is escaped, reading gives its units. -/
theorem readUnits_escapeChar (c : Char) (h : readUnits opening rest = .ok (units, tail)) :
    readUnits opening (escapeChar c ++ rest) = .ok (unitsOf c ++ units, tail) := by
  obtain ⟨e, he, hu, hshort, hlt⟩ | ⟨he, hlow, hhigh, hquote, hslash⟩ | he := escapeChar_cases c
  · have hunits : unitsOf c = [c.toNat] := if_pos (by omega)
    rw [he, hunits]
    exact readUnits_shortEscape hu hshort h
  · have hunits : unitsOf c = [c.toNat] := if_pos (by omega)
    rw [he, hunits]
    exact readUnits_plain hquote hslash (by omega) h
  · rw [he]
    exact readUnits_escapeUnits c h

theorem readUnits_flatMap (cs : List Char) :
    readUnits opening (cs.flatMap escapeChar ++ '\x22' :: rest) =
      .ok (cs.flatMap unitsOf, rest) := by
  induction cs with
  | nil =>
    rw [List.flatMap_nil, List.nil_append, readUnits.eq_def]
    rfl
  | cons c cs ih =>
    rw [List.flatMap_cons, List.append_assoc]
    exact readUnits_escapeChar c ih

end

@[simp] theorem readText_writeText (s : String) (rest : List Char) :
    readText (writeText s ++ rest) = .ok (s, rest) := by
  unfold readText writeText
  simp only [List.cons_append, List.append_assoc, List.tail_cons, List.nil_append]
  rw [readUnits_flatMap]
  change Except.ok (String.ofList (joinUnits (s.toList.flatMap unitsOf)), rest) = _
  rw [joinUnits_flatMap, String.ofList_toList]

end AstSchema.Json
