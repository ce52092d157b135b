import AstSchema.Proofs.Json.Text

/-! Scalars are read back, as long as the text after a number does not go on with it. Floating-point
numbers are left out. -/
namespace AstSchema.Json

/-- What cannot go on with a number: the end of the text, or a character that no number has. -/
def EndsNumber (rest : List Char) : Prop :=
  ∀ c ∈ rest.head?, c.isDigit = false ∧ c ≠ '.' ∧ c ≠ 'e' ∧ c ≠ 'E'

theorem endsNumber_nil : EndsNumber [] := by
  intro c hc
  contradiction

theorem endsNumber_cons {c : Char} (hc : c.isDigit = false ∧ c ≠ '.' ∧ c ≠ 'e' ∧ c ≠ 'E')
    (rest : List Char) : EndsNumber (c :: rest) := by
  intro d hd
  obtain rfl := Option.some.inj hd
  exact hc

/-! ## Integers -/

theorem isDigit_of_mem_toDigits (n : Nat) : ∀ c ∈ Nat.toDigits 10 n, c.isDigit :=
  fun _ hc => Nat.isDigit_of_mem_toDigits (by decide) (by decide) hc

theorem toDigits_eq_cons (n : Nat) : ∃ c cs, Nat.toDigits 10 n = c :: cs ∧ c.isDigit := by
  obtain ⟨c, cs, hcs⟩ := List.exists_cons_of_ne_nil (Nat.toDigits_ne_nil (n := n) (b := 10))
  exact ⟨c, cs, hcs, isDigit_of_mem_toDigits n c (by simp [hcs])⟩

theorem digitChar_ne_zero : ∀ n < 10, 0 < n → Nat.digitChar n ≠ '0' := by decide

/-- Only zero is written with a zero in front. -/
theorem toDigits_eq_cons_of_pos {n : Nat} (hn : 0 < n) :
    ∃ c cs, Nat.toDigits 10 n = c :: cs ∧ c ≠ '0' := by
  induction n using Nat.strongRecOn with
  | ind n ih =>
    by_cases hlt : n < 10
    · exact ⟨Nat.digitChar n, [], Nat.toDigits_of_lt_base hlt, digitChar_ne_zero n hlt hn⟩
    · obtain ⟨c, cs, hcs, hc⟩ := ih (n / 10) (by omega) (by omega)
      refine ⟨c, cs ++ [Nat.digitChar (n % 10)], ?_, hc⟩
      rw [Nat.toDigits_of_base_le (by decide) (by omega), hcs, List.cons_append]

section

variable {rest : List Char}

theorem spanDigits_append {digits : List Char} (hdigits : ∀ c ∈ digits, c.isDigit)
    (hrest : EndsNumber rest) : spanDigits (digits ++ rest) = (digits, rest) := by
  have hstop : rest.takeWhile Char.isDigit = [] ∧ rest.dropWhile Char.isDigit = rest := by
    cases rest with
    | nil => exact ⟨rfl, rfl⟩
    | cons c cs => simp [(hrest c rfl).1]
  unfold spanDigits
  rw [List.takeWhile_append_of_pos hdigits, List.dropWhile_append_of_pos hdigits, hstop.1, hstop.2,
    List.append_nil]

theorem readWhole_toDigits (n : Nat) (hrest : EndsNumber rest) :
    readWhole (Nat.toDigits 10 n ++ rest) = (Nat.toDigits 10 n, rest) := by
  obtain rfl | hn := Nat.eq_zero_or_pos n
  · rfl
  · obtain ⟨c, cs, hcs, hc⟩ := toDigits_eq_cons_of_pos hn
    have hspan : readWhole (Nat.toDigits 10 n ++ rest) =
        spanDigits (Nat.toDigits 10 n ++ rest) := by
      rw [hcs, List.cons_append, readWhole]
      exact fun _ heq => hc (List.cons.inj heq).1
    rw [hspan]
    exact spanDigits_append (isDigit_of_mem_toDigits n) hrest

theorem readFraction_of_endsNumber (hrest : EndsNumber rest) : readFraction rest = ([], rest) := by
  unfold readFraction
  split
  · exact absurd rfl (hrest _ rfl).2.1
  · rfl

theorem readPower_of_endsNumber (hrest : EndsNumber rest) : readPower rest = (none, rest) := by
  cases rest with
  | nil => rfl
  | cons c cs =>
    obtain ⟨-, -, he, hE⟩ := hrest c rfl
    simp [readPower, he, hE]

theorem readNumber_writeInt (n : Int) (hrest : EndsNumber rest) :
    readNumber (Scalar.writeInt n ++ rest) = some (.int n, rest) := by
  obtain ⟨c, cs, hcs, hc⟩ := toDigits_eq_cons n.natAbs
  have hwhole := readWhole_toDigits n.natAbs hrest
  have hfraction := readFraction_of_endsNumber hrest
  have hpower := readPower_of_endsNumber hrest
  have hvalue : Nat.ofDigitChars 10 (c :: cs) 0 = n.natAbs := by
    rw [← hcs, Nat.ofDigitChars_ten_toDigits]
  rw [hcs, List.cons_append] at hwhole
  unfold Scalar.writeInt
  rw [hcs]
  by_cases hneg : n < 0
  · rw [if_pos hneg]
    unfold readNumber
    simp only [List.cons_append, hwhole, hfraction, hpower, hvalue, List.isEmpty_nil,
      Option.isNone_none, Bool.and_self, ↓reduceIte]
    congr
    omega
  · rw [if_neg hneg]
    have hplain : ∀ tail, c :: (cs ++ rest) = '-' :: tail → False := by
      intro tail heq
      rw [(List.cons.inj heq).1] at hc
      contradiction
    unfold readNumber
    simp only [List.cons_append, hwhole, hfraction, hpower, hvalue, List.isEmpty_nil,
      Option.isNone_none, Bool.and_self, Bool.false_eq_true, ↓reduceIte]
    congr
    omega

end

/-! ## Words -/

theorem readWord_of_isDigit {c : Char} (hc : c.isDigit) (cs : List Char) :
    readWord (c :: cs) = none := by
  unfold readWord
  split
  case h_7 => rfl
  all_goals
    next heq =>
      rw [(List.cons.inj heq).1] at hc
      contradiction

theorem readWord_minus_of_isDigit {c : Char} (hc : c.isDigit) (cs : List Char) :
    readWord ('-' :: c :: cs) = none := by
  unfold readWord
  split
  case h_6 heq =>
    rw [(List.cons.inj (List.cons.inj heq).2).1] at hc
    contradiction
  case h_7 => rfl
  all_goals next heq => exact absurd (List.cons.inj heq).1 (by decide)

/-- No integer is taken for a word. -/
theorem readWord_writeInt (n : Int) (rest : List Char) :
    readWord (Scalar.writeInt n ++ rest) = none := by
  obtain ⟨c, cs, hcs, hc⟩ := toDigits_eq_cons n.natAbs
  unfold Scalar.writeInt
  rw [hcs]
  split
  · exact readWord_minus_of_isDigit hc (cs ++ rest)
  · exact readWord_of_isDigit hc (cs ++ rest)

/-! ## Values -/

theorem readValue_of_readNumber {c : Char} {cs rest : List Char} {s : Scalar} (fuel : Nat)
    (hc : c.isDigit ∨ c = '-') (hword : readWord (c :: cs) = none)
    (hnumber : readNumber (c :: cs) = some (s, rest)) :
    readValue (fuel + 1) (c :: cs) = .ok (.scalar s, rest) := by
  have hne : c ≠ '\x22' ∧ c ≠ '[' ∧ c ≠ '\x7b' := by
    refine ⟨?_, ?_, ?_⟩ <;> rintro rfl <;> revert hc <;> decide
  rw [readValue]
  · rw [hword, hnumber]
  · exact fun _ heq => hne.1 (List.cons.inj heq).1
  · exact fun _ heq => hne.2.1 (List.cons.inj heq).1
  · exact fun _ heq => hne.2.2 (List.cons.inj heq).1

theorem readValue_writeInt (fuel : Nat) (n : Int) {rest : List Char} (hrest : EndsNumber rest) :
    readValue (fuel + 1) (Scalar.writeInt n ++ rest) = .ok (.scalar (.int n), rest) := by
  obtain ⟨c, cs, hcs, hc⟩ := toDigits_eq_cons n.natAbs
  have hword := readWord_writeInt n rest
  have hnumber := readNumber_writeInt n hrest
  unfold Scalar.writeInt at hword hnumber ⊢
  rw [hcs] at hword hnumber ⊢
  split at hword
  · next hneg =>
    rw [if_pos hneg] at hnumber ⊢
    exact readValue_of_readNumber fuel (.inr rfl) hword hnumber
  · next hneg =>
    rw [if_neg hneg] at hnumber ⊢
    exact readValue_of_readNumber fuel (.inl hc) hword hnumber

theorem readValue_writeText (fuel : Nat) (s : String) (rest : List Char) :
    readValue (fuel + 1) (writeText s ++ rest) = .ok (.text s, rest) := by
  have hread := readText_writeText s rest
  unfold writeText at hread ⊢
  rw [List.cons_append, List.cons_append] at hread ⊢
  rw [readValue, hread]
  rfl

theorem readValue_writeScalar (fuel : Nat) {s : Scalar} (hs : ∀ x, s ≠ .float x) {rest : List Char}
    (hrest : EndsNumber rest) :
    readValue (fuel + 1) (writeScalar s ++ rest) = .ok (.scalar s, rest) := by
  cases s with
  | null => rfl
  | bool b => cases b <;> rfl
  | int n => exact readValue_writeInt fuel n hrest
  | float x => exact absurd rfl (hs x)
  | text s => exact readValue_writeText fuel s rest

end AstSchema.Json
