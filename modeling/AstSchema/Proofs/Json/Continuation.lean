import AstSchema.Proofs.Json.RoundTrip
import AstSchema.Proofs.Outcome

/-! What has been read stays read when the text goes on. A number is the exception: it is over only
once a character follows that no number has. So a container, which ends with a bracket of its own,
is read in the same way whatever comes after it. -/
namespace AstSchema.Json

variable {cs rest : List Char}

/-! ## Blanks -/

theorem skipBlank_append_of_eq_cons {c : Char} (h : skipBlank cs = c :: rest) (more : List Char) :
    skipBlank (cs ++ more) = c :: (rest ++ more) := by
  unfold skipBlank at h ⊢
  rw [List.dropWhile_append, h]
  rfl

theorem skipBlank_append_of_ne_nil (h : skipBlank cs ≠ []) (more : List Char) :
    skipBlank (cs ++ more) = skipBlank cs ++ more := by
  obtain ⟨c, tail, hcs⟩ := List.exists_cons_of_ne_nil h
  rw [skipBlank_append_of_eq_cons hcs, hcs, List.cons_append]

theorem endsNumber_of_skipBlank {c : Char} (h : skipBlank cs = c :: rest)
    (hc : c.isDigit = false ∧ c ≠ '.' ∧ c ≠ 'e' ∧ c ≠ 'E') : cs ≠ [] ∧ EndsNumber cs := by
  cases cs with
  | nil => contradiction
  | cons d tail =>
    refine ⟨List.cons_ne_nil d tail, endsNumber_cons ?_ tail⟩
    by_cases hblank : isBlank d
    · simp only [isBlank, Bool.or_eq_true, beq_iff_eq, or_assoc] at hblank
      obtain rfl | rfl | rfl | rfl := hblank <;> decide
    · rw [skipBlank_cons (by simpa using hblank)] at h
      rwa [(List.cons.inj h).1]

/-! ## Texts -/

theorem readUnits_append {opening : List Char} {units : List Nat}
    (h : readUnits opening cs = .ok (units, rest)) (opening' more : List Char) :
    readUnits opening' (cs ++ more) = .ok (units, rest ++ more) := by
  fun_induction readUnits opening cs generalizing units rest with
  | case2 c cs hquote =>
    obtain ⟨rfl, rfl⟩ := h
    rw [List.cons_append, readUnits.eq_def]
    simp [hquote]
  | case4 c hquote hslash a b d e u head tail hunit ih =>
    obtain ⟨⟨us, after⟩, hus, hpair⟩ := bind_eq_ok_iff.1 h
    obtain ⟨rfl, rfl⟩ := hpair
    have hmore := ih hus
    simp only [List.cons_append] at hmore ⊢
    rw [readUnits.eq_3 _ _ _ _ _ _ u head _ hunit, if_neg hquote, if_pos hslash, hmore]
    rfl
  | case7 c hquote hslash e tail _ hu u hshort ih =>
    obtain ⟨⟨us, after⟩, hus, hpair⟩ := bind_eq_ok_iff.1 h
    obtain ⟨rfl, rfl⟩ := hpair
    obtain rfl : c = '\\' := beq_iff_eq.1 hslash
    exact readUnits_shortEscape hu hshort (ih hus)
  | case10 c tail hquote hslash hcontrol ih =>
    obtain ⟨⟨us, after⟩, hus, hpair⟩ := bind_eq_ok_iff.1 h
    obtain ⟨rfl, rfl⟩ := hpair
    exact readUnits_plain (by simpa using hquote) (by simpa using hslash) hcontrol (ih hus)
  | _ => contradiction

theorem readText_append {s : String} (h : readText cs = .ok (s, rest)) (more : List Char) :
    readText (cs ++ more) = .ok (s, rest ++ more) := by
  obtain ⟨⟨units, after⟩, hunits, hpair⟩ := bind_eq_ok_iff.1 h
  obtain ⟨rfl, rfl⟩ := hpair
  cases cs with
  | nil => contradiction
  | cons c tail =>
    rw [List.tail_cons] at hunits
    rw [readText, List.cons_append, List.tail_cons, readUnits_append hunits]
    rfl

/-! ## Numbers -/

theorem spanDigits_append_of_ne_nil {digits : List Char} (h : spanDigits cs = (digits, rest))
    (hne : rest ≠ []) (more : List Char) : spanDigits (cs ++ more) = (digits, rest ++ more) := by
  obtain ⟨rfl, rfl⟩ := Prod.mk.inj h
  induction cs with
  | nil => contradiction
  | cons c cs ih =>
    by_cases hc : c.isDigit
    · simp only [spanDigits, List.cons_append, List.takeWhile_cons_of_pos hc,
        List.dropWhile_cons_of_pos hc] at ih hne ⊢
      obtain ⟨htake, hdrop⟩ := Prod.mk.inj (ih hne trivial)
      rw [htake, hdrop]
    · simp [spanDigits, hc]

theorem readWhole_append {whole : List Char} (h : readWhole cs = (whole, rest)) (hne : rest ≠ [])
    (more : List Char) : readWhole (cs ++ more) = (whole, rest ++ more) := by
  unfold readWhole at h
  split at h
  · obtain ⟨rfl, rfl⟩ := h
    rfl
  next hzero =>
    have hspan := spanDigits_append_of_ne_nil h hne more
    rw [readWhole]
    · exact hspan
    · intro tail heq
      cases cs with
      | nil =>
        obtain ⟨-, rfl⟩ := Prod.mk.inj h
        contradiction
      | cons c cs => exact hzero cs (congrArg (· :: cs) (List.cons.inj heq).1)

/-- What is left of a fraction is no point. -/
theorem readFraction_append {fraction : List Char} (h : readFraction cs = (fraction, rest))
    (hne : rest ≠ []) (hpoint : rest.head? ≠ some '.') (more : List Char) :
    readFraction (cs ++ more) = (fraction, rest ++ more) := by
  unfold readFraction at h
  split at h
  next tail =>
    split at h
    · obtain ⟨-, rfl⟩ := h
      contradiction
    next hdigits =>
      have hspan := spanDigits_append_of_ne_nil h hne more
      rw [List.cons_append, readFraction, hspan]
      cases fraction with
      | nil => exact absurd h (hdigits rest)
      | cons c fraction => rfl
  next hplain =>
    obtain ⟨rfl, rfl⟩ := h
    rw [readFraction]
    intro tail heq
    obtain ⟨c, cs', rfl⟩ := List.exists_cons_of_ne_nil hne
    exact hpoint (congrArg some (List.cons.inj heq).1)

/-- An exponent after its letter: whether it is negative, and what its digits are read from. -/
def splitSign : List Char → Bool × List Char
  | '-' :: cs => (true, cs)
  | '+' :: cs => (false, cs)
  | cs => (false, cs)

theorem splitSign_append (h : cs ≠ []) (more : List Char) :
    splitSign (cs ++ more) = ((splitSign cs).1, (splitSign cs).2 ++ more) := by
  obtain ⟨c, tail, rfl⟩ := List.exists_cons_of_ne_nil h
  by_cases hminus : c = '-'
  · subst hminus
    rfl
  · by_cases hplus : c = '+'
    · subst hplus
      rfl
    · have hplain : ∀ cs, splitSign (c :: cs) = (false, c :: cs) := by
        intro cs
        rw [splitSign]
        · exact fun _ heq => hminus (List.cons.inj heq).1
        · exact fun _ heq => hplus (List.cons.inj heq).1
      rw [List.cons_append, hplain, hplain]
      rfl

theorem readPower_exponent {e : Char} (he : e = 'e' ∨ e = 'E') (cs : List Char) :
    readPower (e :: cs) = match spanDigits (splitSign cs).2 with
      | ([], _) => (none, e :: cs)
      | (digits, rest) =>
        let n : Int := Nat.ofDigitChars 10 digits 0
        (some (if (splitSign cs).1 then -n else n), rest) := by
  obtain rfl | rfl := he <;> rfl

theorem readPower_of_ne {e : Char} (he : ¬ (e = 'e' ∨ e = 'E')) (cs : List Char) :
    readPower (e :: cs) = (none, e :: cs) := by
  simp [readPower, he]

theorem readPower_append {power : Option Int} (h : readPower cs = (power, rest)) (hne : rest ≠ [])
    (hends : EndsNumber rest) (more : List Char) :
    readPower (cs ++ more) = (power, rest ++ more) := by
  cases cs with
  | nil =>
    obtain ⟨-, rfl⟩ := Prod.mk.inj h
    contradiction
  | cons e tail =>
    by_cases he : e = 'e' ∨ e = 'E'
    · -- An exponent without digits is left where it is, and it could go on.
      have hleft : (power, rest) ≠ (none, e :: tail) := by
        intro heq
        obtain ⟨-, rfl⟩ := Prod.mk.inj heq
        obtain ⟨-, -, hsmall, hlarge⟩ := hends e rfl
        exact he.elim hsmall hlarge
      obtain ⟨digits, after, hspan⟩ : ∃ digits after, spanDigits (splitSign tail).2 =
        (digits, after) := ⟨_, _, rfl⟩
      rw [readPower_exponent he, hspan] at h
      cases digits with
      | nil => exact absurd h.symm hleft
      | cons d digits =>
        obtain ⟨rfl, rfl⟩ := Prod.mk.inj h
        have hsign : tail ≠ [] := by
          rintro rfl
          simp [splitSign, spanDigits] at hspan
        rw [List.cons_append, readPower_exponent he, splitSign_append hsign,
          spanDigits_append_of_ne_nil hspan hne]
    · rw [readPower_of_ne he] at h
      obtain ⟨rfl, rfl⟩ := Prod.mk.inj h
      rw [List.cons_append, readPower_of_ne he]

/-- What is left of an exponent starts as what it was read from, unless it was read. -/
theorem head?_of_readPower {power : Option Int} (h : readPower cs = (power, rest))
    (hends : EndsNumber rest) : cs.head? ≠ some '.' := by
  intro hpoint
  cases cs with
  | nil => contradiction
  | cons c tail =>
    obtain rfl : c = '.' := Option.some.inj hpoint
    rw [readPower_of_ne (by decide)] at h
    obtain ⟨-, rfl⟩ := Prod.mk.inj h
    exact (hends '.' rfl).2.1 rfl

/-- A number after its sign. -/
def readUnsigned (negative : Bool) (cs : List Char) : Option (Scalar × List Char) :=
  match readWhole cs with
  | ([], _) => none
  | (whole, cs) =>
    let (fraction, cs) := readFraction cs
    let (power, cs) := readPower cs
    if fraction.isEmpty && power.isNone then
      let n : Int := Nat.ofDigitChars 10 whole 0
      some (.int (if negative then -n else n), cs)
    else
      let digits := Nat.ofDigitChars 10 (whole ++ fraction) 0
      some (.float (.ofDecimal negative digits (power.getD 0 - fraction.length)), cs)

theorem readUnsigned_append {negative : Bool} {s : Scalar}
    (h : readUnsigned negative cs = some (s, rest)) (hne : rest ≠ []) (hends : EndsNumber rest)
    (more : List Char) : readUnsigned negative (cs ++ more) = some (s, rest ++ more) := by
  obtain ⟨whole, point, hpoint⟩ : ∃ whole point, readWhole cs = (whole, point) := ⟨_, _, rfl⟩
  obtain ⟨fraction, letter, hletter⟩ : ∃ fraction letter, readFraction point = (fraction, letter) :=
    ⟨_, _, rfl⟩
  obtain ⟨power, left, hleft⟩ : ∃ power left, readPower letter = (power, left) := ⟨_, _, rfl⟩
  rw [readUnsigned, hpoint] at h
  cases whole with
  | nil => contradiction
  | cons digit whole =>
    simp only [hletter, hleft] at h
    obtain rfl : left = rest := by
      split at h <;> exact (Prod.mk.inj (Option.some.inj h)).2
    have hletters : letter ≠ [] := by
      rintro rfl
      obtain ⟨-, rfl⟩ := Prod.mk.inj hleft
      contradiction
    have hpoints : point ≠ [] := by
      rintro rfl
      obtain ⟨-, rfl⟩ := Prod.mk.inj hletter
      contradiction
    rw [readUnsigned, readWhole_append hpoint hpoints more]
    simp only [readFraction_append hletter hletters (head?_of_readPower hleft hends) more,
      readPower_append hleft hne hends more]
    split at h
    next hint =>
      obtain ⟨rfl, -⟩ := Prod.mk.inj (Option.some.inj h)
      rw [if_pos hint]
    next hfloat =>
      obtain ⟨rfl, -⟩ := Prod.mk.inj (Option.some.inj h)
      rw [if_neg hfloat]

theorem readNumber_minus (cs : List Char) : readNumber ('-' :: cs) = readUnsigned true cs := rfl

theorem readNumber_of_ne {c : Char} (hc : c ≠ '-') (cs : List Char) :
    readNumber (c :: cs) = readUnsigned false (c :: cs) := by
  rw [readNumber]
  · rfl
  · exact fun _ heq => hc (List.cons.inj heq).1

theorem readNumber_append {s : Scalar} (h : readNumber cs = some (s, rest)) (hne : rest ≠ [])
    (hends : EndsNumber rest) (more : List Char) :
    readNumber (cs ++ more) = some (s, rest ++ more) := by
  cases cs with
  | nil => contradiction
  | cons c tail =>
    by_cases hc : c = '-'
    · subst hc
      rw [List.cons_append, readNumber_minus]
      exact readUnsigned_append h hne hends more
    · rw [readNumber_of_ne hc] at h
      rw [List.cons_append, readNumber_of_ne hc]
      exact readUnsigned_append h hne hends more

theorem exists_digit_of_readUnsigned {negative : Bool} {s : Scalar}
    (h : readUnsigned negative cs = some (s, rest)) : ∃ d tail, cs = d :: tail ∧ d.isDigit := by
  cases cs with
  | nil => contradiction
  | cons c tail =>
    refine ⟨c, tail, rfl, ?_⟩
    by_contra hc
    have hzero : ∀ cs, c :: tail = '0' :: cs → False := by
      intro cs heq
      rw [(List.cons.inj heq).1] at hc
      contradiction
    have hnone : readWhole (c :: tail) = ([], c :: tail) := by
      rw [readWhole]
      · simp [spanDigits, hc]
      · exact hzero
    rw [readUnsigned, hnone] at h
    contradiction

/-- A number starts with a digit, or with a sign and a digit, and no word does. -/
theorem readWord_eq_none_of_readNumber {s : Scalar} (h : readNumber cs = some (s, rest))
    (more : List Char) : readWord (cs ++ more) = none := by
  cases cs with
  | nil => contradiction
  | cons c tail =>
    by_cases hc : c = '-'
    · subst hc
      obtain ⟨d, digits, rfl, hd⟩ := exists_digit_of_readUnsigned h
      exact readWord_minus_of_isDigit hd (digits ++ more)
    · rw [readNumber_of_ne hc] at h
      obtain ⟨d, digits, heq, hd⟩ := exists_digit_of_readUnsigned h
      rw [heq]
      exact readWord_of_isDigit hd (digits ++ more)

theorem readWord_append {s : Scalar} (h : readWord cs = some (s, rest)) (more : List Char) :
    readWord (cs ++ more) = some (s, rest ++ more) := by
  unfold readWord at h
  split at h
  case h_7 => contradiction
  all_goals
    obtain ⟨rfl, rfl⟩ := Prod.mk.inj (Option.some.inj h)
    rfl

/-! ## Containers -/

section

variable {fuel big : Nat} {j : Json} {js : List Json} {ms : List (String × Json)}

theorem readItems_succ_eq_ok_iff :
    readItems (fuel + 1) cs = .ok (js, rest) ↔
      ∃ item mid, readValue fuel cs = .ok (item, mid) ∧
        (skipBlank mid = ']' :: rest ∧ js = [item] ∨
        ∃ next items, skipBlank mid = ',' :: next ∧
          readItems fuel (skipBlank next) = .ok (items, rest) ∧ js = item :: items) := by
  constructor
  · intro h
    rw [readItems] at h
    obtain ⟨⟨item, mid⟩, hitem, h⟩ := bind_eq_ok_iff.1 h
    refine ⟨item, mid, hitem, ?_⟩
    dsimp only at h
    split at h
    next hmid =>
      obtain ⟨rfl, rfl⟩ := h
      exact .inl ⟨hmid, rfl⟩
    next hmid =>
      obtain ⟨⟨items, last⟩, hitems, hpair⟩ := bind_eq_ok_iff.1 h
      obtain ⟨rfl, rfl⟩ := hpair
      exact .inr ⟨_, items, hmid, hitems, rfl⟩
    next => contradiction
  · rintro ⟨item, mid, hitem, ⟨hmid, rfl⟩ | ⟨next, items, hmid, hitems, rfl⟩⟩
    · exact readItems_last hitem hmid
    · exact readItems_more hitem hmid hitems

theorem readMembers_succ_eq_ok_iff :
    readMembers (fuel + 1) cs = .ok (ms, rest) ↔
      ∃ tail key after next value mid, cs = '\x22' :: tail ∧ readText cs = .ok (key, after) ∧
        skipBlank after = ':' :: next ∧ readValue fuel (skipBlank next) = .ok (value, mid) ∧
        (skipBlank mid = '\x7d' :: rest ∧ ms = [(key, value)] ∨
        ∃ next members, skipBlank mid = ',' :: next ∧
          readMembers fuel (skipBlank next) = .ok (members, rest) ∧
          ms = (key, value) :: members) := by
  constructor
  · intro h
    rw [readMembers.eq_def] at h
    dsimp only at h
    split at h
    next tail =>
      obtain ⟨⟨key, after⟩, hkey, h⟩ := bind_eq_ok_iff.1 h
      dsimp only at h
      split at h
      next next hnext =>
        obtain ⟨⟨value, mid⟩, hvalue, h⟩ := bind_eq_ok_iff.1 h
        refine ⟨tail, key, after, next, value, mid, rfl, hkey, hnext, hvalue, ?_⟩
        dsimp only at h
        split at h
        next hmid =>
          obtain ⟨rfl, rfl⟩ := h
          exact .inl ⟨hmid, rfl⟩
        next hmid =>
          obtain ⟨⟨members, last⟩, hmembers, hpair⟩ := bind_eq_ok_iff.1 h
          obtain ⟨rfl, rfl⟩ := hpair
          exact .inr ⟨_, members, hmid, hmembers, rfl⟩
        next => contradiction
      next => contradiction
    next => contradiction
  · rintro ⟨tail, key, after, next, value, mid, rfl, hkey, hnext, hvalue, hlast⟩
    rw [readMembers, hkey]
    simp only [bind, Except.bind, hnext, hvalue]
    obtain ⟨hmid, rfl⟩ | ⟨next, members, hmid, hmembers, rfl⟩ := hlast
    · rw [hmid]
      rfl
    · rw [hmid]
      simp only [hmembers]
      rfl

theorem readValue_quote_eq_ok_iff :
    readValue (fuel + 1) ('\x22' :: cs) = .ok (j, rest) ↔
      ∃ s, readText ('\x22' :: cs) = .ok (s, rest) ∧ j = .text s := by
  rw [readValue, bind_eq_ok_iff]
  constructor
  · rintro ⟨⟨s, after⟩, hs, hpair⟩
    obtain ⟨rfl, rfl⟩ := hpair
    exact ⟨s, hs, rfl⟩
  · rintro ⟨s, hs, rfl⟩
    exact ⟨(s, rest), hs, rfl⟩

theorem readValue_bracket_eq_ok_iff :
    readValue (fuel + 1) ('[' :: cs) = .ok (j, rest) ↔
      skipBlank cs = ']' :: rest ∧ j = .array [] ∨
      ∃ items, readItems fuel (skipBlank cs) = .ok (items, rest) ∧ j = .array items := by
  constructor
  · intro h
    rw [readValue] at h
    split at h
    next hclose =>
      obtain ⟨rfl, rfl⟩ := h
      exact .inl ⟨hclose, rfl⟩
    next =>
      obtain ⟨⟨items, after⟩, hitems, hpair⟩ := bind_eq_ok_iff.1 h
      obtain ⟨rfl, rfl⟩ := hpair
      exact .inr ⟨items, hitems, rfl⟩
  · rintro (⟨hclose, rfl⟩ | ⟨items, hitems, rfl⟩)
    · rw [readValue, hclose]
      rfl
    · exact readValue_array hitems

theorem readValue_brace_eq_ok_iff :
    readValue (fuel + 1) ('\x7b' :: cs) = .ok (j, rest) ↔
      skipBlank cs = '\x7d' :: rest ∧ j = .object [] ∨
      ∃ members, readMembers fuel (skipBlank cs) = .ok (members, rest) ∧
        j = .object (Entries.ofPairs (· == ·) members) := by
  constructor
  · intro h
    rw [readValue] at h
    split at h
    next hclose =>
      obtain ⟨rfl, rfl⟩ := h
      exact .inl ⟨hclose, rfl⟩
    next =>
      obtain ⟨⟨members, after⟩, hmembers, hpair⟩ := bind_eq_ok_iff.1 h
      obtain ⟨rfl, rfl⟩ := hpair
      exact .inr ⟨members, hmembers, rfl⟩
  · rintro (⟨hclose, rfl⟩ | ⟨members, hmembers, rfl⟩)
    · rw [readValue, hclose]
      rfl
    · rw [readValue]
      split
      · next heq =>
        rw [heq] at hmembers
        exact absurd hmembers (readMembers_close _ _ _)
      · rw [hmembers]
        rfl

theorem readValue_scalar_eq_ok_iff
    (hcs : ∀ c ∈ cs.head?, c ≠ '\x22' ∧ c ≠ '[' ∧ c ≠ '\x7b') :
    readValue (fuel + 1) cs = .ok (j, rest) ↔
      ∃ s, j = .scalar s ∧ (readWord cs = some (s, rest) ∨
        readWord cs = none ∧ readNumber cs = some (s, rest)) := by
  have hhead : ∀ c tail, cs = c :: tail → c ≠ '\x22' ∧ c ≠ '[' ∧ c ≠ '\x7b' := by
    rintro c tail rfl
    exact hcs c rfl
  rw [readValue.eq_5 cs fuel (fun _ heq => (hhead _ _ heq).1 rfl)
    (fun _ heq => (hhead _ _ heq).2.1 rfl) (fun _ heq => (hhead _ _ heq).2.2 rfl)]
  cases readWord cs with
  | some p =>
    obtain ⟨s, after⟩ := p
    simp [eq_comm]
  | none =>
    cases readNumber cs with
    | some p =>
      obtain ⟨s, after⟩ := p
      simp [eq_comm]
    | none => simp

end

/-! ## Going on -/

theorem skipBlank_ne_nil_of_readItems {fuel : Nat} {p : List Json × List Char}
    (h : readItems fuel (skipBlank cs) = .ok p) : skipBlank cs ≠ [] := by
  intro hnil
  rw [hnil] at h
  cases fuel with
  | zero => contradiction
  | succ fuel => cases fuel <;> contradiction

theorem skipBlank_ne_nil_of_readMembers {fuel : Nat} {p : List (String × Json) × List Char}
    (h : readMembers fuel (skipBlank cs) = .ok p) : skipBlank cs ≠ [] := by
  intro hnil
  rw [hnil] at h
  cases fuel <;> contradiction

theorem skipBlank_ne_nil_of_readValue {fuel : Nat} {p : Json × List Char}
    (h : readValue fuel (skipBlank cs) = .ok p) : skipBlank cs ≠ [] := by
  intro hnil
  rw [hnil] at h
  cases fuel <;> contradiction

/-- What this much fuel reads, any more fuel reads as well, from any longer text. A value by itself
has to be followed by what cannot go on with a number. -/
structure Continues (fuel : Nat) : Prop where
  value : ∀ {cs rest : List Char} {j : Json} {big : Nat} (more : List Char),
    readValue fuel cs = .ok (j, rest) → rest ≠ [] → EndsNumber rest → fuel ≤ big →
      readValue big (cs ++ more) = .ok (j, rest ++ more)
  items : ∀ {cs rest : List Char} {js : List Json} {big : Nat} (more : List Char),
    readItems fuel cs = .ok (js, rest) → fuel ≤ big →
      readItems big (cs ++ more) = .ok (js, rest ++ more)
  members : ∀ {cs rest : List Char} {ms : List (String × Json)} {big : Nat} (more : List Char),
    readMembers fuel cs = .ok (ms, rest) → fuel ≤ big →
      readMembers big (cs ++ more) = .ok (ms, rest ++ more)

namespace Continues

variable {fuel big : Nat} {j : Json}

theorem brace (h : Continues fuel) (more : List Char)
    (hread : readValue (fuel + 1) ('\x7b' :: cs) = .ok (j, rest)) (hbig : fuel ≤ big) :
    readValue (big + 1) ('\x7b' :: cs ++ more) = .ok (j, rest ++ more) := by
  rw [List.cons_append, readValue_brace_eq_ok_iff]
  obtain ⟨hclose, rfl⟩ | ⟨members, hmembers, rfl⟩ := readValue_brace_eq_ok_iff.1 hread
  · exact .inl ⟨skipBlank_append_of_eq_cons hclose more, rfl⟩
  · refine .inr ⟨members, ?_, rfl⟩
    rw [skipBlank_append_of_ne_nil (skipBlank_ne_nil_of_readMembers hmembers)]
    exact h.members more hmembers hbig

theorem succ_value (h : Continues fuel) (more : List Char)
    (hread : readValue (fuel + 1) cs = .ok (j, rest)) (hne : rest ≠ []) (hends : EndsNumber rest)
    (hbig : fuel ≤ big) : readValue (big + 1) (cs ++ more) = .ok (j, rest ++ more) := by
  by_cases hcs : ∀ c ∈ cs.head?, c ≠ '\x22' ∧ c ≠ '[' ∧ c ≠ '\x7b'
  · obtain ⟨s, rfl, hscalar⟩ := (readValue_scalar_eq_ok_iff hcs).1 hread
    have hmore : ∀ c ∈ (cs ++ more).head?, c ≠ '\x22' ∧ c ≠ '[' ∧ c ≠ '\x7b' := by
      cases cs with
      | nil => cases hread
      | cons c cs => exact hcs
    rw [readValue_scalar_eq_ok_iff hmore]
    obtain hword | ⟨-, hnumber⟩ := hscalar
    · exact ⟨s, rfl, .inl (readWord_append hword more)⟩
    · exact ⟨s, rfl, .inr ⟨readWord_eq_none_of_readNumber hnumber more,
        readNumber_append hnumber hne hends more⟩⟩
  · cases cs with
    | nil => simp at hcs
    | cons c cs =>
      by_cases hquote : c = '\x22'
      · subst hquote
        obtain ⟨s, hs, rfl⟩ := readValue_quote_eq_ok_iff.1 hread
        exact readValue_quote_eq_ok_iff.2 ⟨s, readText_append hs more, rfl⟩
      · by_cases hbracket : c = '['
        · subst hbracket
          rw [List.cons_append, readValue_bracket_eq_ok_iff]
          obtain ⟨hclose, rfl⟩ | ⟨items, hitems, rfl⟩ := readValue_bracket_eq_ok_iff.1 hread
          · exact .inl ⟨skipBlank_append_of_eq_cons hclose more, rfl⟩
          · refine .inr ⟨items, ?_, rfl⟩
            rw [skipBlank_append_of_ne_nil (skipBlank_ne_nil_of_readItems hitems)]
            exact h.items more hitems hbig
        · obtain rfl : c = '\x7b' := by simpa [hquote, hbracket] using hcs
          exact h.brace more hread hbig

end Continues

theorem continues (fuel : Nat) : Continues fuel := by
  induction fuel with
  | zero => constructor <;> intros <;> contradiction
  | succ fuel ih =>
    refine ⟨?_, ?_, ?_⟩
    · intro cs rest j big more hread hne hends hbig
      obtain ⟨big, rfl⟩ := Nat.exists_eq_add_one_of_ne_zero (by omega : big ≠ 0)
      exact ih.succ_value more hread hne hends (by omega)
    · intro cs rest js big more hread hbig
      obtain ⟨big, rfl⟩ := Nat.exists_eq_add_one_of_ne_zero (by omega : big ≠ 0)
      obtain ⟨item, mid, hitem, hlast⟩ := readItems_succ_eq_ok_iff.1 hread
      rw [readItems_succ_eq_ok_iff]
      obtain ⟨hmid, rfl⟩ | ⟨next, items, hmid, hitems, rfl⟩ := hlast
      · obtain ⟨hne, hends⟩ := endsNumber_of_skipBlank hmid (by decide)
        exact ⟨item, _, ih.value more hitem hne hends (by omega),
          .inl ⟨skipBlank_append_of_eq_cons hmid more, rfl⟩⟩
      · obtain ⟨hne, hends⟩ := endsNumber_of_skipBlank hmid (by decide)
        refine ⟨item, _, ih.value more hitem hne hends (by omega),
          .inr ⟨_, items, skipBlank_append_of_eq_cons hmid more, ?_, rfl⟩⟩
        rw [skipBlank_append_of_ne_nil (skipBlank_ne_nil_of_readItems hitems)]
        exact ih.items more hitems (by omega)
    · intro cs rest ms big more hread hbig
      obtain ⟨big, rfl⟩ := Nat.exists_eq_add_one_of_ne_zero (by omega : big ≠ 0)
      obtain ⟨tail, key, after, next, value, mid, rfl, hkey, hnext, hvalue, hlast⟩ :=
        readMembers_succ_eq_ok_iff.1 hread
      rw [readMembers_succ_eq_ok_iff]
      have hvalueMore : ∀ {c : Char} {tail : List Char}, skipBlank mid = c :: tail →
          (c.isDigit = false ∧ c ≠ '.' ∧ c ≠ 'e' ∧ c ≠ 'E') →
          readValue big (skipBlank (next ++ more)) = .ok (value, mid ++ more) := by
        intro c tail hmid hc
        obtain ⟨hne, hends⟩ := endsNumber_of_skipBlank hmid hc
        rw [skipBlank_append_of_ne_nil (skipBlank_ne_nil_of_readValue hvalue)]
        exact ih.value more hvalue hne hends (by omega)
      refine ⟨tail ++ more, key, after ++ more, next ++ more, value, mid ++ more, rfl,
        readText_append hkey more, skipBlank_append_of_eq_cons hnext more, ?_⟩
      obtain ⟨hmid, rfl⟩ | ⟨following, members, hmid, hmembers, rfl⟩ := hlast
      · exact ⟨hvalueMore hmid (by decide), .inl ⟨skipBlank_append_of_eq_cons hmid more, rfl⟩⟩
      · refine ⟨hvalueMore hmid (by decide),
          .inr ⟨_, members, skipBlank_append_of_eq_cons hmid more, ?_, rfl⟩⟩
        rw [skipBlank_append_of_ne_nil (skipBlank_ne_nil_of_readMembers hmembers)]
        exact ih.members more hmembers (by omega)

/-- An object is read in the same way whatever comes after it. -/
theorem readValue_brace_append {fuel big : Nat} {j : Json} (more : List Char)
    (hread : readValue fuel ('\x7b' :: cs) = .ok (j, rest)) (hbig : fuel ≤ big) :
    readValue big ('\x7b' :: cs ++ more) = .ok (j, rest ++ more) := by
  cases fuel with
  | zero => contradiction
  | succ fuel =>
    obtain ⟨big, rfl⟩ := Nat.exists_eq_add_one_of_ne_zero (by omega : big ≠ 0)
    exact (continues fuel).brace more hread (by omega)

end AstSchema.Json
