import AstSchema.Proofs.DefinitionsCodec
import AstSchema.Proofs.TypeGrammar

/-! Written texts are in printable characters of ASCII and line breaks, and no line breaks within a
literal: whatever Unicode scalar values a text holds, they are written in escapes. -/
namespace AstSchema

namespace Json

/-! ## Literals in a text -/

/-- Space, tilde, and the characters between them. -/
def IsPrintable (c : Char) : Prop := 0x20 ≤ c.toNat ∧ c.toNat ≤ 0x7E

instance : DecidablePred IsPrintable := fun c =>
  inferInstanceAs (Decidable (0x20 ≤ c.toNat ∧ c.toNat ≤ 0x7E))

/-- Where a reader of a text stands: between literals, within one, or within one behind the backslash
of an escape. -/
inductive Place where
  | between
  | within
  | escaped
deriving DecidableEq

namespace Place

/-- A quote opens a literal, and closes it unless a backslash stands before it. -/
def next : Place → Char → Place
  | .between, c => if c == '\x22' then .within else .between
  | .within, c => if c == '\x22' then .between else if c == '\\' then .escaped else .within
  | .escaped, _ => .within

def after (p : Place) (cs : List Char) : Place := cs.foldl next p

theorem after_append (p : Place) (as bs : List Char) : p.after (as ++ bs) = (p.after as).after bs :=
  List.foldl_append

theorem between_after {cs : List Char} (h : '\x22' ∉ cs) : between.after cs = between := by
  induction cs with
  | nil => rfl
  | cons c cs ih =>
    obtain ⟨hc, hcs⟩ := not_or.1 (mt List.mem_cons.2 h)
    have hnext : between.next c = between := if_neg (by simpa using Ne.symm hc)
    rw [after, List.foldl_cons, hnext]
    exact ih hcs

theorem within_after {cs : List Char} (h : ∀ c ∈ cs, c ≠ '\x22' ∧ c ≠ '\\') :
    within.after cs = within := by
  induction cs with
  | nil => rfl
  | cons c cs ih =>
    obtain ⟨⟨hquote, hslash⟩, hcs⟩ := List.forall_mem_cons.1 h
    have hnext : within.next c = within := by simp [next, hquote, hslash]
    rw [after, List.foldl_cons, hnext]
    exact ih hcs

end Place

/-- A text of which every literal is closed, and that has line breaks only between literals, if its
layout has lines at all. -/
structure Tidy (layout : Layout) (cs : List Char) : Prop where
  printable : ∀ c ∈ cs, IsPrintable c ∨ c = '\n'
  oneLine : layout = .compact → '\n' ∉ cs
  closed : Place.between.after cs = .between
  outside : ∀ before after, cs = before ++ '\n' :: after → Place.between.after before = .between

namespace Tidy

variable {layout : Layout} {as bs cs : List Char}

theorem not_mem_of_printable (h : ∀ c ∈ cs, IsPrintable c) : '\n' ∉ cs := fun hmem =>
  absurd (h '\n' hmem) (by decide)

theorem of_printable (h : ∀ c ∈ cs, IsPrintable c) (hclosed : Place.between.after cs = .between) :
    Tidy layout cs where
  printable c hc := .inl (h c hc)
  oneLine _ := not_mem_of_printable h
  closed := hclosed
  outside before after heq := by
    refine absurd ?_ (not_mem_of_printable h)
    rw [heq]
    exact List.mem_append_right before List.mem_cons_self

theorem of_unquoted (h : ∀ c ∈ cs, IsPrintable c ∧ c ≠ '\x22') : Tidy layout cs :=
  of_printable (fun c hc => (h c hc).1) (Place.between_after fun hmem => (h _ hmem).2 rfl)

/-- For marks and names that are given. -/
theorem of_all (h : cs.all fun c => decide (IsPrintable c ∧ c ≠ '\x22')) : Tidy layout cs :=
  of_unquoted fun c hc => of_decide_eq_true (List.all_eq_true.1 h c hc)

theorem append (ha : Tidy layout as) (hb : Tidy layout bs) : Tidy layout (as ++ bs) where
  printable := List.forall_mem_append.2 ⟨ha.printable, hb.printable⟩
  oneLine hl hmem := (List.mem_append.1 hmem).elim (ha.oneLine hl) (hb.oneLine hl)
  closed := by rw [Place.after_append, ha.closed, hb.closed]
  outside before after heq := by
    obtain ⟨rest, rfl, hrest⟩ | ⟨rest, hrest, heq⟩ := List.append_eq_append_iff.1 heq
    · rw [Place.after_append, ha.closed]
      exact hb.outside rest after hrest
    · cases rest with
      | nil =>
        rw [List.append_nil] at hrest
        exact hrest ▸ ha.closed
      | cons c rest =>
        obtain ⟨rfl, -⟩ := List.cons.inj heq
        exact ha.outside before rest hrest

theorem break_line (unit : List Char) : Tidy (.indented unit) ['\n'] where
  printable := by simp
  oneLine hl := nomatch hl
  closed := rfl
  outside before after heq := by
    cases before with
    | nil => rfl
    | cons c before => simp at heq

theorem newline (indent : Option Int) (depth : Nat) :
    Tidy (.ofIndent indent) ((Layout.ofIndent indent).newline depth) := by
  cases indent with
  | none => exact of_unquoted (by simp [Layout.ofIndent, Layout.newline])
  | some n =>
    refine (break_line _).append (of_unquoted fun c hc => ?_)
    obtain ⟨unit, hunit, hc⟩ := List.mem_flatten.1 hc
    rw [List.eq_of_mem_replicate hunit] at hc
    rw [List.eq_of_mem_replicate hc]
    decide

theorem comma (layout : Layout) : Tidy layout layout.comma := by
  cases layout <;> exact of_all rfl

end Tidy

/-! ## Texts -/

theorem digitChar_unquoted : ∀ d < 16, IsPrintable (Nat.digitChar d) ∧ Nat.digitChar d ≠ '\x22' ∧
    Nat.digitChar d ≠ '\\' := by decide

theorem hexDigits_unquoted {width n : Nat} :
    ∀ c ∈ hexDigits width n, IsPrintable c ∧ c ≠ '\x22' ∧ c ≠ '\\' := by
  induction width generalizing n with
  | zero => simp [hexDigits]
  | succ width ih =>
    rw [hexDigits, List.forall_mem_append, List.forall_mem_singleton]
    exact ⟨ih, digitChar_unquoted _ (Nat.mod_lt _ (by decide))⟩

/-- What stands for a character in a literal: it does not close the literal. -/
structure Escape (cs : List Char) : Prop where
  printable : ∀ c ∈ cs, IsPrintable c
  within : Place.within.after cs = .within

theorem Escape.append {as bs : List Char} (ha : Escape as) (hb : Escape bs) :
    Escape (as ++ bs) where
  printable := List.forall_mem_append.2 ⟨ha.printable, hb.printable⟩
  within := by rw [Place.after_append, ha.within, hb.within]

theorem escape_unit (u : Nat) : Escape ('\\' :: 'u' :: hexDigits 4 u) where
  printable := by
    rw [List.forall_mem_cons, List.forall_mem_cons]
    exact ⟨by decide, by decide, fun c hc => (hexDigits_unquoted c hc).1⟩
  within := by
    change Place.within.after (hexDigits 4 u) = .within
    exact Place.within_after fun c hc => (hexDigits_unquoted c hc).2

theorem escape_units (n : Nat) : Escape (escapeUnits n) := by
  unfold escapeUnits
  split
  · exact escape_unit n
  · exact (escape_unit _).append (escape_unit _)

theorem isPrintable_of_shortEscape {c : Char} {u : Nat} (h : shortEscape c = some u) : IsPrintable c := by
  by_contra hc
  have hne : ∀ d, IsPrintable d → c ≠ d := fun d hd heq => hc (heq ▸ hd)
  simp [shortEscape, hne '\x22' (by decide), hne '\\' (by decide), hne '/' (by decide),
    hne 'b' (by decide), hne 'f' (by decide), hne 'n' (by decide), hne 'r' (by decide),
    hne 't' (by decide)] at h

theorem escape_char (c : Char) : Escape (escapeChar c) := by
  obtain ⟨e, he, -, hshort, -⟩ | ⟨he, hlow, hhigh, hquote, hslash⟩ | he := escapeChar_cases c
  · rw [he]
    refine ⟨?_, rfl⟩
    rw [List.forall_mem_cons, List.forall_mem_singleton]
    exact ⟨by decide, isPrintable_of_shortEscape hshort⟩
  · rw [he]
    exact ⟨List.forall_mem_singleton.2 ⟨hlow, hhigh⟩,
      Place.within_after (List.forall_mem_singleton.2 ⟨hquote, hslash⟩)⟩
  · rw [he]
    exact escape_units c.toNat

theorem escape_flatMap (cs : List Char) : Escape (cs.flatMap escapeChar) := by
  induction cs with
  | nil => exact ⟨by simp, rfl⟩
  | cons c cs ih => exact (escape_char c).append ih

/-- A text is one literal. -/
theorem tidy_writeText (layout : Layout) (s : String) : Tidy layout (writeText s) := by
  have hescape := escape_flatMap s.toList
  refine .of_printable ?_ ?_
  · rw [writeText, List.cons_append, List.forall_mem_cons, List.forall_mem_append]
    exact ⟨by decide, hescape.printable, List.forall_mem_singleton.2 (by decide)⟩
  · change Place.within.after (s.toList.flatMap escapeChar ++ ['\x22']) = .between
    rw [Place.after_append, hescape.within]
    rfl

end Json

/-! ## Numbers -/

/-- What a number is written with. -/
def IsNumeral (c : Char) : Prop := c.isDigit ∨ c = '-' ∨ c = '+' ∨ c = '.' ∨ c = 'e'

theorem IsNumeral.unquoted {c : Char} (h : IsNumeral c) : Json.IsPrintable c ∧ c ≠ '\x22' := by
  obtain hdigit | rfl | rfl | rfl | rfl := h
  · obtain ⟨hlow, hhigh⟩ := Char.isDigit_iff_toNat.1 hdigit
    refine ⟨⟨Nat.le_trans (by decide) hlow, Nat.le_trans hhigh (by decide)⟩, ?_⟩
    rintro rfl
    contradiction
  all_goals decide

theorem isNumeral_toDigits (n : Nat) : ∀ c ∈ Nat.toDigits 10 n, IsNumeral c :=
  fun c hc => .inl (Json.isDigit_of_mem_toDigits n c hc)

theorem isNumeral_writeInt (n : Int) : ∀ c ∈ Scalar.writeInt n, IsNumeral c := by
  unfold Scalar.writeInt
  split
  · exact List.forall_mem_cons.2 ⟨.inr (.inl rfl), isNumeral_toDigits _⟩
  · exact isNumeral_toDigits _

theorem Decimal.isDigit_ofScaled (c : Nat) (e : Int) : ∀ d ∈ (ofScaled c e).digits, d.isDigit := by
  intro d hd
  have hmem := (List.dropWhile_sublist _).subset (List.mem_reverse.1 hd)
  exact Json.isDigit_of_mem_toDigits c d (List.mem_reverse.1 hmem)

theorem Decimal.isDigit_shortest (s : Nat) (e : Int) : ∀ d ∈ (shortest s e).digits, d.isDigit := by
  unfold shortest
  dsimp only
  generalize hgrid : List.findSome? _ (List.range 17) = found
  cases found with
  | none => exact List.forall_mem_singleton.2 rfl
  | some decimal =>
    obtain ⟨n, -, hn⟩ := List.exists_of_findSome?_eq_some hgrid
    obtain ⟨c, -, rfl⟩ := Option.map_eq_some_iff.1 hn
    exact isDigit_ofScaled c _

namespace FloatLayout

theorem isNumeral_zeros (n : Nat) : ∀ c ∈ zeros n, IsNumeral c := by
  intro c hc
  rw [List.eq_of_mem_replicate hc]
  exact .inl rfl

variable {d : Decimal} (hd : ∀ c ∈ d.digits, IsNumeral c)
include hd

theorem isNumeral_positional : ∀ c ∈ positional d, IsNumeral c := by
  have hzero : IsNumeral '0' := .inl rfl
  have hpoint : IsNumeral '.' := .inr (.inr (.inr (.inl rfl)))
  unfold positional
  dsimp only
  split
  · simp only [List.cons_append, List.forall_mem_cons, List.forall_mem_append]
    exact ⟨hzero, hpoint, isNumeral_zeros _, hd⟩
  split
  · simp only [List.forall_mem_cons, List.forall_mem_append]
    exact ⟨⟨hd, isNumeral_zeros _⟩, hpoint, hzero, by simp⟩
  · simp only [List.forall_mem_cons, List.forall_mem_append]
    exact ⟨fun c hc => hd c (List.mem_of_mem_take hc), hpoint,
      fun c hc => hd c (List.mem_of_mem_drop hc)⟩

theorem isNumeral_scientific (layout : FloatLayout) : ∀ c ∈ layout.scientific d, IsNumeral c := by
  have hzero : IsNumeral '0' := .inl rfl
  have hpoint : IsNumeral '.' := .inr (.inr (.inr (.inl rfl)))
  have hsign : IsNumeral (if d.exponent < 0 then '-' else '+') := by
    split
    · exact .inr (.inl rfl)
    · exact .inr (.inr (.inl rfl))
  unfold scientific
  simp only [List.forall_mem_cons, List.forall_mem_append]
  refine ⟨⟨?_, .inr (.inr (.inr (.inr rfl))), hsign, isNumeral_zeros _⟩, isNumeral_toDigits _⟩
  split
  · simpa using hzero
  · next heq => simpa [heq] using hd
  · next heq =>
    rw [heq, List.forall_mem_cons] at hd
    simpa only [List.forall_mem_cons] using ⟨hd.1, hpoint, hd.2⟩

theorem isNumeral_decimal (layout : FloatLayout) : ∀ c ∈ layout.decimal d, IsNumeral c := by
  unfold decimal
  split
  · exact isNumeral_positional hd
  · exact isNumeral_scientific hd layout

end FloatLayout

namespace Json

theorem tidy_float (layout : Layout) (x : Binary64) : Tidy layout (floatLayout.write x) := by
  have hsign : ∀ negative, Tidy layout (FloatLayout.write.sign negative) := by
    rintro ⟨⟩ <;> exact .of_all rfl
  cases x with
  | nan => exact .of_all rfl
  | infinite negative => exact (hsign negative).append (.of_all rfl)
  | finite negative s e =>
    refine (hsign negative).append (.of_unquoted fun c hc => IsNumeral.unquoted ?_)
    refine FloatLayout.isNumeral_decimal ?_ floatLayout c hc
    split
    · exact List.forall_mem_singleton.2 (.inl rfl)
    · exact fun c hc => .inl (Decimal.isDigit_shortest s e c hc)

theorem tidy_writeScalar (layout : Layout) (s : Scalar) : Tidy layout (writeScalar s) := by
  cases s with
  | null => exact .of_all rfl
  | bool b => cases b <;> exact .of_all rfl
  | int n => exact .of_unquoted fun c hc => (isNumeral_writeInt n c hc).unquoted
  | float x => exact tidy_float layout x
  | text s => exact tidy_writeText layout s

/-! ## Documents -/

section

variable {layout : Layout} (hl : ∀ depth, Tidy layout (layout.newline depth))
include hl

theorem tidy_writeItems {js : List Json} (h : ∀ j ∈ js, ∀ depth, Tidy layout (write layout depth j))
    (depth : Nat) {lead : List Char} (hlead : Tidy layout lead) :
    Tidy layout (writeItems layout depth lead js) := by
  induction js generalizing lead with
  | nil => exact .of_unquoted (by simp [writeItems])
  | cons j js ih =>
    obtain ⟨hj, hjs⟩ := List.forall_mem_cons.1 h
    rw [writeItems]
    exact ((hlead.append (hl depth)).append (hj depth)).append (ih hjs (.comma layout))

theorem tidy_writeMembers {ms : List (String × Json)}
    (h : ∀ m ∈ ms, ∀ depth, Tidy layout (write layout depth m.2)) (depth : Nat) {lead : List Char}
    (hlead : Tidy layout lead) : Tidy layout (writeMembers layout depth lead ms) := by
  induction ms generalizing lead with
  | nil => exact .of_unquoted (by simp [writeMembers])
  | cons m ms ih =>
    obtain ⟨hm, hms⟩ := List.forall_mem_cons.1 h
    have hcolon : Tidy layout [':', ' '] := .of_all rfl
    rw [writeMembers]
    exact ((((hlead.append (hl depth)).append (tidy_writeText layout m.1)).append hcolon).append
      (hm depth)).append (ih hms (.comma layout))

/-- A row of items or members between its brackets. -/
theorem tidy_bracketed {opening closing : Char} {row : List Char} (depth : Nat)
    (hopening : Tidy layout [opening]) (hrow : Tidy layout row) (hclosing : Tidy layout [closing]) :
    Tidy layout (opening :: row ++ layout.newline depth ++ [closing]) :=
  ((hopening.append hrow).append (hl depth)).append hclosing

theorem tidy_write (j : Json) (depth : Nat) : Tidy layout (write layout depth j) := by
  have hnothing : Tidy layout [] := .of_all rfl
  induction j using Json.induct generalizing depth with
  | scalar s => exact tidy_writeScalar layout s
  | array items ih =>
    cases items with
    | nil => exact .of_all rfl
    | cons j js =>
      rw [write]
      exact tidy_bracketed hl depth (.of_all rfl)
        (tidy_writeItems hl ih (depth + 1) hnothing) (.of_all rfl)
  | object members ih =>
    cases members with
    | nil => exact .of_all rfl
    | cons m ms =>
      rw [write]
      exact tidy_bracketed hl depth (.of_all rfl)
        (tidy_writeMembers hl ih (depth + 1) hnothing) (.of_all rfl)

end

theorem tidy_render (indent : Option Int) (j : Json) :
    Tidy (.ofIndent indent) (render (.ofIndent indent) j).toList := by
  rw [render, String.toList_ofList]
  exact tidy_write (Tidy.newline indent) j 0

end Json

theorem tidy_of_rendered {document : Except Error Value} {indent : Option Int} {text : String}
    (h : (do return Json.render (.ofIndent indent) (← (← document).toJson)) = Except.ok text) :
    Json.Tidy (.ofIndent indent) text.toList := by
  obtain ⟨value, -, h⟩ := bind_eq_ok_iff.1 h
  obtain ⟨j, -, h⟩ := bind_eq_ok_iff.1 h
  exact Except.ok.inj h ▸ Json.tidy_render indent j

/-- A value that encodes to a document has a text in every indentation, and so do definitions. Every
text that there is, is in printable ASCII and line breaks, closes its literals and has no line break
within one; without an indentation it is one line. -/
theorem tidy_encodeText_toText (indent : Option Int) :
    (∀ (v : Value) (j : Json), v.encode = .ok (.ofJson j) →
      ∃ text, v.encodeText (.ofIndent indent) = .ok text) ∧
    (∀ (v : Value) (text : String), v.encodeText (.ofIndent indent) = .ok text →
      Json.Tidy (.ofIndent indent) text.toList) ∧
    (∀ (d : Definitions) (j : Json), d.toDocument = .ok (.ofJson j) →
      ∃ text, d.toText (.ofIndent indent) = .ok text) ∧
    ∀ (d : Definitions) (text : String), d.toText (.ofIndent indent) = .ok text →
      Json.Tidy (.ofIndent indent) text.toList := by
  refine ⟨fun v j h => ⟨_, Value.encodeText_of_encode h _⟩, fun v text h => tidy_of_rendered h,
    fun d j h => ⟨Json.render (.ofIndent indent) j, ?_⟩, fun d text h => tidy_of_rendered h⟩
  rw [Definitions.toText, h]
  change (Value.ofJson j).toJson >>= _ = _
  rw [Value.toJson_ofJson]
  rfl

/-- A line break, a quote, and characters past ASCII and past the first plane. -/
def unevenValue : Value :=
  .list [.text "\n\"\x7f", .object .item [.text "😀"], .mapping [(.text "\\", .tuple [])]]

def unevenDocument : Json :=
  .array [.text "\n\"\x7f", .object [("item", .text "😀")], .object [("\\", .array [])]]

def unevenText : String :=
  "[\n \"\\n\\\"\\u007f\",\n \x7b\n  \"item\": \"\\ud83d\\ude00\"\n \x7d,\n" ++
    " \x7b\n  \"\\\\\": []\n \x7d\n]"

def unevenDefinitions : DefinitionsTree := ⟨[], [("é", "\n"), ("\"", "\x7f")], by simp⟩

theorem tidy_unevenText :
    unevenValue.encode = .ok (.ofJson unevenDocument) ∧
    unevenValue.encodeText (.ofIndent (some 1)) = .ok unevenText ∧
    Json.Tidy (.ofIndent (some 1)) unevenText.toList ∧
    ∃ text, unevenDefinitions.toDefinitions.toText (.ofIndent (some 1)) = .ok text ∧
      Json.Tidy (.ofIndent (some 1)) text.toList := by
  have hencode : unevenValue.encode = .ok (.ofJson unevenDocument) := rfl
  obtain ⟨written, tidy, told, tidyTold⟩ := tidy_encodeText_toText (some 1)
  obtain ⟨text, htext⟩ := written _ _ hencode
  obtain rfl : text = unevenText := Except.ok.inj (htext.symm.trans rfl)
  obtain ⟨table, htable⟩ := told _ _ unevenDefinitions.toDocument_toDefinitions
  exact ⟨hencode, htext, tidy _ _ htext, table, htable, tidyTold _ _ htable⟩

end AstSchema
