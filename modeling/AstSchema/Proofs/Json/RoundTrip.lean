import AstSchema.Proofs.Entries
import AstSchema.Proofs.Json.Scalar

/-! Documents are read back from their text, in every layout of blanks. -/
namespace AstSchema

namespace Json

/-- Every scalar in the document is of that sort, and no object has a key twice: reading never gives
an object that has. -/
inductive All (p : Scalar → Prop) : Json → Prop
  | scalar {s : Scalar} (hs : p s) : All p (.scalar s)
  | array {items : List Json} (hitems : ∀ j ∈ items, All p j) : All p (.array items)
  | object {members : List (String × Json)} (hkeys : (members.map (·.1)).Nodup)
      (hmembers : ∀ m ∈ members, All p m.2) : All p (.object members)

abbrev FloatFree (j : Json) : Prop := j.All fun s => ∀ x, s ≠ .float x

theorem ofPairs_of_nodup {members : List (String × Json)} (h : (members.map (·.1)).Nodup) :
    Entries.ofPairs (· == ·) members = members := by
  apply Entries.ofPairs_of_pairwise
  have hne := List.pairwise_map.1 h
  exact hne.imp fun hab => beq_false_of_ne hab

/-! ## Steps of the reader -/

section

variable {fuel : Nat} {cs mid next rest : List Char} {j : Json} {js : List Json} {k : String}
  {ms : List (String × Json)}

/-- No item starts with a closing bracket. -/
theorem readItems_close (fuel : Nat) (cs : List Char) (p : List Json × List Char) :
    readItems fuel (']' :: cs) ≠ .ok p := by
  match fuel with
  | 0 => simp [readItems]
  | 1 => simp [readItems, readValue, bind, Except.bind]
  | fuel + 2 =>
    simp [readItems, readValue, readWord, readNumber, readWhole, spanDigits, bind, Except.bind]

theorem readMembers_close (fuel : Nat) (cs : List Char) (p : List (String × Json) × List Char) :
    readMembers fuel ('\x7d' :: cs) ≠ .ok p := by
  cases fuel <;> simp [readMembers]

theorem readValue_array (h : readItems fuel (skipBlank cs) = .ok (js, rest)) :
    readValue (fuel + 1) ('[' :: cs) = .ok (.array js, rest) := by
  rw [readValue]
  split
  · next heq =>
    rw [heq] at h
    exact absurd h (readItems_close _ _ _)
  · rw [h]
    rfl

theorem readValue_object (h : readMembers fuel (skipBlank cs) = .ok (ms, rest))
    (hkeys : (ms.map (·.1)).Nodup) :
    readValue (fuel + 1) ('\x7b' :: cs) = .ok (.object ms, rest) := by
  rw [readValue]
  split
  · next heq =>
    rw [heq] at h
    exact absurd h (readMembers_close _ _ _)
  · rw [h]
    change Except.ok (Json.object (Entries.ofPairs (· == ·) ms), rest) = _
    rw [ofPairs_of_nodup hkeys]

theorem readItems_last (hitem : readValue fuel cs = .ok (j, mid))
    (hmid : skipBlank mid = ']' :: rest) :
    readItems (fuel + 1) cs = .ok ([j], rest) := by
  rw [readItems, hitem]
  simp only [bind, Except.bind]
  rw [hmid]
  rfl

theorem readItems_more (hitem : readValue fuel cs = .ok (j, mid))
    (hmid : skipBlank mid = ',' :: next)
    (h : readItems fuel (skipBlank next) = .ok (js, rest)) :
    readItems (fuel + 1) cs = .ok (j :: js, rest) := by
  rw [readItems, hitem]
  simp only [bind, Except.bind]
  rw [hmid]
  simp only [h]
  rfl

theorem readMembers_key (fuel : Nat) (k : String) (cs : List Char) :
    readMembers (fuel + 1) (writeText k ++ ':' :: cs) = (do
      let (value, rest) ← readValue fuel (skipBlank cs)
      match skipBlank rest with
      | '\x7d' :: rest => return ([(k, value)], rest)
      | ',' :: rest =>
        let (members, rest) ← readMembers fuel (skipBlank rest)
        return ((k, value) :: members, rest)
      | rest => .error ⟨.comma, rest⟩) := by
  have hkey := readText_writeText k (':' :: cs)
  unfold writeText at hkey ⊢
  rw [List.cons_append, List.cons_append] at hkey ⊢
  rw [readMembers, hkey]
  rfl

theorem readMembers_last (k : String) (hvalue : readValue fuel (skipBlank cs) = .ok (j, mid))
    (hmid : skipBlank mid = '\x7d' :: rest) :
    readMembers (fuel + 1) (writeText k ++ ':' :: cs) = .ok ([(k, j)], rest) := by
  rw [readMembers_key, hvalue]
  simp only [bind, Except.bind]
  rw [hmid]
  rfl

theorem readMembers_more (k : String) (hvalue : readValue fuel (skipBlank cs) = .ok (j, mid))
    (hmid : skipBlank mid = ',' :: next)
    (h : readMembers fuel (skipBlank next) = .ok (ms, rest)) :
    readMembers (fuel + 1) (writeText k ++ ':' :: cs) = .ok ((k, j) :: ms, rest) := by
  rw [readMembers_key, hvalue]
  simp only [bind, Except.bind]
  rw [hmid]
  simp only [h]
  rfl

end

/-! ## Blanks of the writer -/

theorem skipBlank_append {gap : List Char} (h : ∀ c ∈ gap, isBlank c) (cs : List Char) :
    skipBlank (gap ++ cs) = skipBlank cs :=
  List.dropWhile_append_of_pos h

theorem skipBlank_cons {c : Char} (h : isBlank c = false) (cs : List Char) :
    skipBlank (c :: cs) = c :: cs := by
  rw [skipBlank, List.dropWhile_cons_of_neg (by simp [h])]

theorem skipBlank_writeText (k : String) (cs : List Char) :
    skipBlank (writeText k ++ cs) = writeText k ++ cs := rfl

theorem skipBlank_space (cs : List Char) : skipBlank (' ' :: cs) = skipBlank cs := rfl

namespace Layout

/-- Lines are set off by blanks. -/
def IsBlank : Layout → Prop
  | .compact => True
  | .indented unit => ∀ c ∈ unit, isBlank c

theorem isBlank_ofWidth (n : Int) : (ofWidth n).IsBlank := by
  intro c hc
  rw [List.eq_of_mem_replicate hc]
  rfl

def ofIndent : Option Int → Layout
  | none => .compact
  | some n => .ofWidth n

theorem isBlank_ofIndent (indent : Option Int) : (ofIndent indent).IsBlank := by
  cases indent with
  | none => trivial
  | some n => exact isBlank_ofWidth n

variable {layout : Layout} (h : layout.IsBlank) (depth : Nat)
include h

theorem isBlank_newline : ∀ c ∈ layout.newline depth, isBlank c := by
  cases layout with
  | compact => simp [newline]
  | indented unit =>
    intro c hc
    obtain rfl | hc := List.mem_cons.1 hc
    · rfl
    · obtain ⟨l, hl, hc⟩ := List.mem_flatten.1 hc
      rw [List.eq_of_mem_replicate hl] at hc
      exact h c hc

/-- A comma and the line break after it are a comma and blanks. -/
theorem comma_append_newline :
    ∃ gap, layout.comma ++ layout.newline depth = ',' :: gap ∧ ∀ c ∈ gap, isBlank c := by
  cases layout with
  | compact =>
    refine ⟨[' '], rfl, fun c hc => ?_⟩
    rw [List.mem_singleton.1 hc]
    rfl
  | indented unit => exact ⟨newline (.indented unit) depth, rfl, isBlank_newline h depth⟩

end Layout

theorem isBlank_of_isDigit {c : Char} (hc : c.isDigit) : isBlank c = false := by
  cases hblank : isBlank c with
  | false => rfl
  | true =>
    simp only [isBlank, Bool.or_eq_true, beq_iff_eq, or_assoc] at hblank
    obtain rfl | rfl | rfl | rfl := hblank <;> contradiction

/-- No document starts with a blank or a mark of the byte order. -/
theorem write_eq_cons (layout : Layout) (depth : Nat) {j : Json} (hj : j.FloatFree) :
    ∃ c cs, write layout depth j = c :: cs ∧ isBlank c = false ∧ c ≠ '\ufeff' := by
  cases hj with
  | @scalar s hs =>
    cases s with
    | null => exact ⟨'n', _, rfl, rfl, by decide⟩
    | bool b =>
      cases b
      · exact ⟨'f', _, rfl, rfl, by decide⟩
      · exact ⟨'t', _, rfl, rfl, by decide⟩
    | int n =>
      obtain ⟨c, cs, hcs, hc⟩ := toDigits_eq_cons n.natAbs
      simp only [write, writeScalar, Scalar.writeInt, hcs]
      split
      · exact ⟨'-', c :: cs, rfl, rfl, by decide⟩
      · refine ⟨c, cs, rfl, isBlank_of_isDigit hc, ?_⟩
        rintro rfl
        contradiction
    | float x => exact absurd rfl (hs x)
    | text s => exact ⟨'\x22', _, rfl, rfl, by decide⟩
  | @array items _ =>
    cases items with
    | nil => exact ⟨'[', _, rfl, rfl, by decide⟩
    | cons i is => exact ⟨'[', _, rfl, rfl, by decide⟩
  | @object members _ _ =>
    cases members with
    | nil => exact ⟨'\x7b', _, rfl, rfl, by decide⟩
    | cons m ms => exact ⟨'\x7b', _, rfl, rfl, by decide⟩

section

variable {layout : Layout}

theorem skipBlank_write {j : Json} (hj : j.FloatFree) (depth : Nat) (rest : List Char) :
    skipBlank (write layout depth j ++ rest) = write layout depth j ++ rest := by
  obtain ⟨c, cs, hcs, hc, -⟩ := write_eq_cons layout depth hj
  rw [hcs, List.cons_append, skipBlank_cons hc]

variable (hl : layout.IsBlank)
include hl

theorem skipBlank_newline (depth : Nat) (cs : List Char) :
    skipBlank (layout.newline depth ++ cs) = skipBlank cs :=
  skipBlank_append (Layout.isBlank_newline hl depth) cs

theorem endsNumber_newline (depth : Nat) {c : Char}
    (hc : c.isDigit = false ∧ c ≠ '.' ∧ c ≠ 'e' ∧ c ≠ 'E') (rest : List Char) :
    EndsNumber (layout.newline depth ++ c :: rest) := by
  cases layout with
  | compact => exact endsNumber_cons hc rest
  | indented unit => exact endsNumber_cons (by decide) _

/-! ## Reading what was written -/

omit hl in
/-- Reading gives the document back from its text, and what comes after the text. -/
def ReadsBack (layout : Layout) (j : Json) : Prop :=
  ∀ depth fuel rest, EndsNumber rest → 2 * (write layout depth j).length ≤ fuel →
    readValue fuel (write layout depth j ++ rest) = .ok (j, rest)

theorem readItems_write {j : Json} {js : List Json} (hj : ReadsBack layout j)
    (hjs : ∀ i ∈ js, ReadsBack layout i ∧ i.FloatFree) (depth outer fuel : Nat) (rest : List Char)
    (hfuel : 2 * (write layout depth j ++ writeItems layout depth layout.comma js).length < fuel) :
    readItems fuel (write layout depth j ++ (writeItems layout depth layout.comma js ++
      (layout.newline outer ++ ']' :: rest))) = .ok (j :: js, rest) := by
  obtain ⟨fuel, rfl⟩ := Nat.exists_eq_add_one_of_ne_zero (Nat.ne_zero_of_lt hfuel)
  induction js generalizing j fuel with
  | nil =>
    simp only [writeItems, List.append_nil, List.nil_append] at hfuel ⊢
    have hitem := hj depth fuel (layout.newline outer ++ ']' :: rest)
      (endsNumber_newline hl outer (by decide) rest) (by omega)
    apply readItems_last hitem
    rw [skipBlank_newline hl, skipBlank_cons rfl]
  | cons i is ih =>
    obtain ⟨gap, hgap, hblank⟩ := Layout.comma_append_newline hl depth
    obtain ⟨hi, hfree⟩ := hjs i List.mem_cons_self
    have htext : writeItems layout depth layout.comma (i :: is) = ',' :: (gap ++
        (write layout depth i ++ writeItems layout depth layout.comma is)) := by
      rw [writeItems, hgap]
      simp
    rw [htext] at hfuel ⊢
    simp only [List.length_append, List.length_cons] at hfuel
    have hcomma : ∀ cs, EndsNumber (',' :: cs) := endsNumber_cons (by decide)
    have hitem := hj depth fuel _ (hcomma (gap ++ (write layout depth i ++
      writeItems layout depth layout.comma is) ++ (layout.newline outer ++ ']' :: rest)))
      (by omega)
    obtain ⟨fuel, rfl⟩ := Nat.exists_eq_add_one_of_ne_zero (by omega : fuel ≠ 0)
    apply readItems_more hitem (skipBlank_cons rfl _)
    rw [List.append_assoc, List.append_assoc, skipBlank_append hblank, skipBlank_write hfree]
    apply ih hi (fun i hi => hjs i (List.mem_cons_of_mem _ hi))
    simp only [List.length_append]
    omega

theorem readMembers_write {k : String} {j : Json} {ms : List (String × Json)}
    (hj : ReadsBack layout j) (hfree : j.FloatFree)
    (hms : ∀ m ∈ ms, ReadsBack layout m.2 ∧ m.2.FloatFree) (depth outer fuel : Nat)
    (rest : List Char)
    (hfuel : 2 * (writeText k ++ ':' :: ' ' :: (write layout depth j ++
      writeMembers layout depth layout.comma ms)).length < fuel) :
    readMembers fuel (writeText k ++ ':' :: ' ' :: (write layout depth j ++
      (writeMembers layout depth layout.comma ms ++ (layout.newline outer ++ '\x7d' :: rest)))) =
      .ok ((k, j) :: ms, rest) := by
  obtain ⟨fuel, rfl⟩ := Nat.exists_eq_add_one_of_ne_zero (Nat.ne_zero_of_lt hfuel)
  induction ms generalizing k j fuel with
  | nil =>
    simp only [writeMembers, List.append_nil, List.nil_append, List.length_append,
      List.length_cons] at hfuel ⊢
    have hvalue := hj depth fuel (layout.newline outer ++ '\x7d' :: rest)
      (endsNumber_newline hl outer (by decide) rest) (by omega)
    rw [← skipBlank_write hfree, ← skipBlank_space] at hvalue
    apply readMembers_last k hvalue
    rw [skipBlank_newline hl, skipBlank_cons rfl]
  | cons m ms ih =>
    obtain ⟨key, value⟩ := m
    obtain ⟨gap, hgap, hblank⟩ := Layout.comma_append_newline hl depth
    obtain ⟨hread, hfree'⟩ := hms (key, value) List.mem_cons_self
    have htext : writeMembers layout depth layout.comma ((key, value) :: ms) = ',' :: (gap ++
        (writeText key ++ ':' :: ' ' :: (write layout depth value ++
          writeMembers layout depth layout.comma ms))) := by
      rw [writeMembers, hgap]
      simp
    rw [htext] at hfuel ⊢
    simp only [List.length_append, List.length_cons] at hfuel
    have hcomma : ∀ cs, EndsNumber (',' :: cs) := endsNumber_cons (by decide)
    have hvalue := hj depth fuel _ (hcomma (gap ++ (writeText key ++ ':' :: ' ' ::
      (write layout depth value ++ writeMembers layout depth layout.comma ms)) ++
      (layout.newline outer ++ '\x7d' :: rest))) (by omega)
    rw [← skipBlank_write hfree, ← skipBlank_space] at hvalue
    obtain ⟨fuel, rfl⟩ := Nat.exists_eq_add_one_of_ne_zero (by omega : fuel ≠ 0)
    apply readMembers_more k hvalue (skipBlank_cons rfl _)
    rw [List.append_assoc, skipBlank_append hblank, List.append_assoc,
      skipBlank_writeText]
    simp only [List.cons_append, List.append_assoc]
    apply ih hread hfree' (fun m hm => hms m (List.mem_cons_of_mem _ hm))
    simp only [List.length_append, List.length_cons]
    omega

/-- Every document without floating-point numbers reads back. The induction is on the document; with
twice the length of the text for fuel, each item and member keeps enough for the next. -/
theorem readsBack {j : Json} (hj : j.FloatFree) : ReadsBack layout j := by
  induction hj with
  | @scalar s hs =>
    intro depth fuel rest hrest hfuel
    obtain ⟨c, cs, hcs, -⟩ := write_eq_cons layout depth (.scalar hs)
    rw [hcs, List.length_cons] at hfuel
    obtain ⟨fuel, rfl⟩ := Nat.exists_eq_add_one_of_ne_zero (by omega : fuel ≠ 0)
    exact readValue_writeScalar fuel hs hrest
  | @array items hitems ih =>
    intro depth fuel rest hrest hfuel
    cases items with
    | nil =>
      simp only [write, List.length_cons] at hfuel
      obtain ⟨fuel, rfl⟩ := Nat.exists_eq_add_one_of_ne_zero (by omega : fuel ≠ 0)
      rfl
    | cons i is =>
      obtain ⟨hi, his⟩ := List.forall_mem_cons.1 ih
      obtain ⟨hfree, hfrees⟩ := List.forall_mem_cons.1 hitems
      simp only [write, writeItems, List.nil_append, List.length_cons, List.length_append] at hfuel
      obtain ⟨fuel, rfl⟩ := Nat.exists_eq_add_one_of_ne_zero (by omega : fuel ≠ 0)
      have hread := readItems_write hl hi (fun i hi => ⟨his i hi, hfrees i hi⟩) (depth + 1) depth
        fuel rest (by simp only [List.length_append]; omega)
      rw [← skipBlank_write hfree, ← skipBlank_newline hl (depth + 1)] at hread
      simpa [write, writeItems] using readValue_array hread
  | @object members hkeys hmembers ih =>
    intro depth fuel rest hrest hfuel
    cases members with
    | nil =>
      simp only [write, List.length_cons] at hfuel
      obtain ⟨fuel, rfl⟩ := Nat.exists_eq_add_one_of_ne_zero (by omega : fuel ≠ 0)
      rfl
    | cons m ms =>
      obtain ⟨key, value⟩ := m
      obtain ⟨hm, hms⟩ := List.forall_mem_cons.1 ih
      obtain ⟨hfree, hfrees⟩ := List.forall_mem_cons.1 hmembers
      simp only [write, writeMembers, List.nil_append, List.length_cons,
        List.length_append] at hfuel
      obtain ⟨fuel, rfl⟩ := Nat.exists_eq_add_one_of_ne_zero (by omega : fuel ≠ 0)
      have hread := readMembers_write hl hm hfree (fun m hm => ⟨hms m hm, hfrees m hm⟩) (k := key)
        (depth + 1) depth fuel rest (by simp only [List.length_append, List.length_cons]; omega)
      rw [← skipBlank_writeText, ← skipBlank_newline hl (depth + 1)] at hread
      simpa [write, writeMembers] using readValue_object hread hkeys

theorem read_render {j : Json} (hj : j.FloatFree) : read (render layout j) = .ok j := by
  obtain ⟨c, cs, hcs, -, hmark⟩ := write_eq_cons layout 0 hj
  have hread := readsBack hl hj 0 (2 * (write layout 0 j).length + 2) [] endsNumber_nil (by omega)
  rw [← skipBlank_write hj, List.append_nil] at hread
  have hhead : ((write layout 0 j).head? == some '\ufeff') = false := by simp [hcs, hmark]
  unfold read render
  simp only [String.toList_ofList, hhead, Bool.false_eq_true, ↓reduceIte, hread]
  rfl

end

end Json

end AstSchema
