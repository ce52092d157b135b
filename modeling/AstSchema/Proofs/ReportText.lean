import AstSchema.Proofs.RawNode

/-! The text of a report. There is one unless a problem about an item has to show declared idents of
which one is no text. -/
namespace AstSchema

namespace Problem

theorem exists_joinTexts_iff (separator : String) (texts : List Value) :
    (∃ s, joinTexts separator texts = .ok s) ↔ ∀ t ∈ texts, t.isText := by
  unfold joinTexts
  rw [exists_bind_ok_iff, exists_mapM_iff]
  refine forall₂_congr fun t _ => ?_
  cases t with
  | scalar s => cases s <;> simp [Value.isText]
  | _ => simp [Value.isText]

theorem exists_availableText_iff (idents : List Value) :
    (∃ s, availableText (.tuple idents) = .ok s) ↔ ∀ i ∈ idents.take shownLimit, i.isText := by
  rw [← exists_joinTexts_iff ", "]
  exact exists_bind_ok_iff

theorem exists_text_duplicate (location ident : Value) (count : Nat) :
    ∃ s, text (duplicate location ident count) = .ok s := ⟨_, rfl⟩

theorem exists_text_unresolved_iff (location : String) (name : Value) (available : List Value) :
    (∃ s, text (unresolved location name available) = .ok s) ↔
      ∀ i ∈ available.take shownLimit, i.isText := by
  rw [← exists_availableText_iff]
  exact exists_bind_ok_iff

end Problem

namespace Report

theorem exists_numbered_iff (problems : List Value) (n : Nat) :
    (∃ texts, numbered.go n problems = .ok texts) ↔
      ∀ p ∈ problems, ∃ s, Problem.text p = .ok s := by
  induction problems generalizing n with
  | nil => exact ⟨fun _ => by simp, fun _ => ⟨[], rfl⟩⟩
  | cons p ps ih =>
    rw [List.forall_mem_cons, ← ih (n + 1)]
    simp only [numbered.go, bind_eq_ok_iff]
    constructor
    · rintro ⟨_, s, hs, rest, hrest, -⟩
      exact ⟨⟨s, hs⟩, rest, hrest⟩
    · rintro ⟨⟨s, hs⟩, rest, hrest⟩
      exact ⟨_, s, hs, rest, hrest, rfl⟩

/-- A report has a text exactly if every problem in it has one. -/
theorem exists_text_iff (problems : List Value) :
    (∃ s, text (ofProblems problems) = .ok s) ↔ ∀ p ∈ problems, ∃ s, Problem.text p = .ok s := by
  cases problems with
  | nil => exact ⟨fun _ => by simp, fun _ => ⟨_, rfl⟩⟩
  | cons p ps =>
    rw [← exists_numbered_iff (p :: ps) 1]
    exact exists_bind_ok_iff

end Report

/-- Repeated idents can always be told. Where an item names nothing that is declared, the first
idents that are declared are told as well. -/
theorem Problem.exists_text_ofRaw_iff (declared : List Value) (n : RawNode) :
    (∀ p ∈ ofRaw declared n, ∃ s, text p = .ok s) ↔
      (∀ name ∈ n.itemNames, ∃ d ∈ declared, d.isFoundBy name) ∨
        ∀ i ∈ declared.take shownLimit, i.isText := by
  constructor
  · intro h
    by_cases hnames : ∀ name ∈ n.itemNames, ∃ d ∈ declared, d.isFoundBy name
    · exact .inl hnames
    · simp only [not_forall, not_exists, not_and, Bool.not_eq_true] at hnames
      obtain ⟨name, hname, hunfound⟩ := hnames
      obtain ⟨m, hm, hname⟩ := List.mem_flatMap.1 hname
      have hproblem := mem_ofRaw_iff.2 (.inr ⟨m, hm, name, hname, hunfound, rfl⟩)
      exact .inr ((exists_text_unresolved_iff _ _ _).1 (h _ hproblem))
  · intro h p hp
    obtain hdouble | ⟨m, hm, name, hname, hunfound, rfl⟩ := mem_ofRaw_iff.1 hp
    · obtain ⟨ident, count, rfl⟩ := exists_of_mem_duplicates hdouble
      exact exists_text_duplicate _ _ _
    · obtain hnames | htexts := h
      · obtain ⟨d, hd, hfound⟩ := hnames name (List.mem_flatMap.2 ⟨m, hm, hname⟩)
        simp [hunfound d hd] at hfound
      · exact (exists_text_unresolved_iff _ _ _).2 htexts

theorem Report.exists_text_ofRaws_iff (nodes : List RawNode) :
    (∃ s, text (ofProblems (Problem.ofRaws nodes)) = .ok s) ↔
      (∀ n ∈ nodes, ∀ name ∈ n.itemNames, ∃ d ∈ nodes.map (·.ident), d.isFoundBy name) ∨
        ∀ i ∈ (nodes.map (·.ident)).take Problem.shownLimit, i.isText := by
  have hdouble : ∀ p ∈ Validate.duplicates (.text "definitions") (nodes.map (·.ident)),
      ∃ s, Problem.text p = .ok s := by
    intro p hp
    obtain ⟨ident, count, rfl⟩ := Problem.exists_of_mem_duplicates hp
    exact Problem.exists_text_duplicate _ _ _
  rw [exists_text_iff, Problem.ofRaws, List.forall_mem_append, and_iff_right hdouble,
    List.forall_mem_flatMap]
  simp only [Problem.exists_text_ofRaw_iff]
  by_cases htexts : ∀ i ∈ (nodes.map (·.ident)).take Problem.shownLimit, i.isText
  · exact ⟨fun _ => .inr htexts, fun _ _ _ => .inr htexts⟩
  · simp only [htexts, or_false]

end AstSchema
