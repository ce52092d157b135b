import AstSchema.Entries

/-! Rows of keys and values in which no key comes up twice, and how they are made. -/
namespace AstSchema.Entries

variable {α β : Type} {same : α → α → Bool}

theorem put_of_forall {key : α} {value : β} {entries : List (α × β)}
    (h : ∀ e ∈ entries, same e.1 key = false) :
    put same key value entries = entries ++ [(key, value)] := by
  induction entries with
  | nil => rfl
  | cons e rest ih =>
    obtain ⟨k, v⟩ := e
    have hk : same k key = false := h (k, v) List.mem_cons_self
    rw [put, hk, ih fun e he => h e (List.mem_cons_of_mem _ he)]
    rfl

private theorem foldl_put_of_pairwise (done todo : List (α × β))
    (h : (done ++ todo).Pairwise fun a b => same a.1 b.1 = false) :
    todo.foldl (fun entries (k, v) => put same k v entries) done = done ++ todo := by
  induction todo generalizing done with
  | nil =>
    rw [List.append_nil]
    rfl
  | cons e todo ih =>
    obtain ⟨-, -, hcross⟩ := List.pairwise_append.1 h
    have hput : put same e.1 e.2 done = done ++ [e] :=
      put_of_forall fun d hd => hcross d hd e List.mem_cons_self
    change todo.foldl _ (put same e.1 e.2 done) = _
    rw [hput, ih]
    · simp
    · simpa using h

/-- Keys that come up once each stay where they are. -/
theorem ofPairs_of_pairwise {pairs : List (α × β)}
    (h : pairs.Pairwise fun a b => same a.1 b.1 = false) : ofPairs same pairs = pairs :=
  foldl_put_of_pairwise [] pairs h

/-! ## Whatever the pairs -/

/-- A known key stays as it is spelled. -/
theorem map_fst_put_of_mem {key : α} {value : β} {entries : List (α × β)}
    (h : ∃ e ∈ entries, same e.1 key) :
    (put same key value entries).map (·.1) = entries.map (·.1) := by
  induction entries with
  | nil => simp at h
  | cons e rest ih =>
    obtain ⟨k, v⟩ := e
    rw [put]
    by_cases hk : same k key
    · rw [if_pos hk]
      rfl
    · rw [if_neg hk, List.map_cons, List.map_cons, ih (by simpa [hk] using h)]

theorem pairwise_put {entries : List (α × β)}
    (h : entries.Pairwise fun a b => same a.1 b.1 = false) (key : α) (value : β) :
    (put same key value entries).Pairwise fun a b => same a.1 b.1 = false := by
  by_cases hknown : ∃ e ∈ entries, same e.1 key
  · have hkeys : (entries.map (·.1)).Pairwise fun a b => same a b = false := List.pairwise_map.2 h
    rw [← map_fst_put_of_mem hknown] at hkeys
    exact List.pairwise_map.1 hkeys
  · have hnew : ∀ e ∈ entries, same e.1 key = false := by simpa using hknown
    rw [put_of_forall hnew, List.pairwise_append]
    exact ⟨h, List.pairwise_singleton .., by simpa using hnew⟩

/-- No key comes up twice. -/
theorem pairwise_ofPairs (pairs : List (α × β)) :
    (ofPairs same pairs).Pairwise fun a b => same a.1 b.1 = false :=
  List.foldlRecOn pairs _ .nil fun _ h e _ => pairwise_put h e.1 e.2

theorem forall_mem_put {p : β → Prop} {entries : List (α × β)} (h : ∀ e ∈ entries, p e.2)
    (key : α) {value : β} (hvalue : p value) : ∀ e ∈ put same key value entries, p e.2 := by
  induction entries with
  | nil => simpa [put] using hvalue
  | cons e rest ih =>
    obtain ⟨hhead, hrest⟩ := List.forall_mem_cons.1 h
    rw [put]
    split
    · exact List.forall_mem_cons.2 ⟨hvalue, hrest⟩
    · exact List.forall_mem_cons.2 ⟨hhead, ih hrest⟩

theorem forall_mem_ofPairs {p : β → Prop} {pairs : List (α × β)} (h : ∀ e ∈ pairs, p e.2) :
    ∀ e ∈ ofPairs same pairs, p e.2 := by
  refine List.foldlRecOn (motive := fun entries : List (α × β) => ∀ e ∈ entries, p e.2)
    pairs _ ?_ fun _ hdone e he => forall_mem_put hdone e.1 (h e he)
  simp

section

variable {α' β' : Type} {same' : α' → α' → Bool} {f : α → α'}
  (hf : ∀ a b, same' (f a) (f b) = same a b) (g : β → β')

include hf

theorem put_map (key : α) (value : β) (entries : List (α × β)) :
    put same' (f key) (g value) (entries.map (Prod.map f g)) =
      (put same key value entries).map (Prod.map f g) := by
  induction entries with
  | nil => rfl
  | cons e rest ih =>
    obtain ⟨k, v⟩ := e
    rw [List.map_cons, Prod.map_apply, put, put, hf, ih]
    split <;> rfl

private theorem foldl_put_map (pairs done : List (α × β)) :
    (pairs.map (Prod.map f g)).foldl (fun entries (k, v) => put same' k v entries)
        (done.map (Prod.map f g)) =
      (pairs.foldl (fun entries (k, v) => put same k v entries) done).map (Prod.map f g) := by
  induction pairs generalizing done with
  | nil => rfl
  | cons e pairs ih =>
    rw [List.foldl_cons, ← ih, ← put_map hf g e.1 e.2 done]
    rfl

/-- Keys and values may be replaced before or after, if no two keys become one key. -/
theorem ofPairs_map (pairs : List (α × β)) :
    ofPairs same' (pairs.map (Prod.map f g)) = (ofPairs same pairs).map (Prod.map f g) :=
  foldl_put_map hf g pairs []

end

/-! ## Keys that are found -/

theorem find?_congr {k k' : α} (h : ∀ a, same a k = same a k') (entries : List (α × β)) :
    find? same k entries = find? same k' entries := by
  induction entries with
  | nil => rfl
  | cons e rest ih =>
    obtain ⟨a, v⟩ := e
    simp only [find?, h a, ih]

theorem exists_of_find? {key : α} {value : β} {entries : List (α × β)}
    (h : find? same key entries = some value) :
    ∃ k, (k, value) ∈ entries ∧ same k key := by
  induction entries with
  | nil => contradiction
  | cons e rest ih =>
    obtain ⟨k, v⟩ := e
    rw [find?] at h
    split at h
    next hk =>
      obtain rfl := Option.some.inj h
      exact ⟨k, List.mem_cons_self, hk⟩
    next =>
      obtain ⟨k', hmem, hsame⟩ := ih h
      exact ⟨k', List.mem_cons_of_mem _ hmem, hsame⟩

theorem find?_eq_none_iff {key : α} {entries : List (α × β)} :
    find? same key entries = none ↔ ∀ e ∈ entries, same e.1 key = false := by
  induction entries with
  | nil => simp [find?]
  | cons e rest ih =>
    obtain ⟨k, v⟩ := e
    rw [find?, List.forall_mem_cons, ← ih]
    cases same k key <;> simp

/-- Entries that come later hide none. -/
theorem find?_append_of_some {key : α} {value : β} {entries : List (α × β)}
    (h : find? same key entries = some value) (more : List (α × β)) :
    find? same key (entries ++ more) = some value := by
  induction entries with
  | nil => contradiction
  | cons e rest ih =>
    obtain ⟨k, v⟩ := e
    rw [find?] at h
    rw [List.cons_append, find?]
    split at h
    next hk => rwa [if_pos hk]
    next hk => rw [if_neg hk, ih h]

theorem mem_of_lookup [BEq α] [LawfulBEq α] {key : α} {value : β} {entries : List (α × β)}
    (h : entries.lookup key = some value) : (key, value) ∈ entries := by
  obtain ⟨before, after, rfl, -⟩ := List.lookup_eq_some_iff.1 h
  simp

/-- Where no key comes up twice, every value is found under its own. -/
theorem find?_of_mem (hrefl : ∀ a, same a a) {key : α} {value : β} {entries : List (α × β)}
    (hkeys : entries.Pairwise fun a b => same a.1 b.1 = false) (h : (key, value) ∈ entries) :
    find? same key entries = some value := by
  induction entries with
  | nil => contradiction
  | cons e rest ih =>
    obtain ⟨k, v⟩ := e
    obtain ⟨hhead, hrest⟩ := List.pairwise_cons.1 hkeys
    rw [find?]
    obtain heq | hmem := List.mem_cons.1 h
    · obtain ⟨rfl, rfl⟩ := Prod.mk.inj heq
      rw [if_pos (hrefl _)]
    · have hne : same k key = false := hhead _ hmem
      rw [hne, ih hrest hmem]
      rfl

end AstSchema.Entries
