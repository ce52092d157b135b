import Mathlib.Data.List.Forall2

/-! Steps that may be refused: what a chain of steps or a row of them says of each one. -/
namespace AstSchema

variable {α β γ ε : Type}

theorem bind_eq_ok_iff {x : Except ε α} {f : α → Except ε β} {b : β} :
    (x >>= f) = .ok b ↔ ∃ a, x = .ok a ∧ f a = .ok b := by
  cases x with
  | error e => simp [bind, Except.bind]
  | ok a => simp [bind, Except.bind]

/-- A second step that cannot fail leaves it to the first. -/
theorem exists_bind_ok_iff {x : Except ε α} {f : α → β} :
    (∃ b, (x >>= fun a => pure (f a)) = .ok b) ↔ ∃ a, x = .ok a := by
  cases x with
  | error e => simp [bind, Except.bind]
  | ok a => simp [bind, Except.bind, pure, Except.pure]

theorem exists_error_iff {x : Except ε α} : (∃ e, x = .error e) ↔ ¬ ∃ a, x = .ok a := by
  cases x <;> simp

/-- A row of steps succeeds exactly if each of them does. -/
theorem mapM_eq_ok_iff {f : α → Except ε β} {xs : List α} {ys : List β} :
    xs.mapM f = .ok ys ↔ List.Forall₂ (fun x y => f x = .ok y) xs ys := by
  induction xs generalizing ys with
  | nil => cases ys <;> simp [pure, Except.pure]
  | cons x xs ih =>
    rw [List.mapM_cons, bind_eq_ok_iff]
    constructor
    · rintro ⟨y, hy, hys⟩
      obtain ⟨ys', hys', heq⟩ := bind_eq_ok_iff.1 hys
      obtain rfl := Except.ok.inj heq
      exact .cons hy (ih.1 hys')
    · rintro (_ | ⟨hy, hys⟩)
      exact ⟨_, hy, bind_eq_ok_iff.2 ⟨_, ih.2 hys, rfl⟩⟩

theorem mapM_eq_ok_of_imp {f g : α → Except ε β} {xs : List α} {ys : List β}
    (hfg : ∀ x ∈ xs, ∀ y, f x = .ok y → g x = .ok y) (h : xs.mapM f = .ok ys) :
    xs.mapM g = .ok ys := by
  rw [mapM_eq_ok_iff] at h ⊢
  induction h with
  | nil => exact .nil
  | cons hx _ ih =>
    obtain ⟨hhead, htail⟩ := List.forall_mem_cons.1 hfg
    exact .cons (hhead _ hx) (ih htail)

theorem exists_of_mapM_eq_ok {f : α → Except ε β} {xs : List α} {ys : List β}
    (h : xs.mapM f = .ok ys) : ∀ x ∈ xs, ∃ y, f x = .ok y := by
  have hrow : List.Forall₂ (fun x y => (∃ y, f x = .ok y) ∧ f x = .ok y) xs ys :=
    (mapM_eq_ok_iff.1 h).imp fun x y hy => ⟨⟨y, hy⟩, hy⟩
  exact ((List.forall₂_and_left xs ys).1 hrow).1

/-- Where every step gives something of one form, a row of steps gives a row of such things. -/
theorem exists_map_of_mapM_eq_ok {f : α → Except ε β} {g : γ → β} {p : γ → Prop} {xs : List α}
    {ys : List β} (hf : ∀ x ∈ xs, ∀ y, f x = .ok y → ∃ c, y = g c ∧ p c)
    (h : xs.mapM f = .ok ys) : ∃ cs : List γ, ys = cs.map g ∧ ∀ c ∈ cs, p c := by
  rw [mapM_eq_ok_iff] at h
  induction h with
  | nil => exact ⟨[], rfl, by simp⟩
  | cons hx _ ih =>
    obtain ⟨hhead, htail⟩ := List.forall_mem_cons.1 hf
    obtain ⟨c, rfl, hc⟩ := hhead _ hx
    obtain ⟨cs, rfl, hcs⟩ := ih htail
    exact ⟨c :: cs, rfl, List.forall_mem_cons.2 ⟨hc, hcs⟩⟩

theorem forall_mem_of_mapM_eq_ok {f : α → Except ε β} {p : β → Prop} {xs : List α} {ys : List β}
    (hf : ∀ x ∈ xs, ∀ y, f x = .ok y → p y) (h : xs.mapM f = .ok ys) : ∀ y ∈ ys, p y := by
  obtain ⟨ys, rfl, hys⟩ := exists_map_of_mapM_eq_ok (fun x hx y hy => ⟨y, rfl, hf x hx y hy⟩) h
  exact List.forall_mem_map.2 hys

theorem exists_mapM_iff {f : α → Except ε β} {xs : List α} :
    (∃ ys, xs.mapM f = .ok ys) ↔ ∀ x ∈ xs, ∃ y, f x = .ok y := by
  refine ⟨fun ⟨_, h⟩ => exists_of_mapM_eq_ok h, fun h => ?_⟩
  induction xs with
  | nil => exact ⟨[], rfl⟩
  | cons x xs ih =>
    obtain ⟨⟨y, hy⟩, hxs⟩ := List.forall_mem_cons.1 h
    obtain ⟨ys, hys⟩ := ih hxs
    exact ⟨y :: ys, mapM_eq_ok_iff.2 (.cons hy (mapM_eq_ok_iff.1 hys))⟩

theorem bind_eq_error_iff {x : Except ε α} {f : α → Except ε β} {e : ε} :
    (x >>= f) = .error e ↔ x = .error e ∨ ∃ a, x = .ok a ∧ f a = .error e := by
  cases x with
  | error e' => simp [bind, Except.bind]
  | ok a => simp [bind, Except.bind]

/-- A row of steps is refused by the first of them that is. -/
theorem mapM_eq_error_iff {f : α → Except ε β} {xs : List α} {e : ε} :
    xs.mapM f = .error e ↔ ∃ before x after, xs = before ++ x :: after ∧
      (∀ b ∈ before, ∃ y, f b = .ok y) ∧ f x = .error e := by
  induction xs with
  | nil => simp [pure, Except.pure]
  | cons x xs ih =>
    rw [List.mapM_cons, bind_eq_error_iff]
    constructor
    · rintro (hx | ⟨y, hy, hys⟩)
      · exact ⟨[], x, xs, rfl, by simp, hx⟩
      · obtain hxs | ⟨ys, -, hpure⟩ := bind_eq_error_iff.1 hys
        · obtain ⟨before, x', after, rfl, hbefore, hx'⟩ := ih.1 hxs
          refine ⟨x :: before, x', after, rfl, ?_, hx'⟩
          exact List.forall_mem_cons.2 ⟨⟨y, hy⟩, hbefore⟩
        · contradiction
    · rintro ⟨before, x', after, heq, hbefore, hx'⟩
      cases before with
      | nil =>
        obtain ⟨rfl, rfl⟩ := List.cons.inj heq
        exact .inl hx'
      | cons b before =>
        obtain ⟨rfl, rfl⟩ := List.cons.inj heq
        obtain ⟨⟨y, hy⟩, hbefore⟩ := List.forall_mem_cons.1 hbefore
        have hxs := ih.2 ⟨before, x', after, rfl, hbefore, hx'⟩
        exact .inr ⟨y, hy, bind_eq_error_iff.2 (.inl hxs)⟩

theorem mapM_map (f : β → Except ε γ) (g : α → β) (xs : List α) :
    (xs.map g).mapM f = xs.mapM fun x => f (g x) := by
  induction xs with
  | nil => rfl
  | cons x xs ih => rw [List.map_cons, List.mapM_cons, List.mapM_cons, ih]

theorem mapM_map_eq_ok {f : β → Except ε γ} {g : α → β} {h : α → γ} {xs : List α}
    (hxs : ∀ x ∈ xs, f (g x) = .ok (h x)) : (xs.map g).mapM f = .ok (xs.map h) := by
  rw [mapM_eq_ok_iff, List.forall₂_map_left_iff, List.forall₂_map_right_iff]
  exact List.forall₂_same.2 hxs

theorem ite_bind {b : Bool} {a : α} {e : ε} (f : α → Except ε β) :
    (if b then Except.ok a else .error e) >>= f = if b then f a else .error e := by
  cases b <;> rfl

/-- A row of steps that can be refused in one way only is refused if any of them is. -/
theorem mapM_map_eq_ite {f : β → Except ε γ} {g : α → β} {p : α → Bool} {h : α → γ} {e : ε}
    {xs : List α} (hxs : ∀ x ∈ xs, f (g x) = if p x then .ok (h x) else .error e) :
    (xs.map g).mapM f = if xs.all p then .ok (xs.map h) else .error e := by
  induction xs with
  | nil => rfl
  | cons x xs ih =>
    obtain ⟨hx, hxs⟩ := List.forall_mem_cons.1 hxs
    rw [List.map_cons, List.mapM_cons, hx, ih hxs, List.all_cons, ite_bind, ite_bind]
    cases p x <;> rfl

end AstSchema
