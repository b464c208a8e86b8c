import Mathlib.Data.List.Forall2

/-! How attempts one after another succeed and fail. -/
namespace Rehost

variable {α β ε : Type}

theorem bind_eq_ok {x : Except ε α} {g : α → Except ε β} {z : β} (h : (x >>= g) = .ok z) :
    ∃ y, x = .ok y ∧ g y = .ok z := by
  cases x with
  | error e => contradiction
  | ok y => exact ⟨y, rfl, h⟩

theorem bind_eq_error {x : Except ε α} {g : α → Except ε β} {e : ε} (h : (x >>= g) = .error e) :
    x = .error e ∨ ∃ y, x = .ok y ∧ g y = .error e := by
  cases x with
  | error e' => exact .inl (congrArg Except.error (Except.error.inj h))
  | ok y => exact .inr ⟨y, rfl, h⟩

theorem map_eq_ok {x : Except ε α} {g : α → β} {z : β} (h : x.map g = .ok z) : ∃ y, x = .ok y ∧ g y = z := by
  cases x with
  | error e => contradiction
  | ok y => exact ⟨y, rfl, Except.ok.inj h⟩

theorem map_eq_error {x : Except ε α} {g : α → β} {e : ε} (h : x.map g = .error e) : x = .error e := by
  cases x with
  | error e' => exact congrArg Except.error (Except.error.inj h)
  | ok y => contradiction

section
variable {γ δ : Type} {x : Except ε α} {y : Except ε β} {z : Except ε γ} {e : ε}

theorem lift_eq_error {g : α → δ} (h : (do return g (← x)) = .error e) : x = .error e := by
  rcases bind_eq_error h with h | ⟨_, -, h⟩
  · exact h
  · contradiction

theorem lift₂_eq_error {g : α → β → δ} (h : (do return g (← x) (← y)) = .error e) : x = .error e ∨ y = .error e := by
  rcases bind_eq_error h with h | ⟨_, -, h⟩
  · exact .inl h
  · exact .inr (lift_eq_error h)

theorem lift₃_eq_error {g : α → β → γ → δ} (h : (do return g (← x) (← y) (← z)) = .error e) :
    x = .error e ∨ y = .error e ∨ z = .error e := by
  rcases bind_eq_error h with h | ⟨_, -, h⟩
  · exact .inl h
  · exact .inr (lift₂_eq_error h)

theorem lift₂_eq_ok {g : α → β → δ} {d : δ} (h : (do return g (← x) (← y)) = .ok d) :
    ∃ a b, x = .ok a ∧ y = .ok b ∧ g a b = d := by
  obtain ⟨a, ha, h⟩ := bind_eq_ok h
  obtain ⟨b, hb, h⟩ := bind_eq_ok h
  exact ⟨a, b, ha, hb, Except.ok.inj h⟩

theorem lift₃_eq_ok {g : α → β → γ → δ} {d : δ} (h : (do return g (← x) (← y) (← z)) = .ok d) :
    ∃ a b c, x = .ok a ∧ y = .ok b ∧ z = .ok c ∧ g a b c = d := by
  obtain ⟨a, ha, h⟩ := bind_eq_ok h
  obtain ⟨b, c, hb, hc, h⟩ := lift₂_eq_ok h
  exact ⟨a, b, c, ha, hb, hc, h⟩

end

theorem mapError_eq_error {ε' : Type} {x : Except ε α} {g : ε → ε'} {e' : ε'} (h : x.mapError g = .error e') :
    ∃ e, x = .error e ∧ e' = g e := by
  cases x with
  | error e => exact ⟨e, rfl, (Except.error.inj h).symm⟩
  | ok y => contradiction

section
variable {f : α → Except ε β} {xs : List α} {ys : List β}

theorem forall₂_of_mapM (h : xs.mapM f = .ok ys) : List.Forall₂ (fun x y => f x = .ok y) xs ys := by
  induction xs generalizing ys with
  | nil =>
    cases h
    exact .nil
  | cons x xs ih =>
    rw [List.mapM_cons] at h
    obtain ⟨y, ys', hx, hxs, rfl⟩ := lift₂_eq_ok h
    exact .cons hx (ih hxs)

theorem mapM_of_forall₂ (h : List.Forall₂ (fun x y => f x = .ok y) xs ys) : xs.mapM f = .ok ys := by
  induction h with
  | nil => rfl
  | cons hx _ ih =>
    rw [List.mapM_cons, hx, ih]
    rfl

theorem exists_of_mapM_error {e : ε} (h : xs.mapM f = .error e) : ∃ x ∈ xs, f x = .error e := by
  induction xs with
  | nil => contradiction
  | cons x xs ih =>
    rw [List.mapM_cons] at h
    rcases lift₂_eq_error h with hx | hxs
    · exact ⟨x, List.mem_cons_self, hx⟩
    · obtain ⟨x', hmem, hx'⟩ := ih hxs
      exact ⟨x', List.mem_cons_of_mem _ hmem, hx'⟩

end

end Rehost
