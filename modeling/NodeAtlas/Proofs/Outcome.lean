import Mathlib.Data.List.Forall2

/-! Results that may be failures. -/

namespace NodeAtlas

section Outcome

variable {ε α β : Type}

instance decidableEqOutcome [DecidableEq ε] [DecidableEq α] : DecidableEq (Except ε α)
  | .ok a, .ok b => decidable_of_iff (a = b) (by simp)
  | .error e, .error f => decidable_of_iff (e = f) (by simp)
  | .ok _, .error _ => isFalse (by simp)
  | .error _, .ok _ => isFalse (by simp)

/-- Two steps succeed if the first does and the second does from there. -/
theorem bind_eq_ok_iff {x : Except ε α} {f : α → Except ε β} {b : β} :
    x >>= f = .ok b ↔ ∃ a, x = .ok a ∧ f a = .ok b := by
  cases x <;> simp [bind, Except.bind]

/-- A list can be taken through a step exactly if every item can. -/
theorem mapM_eq_ok_iff {f : α → Except ε β} {xs : List α} {ys : List β} :
    xs.mapM f = .ok ys ↔ List.Forall₂ (fun x y => f x = .ok y) xs ys := by
  induction xs generalizing ys with
  | nil => simp [pure, Except.pure, eq_comm]
  | cons x xs ih =>
    rw [List.mapM_cons, bind_eq_ok_iff, List.forall₂_cons_left_iff]
    simp only [bind_eq_ok_iff, ih]
    constructor
    · rintro ⟨y, hy, ys, hys, h⟩
      exact ⟨y, ys, hy, hys, (Except.ok.inj h).symm⟩
    · rintro ⟨y, ys, hy, hys, rfl⟩
      exact ⟨y, hy, ys, hys, rfl⟩

theorem exists_of_mapM_eq_ok {f : α → Except ε β} {xs : List α} {ys : List β}
    (h : xs.mapM f = .ok ys) :
    (∀ y ∈ ys, ∃ x ∈ xs, f x = .ok y) ∧ ∀ x ∈ xs, ∃ y ∈ ys, f x = .ok y := by
  rw [mapM_eq_ok_iff] at h
  induction h with
  | nil => simp
  | cons hy _ ih =>
    constructor
    · rw [List.forall_mem_cons]
      refine ⟨⟨_, List.mem_cons_self, hy⟩, fun y hmem => ?_⟩
      obtain ⟨x, hx, heq⟩ := ih.1 y hmem
      exact ⟨x, List.mem_cons_of_mem _ hx, heq⟩
    · rw [List.forall_mem_cons]
      refine ⟨⟨_, List.mem_cons_self, hy⟩, fun x hmem => ?_⟩
      obtain ⟨y, hy, heq⟩ := ih.2 x hmem
      exact ⟨y, List.mem_cons_of_mem _ hy, heq⟩

/-- A list fails as one of its items does. -/
theorem exists_of_mapM_eq_error {f : α → Except ε β} {xs : List α} {e : ε}
    (h : xs.mapM f = .error e) : ∃ x ∈ xs, f x = .error e := by
  induction xs with
  | nil => cases h
  | cons x xs ih =>
    rw [List.mapM_cons] at h
    cases hx : f x with
    | error e' =>
      rw [hx] at h
      cases h
      exact ⟨x, List.mem_cons_self, hx⟩
    | ok y =>
      rw [hx] at h
      cases hxs : xs.mapM f with
      | error e' =>
        rw [hxs] at h
        cases h
        obtain ⟨x', hmem, hx'⟩ := ih hxs
        exact ⟨x', List.mem_cons_of_mem x hmem, hx'⟩
      | ok ys =>
        rw [hxs] at h
        cases h

/-- A fold that needs the value of each item succeeds when all have one, and folds the values. -/
theorem foldlM_map_eq_some_iff {value? : α → Option β} {step : ε → β → ε} {xs : List α} {a b : ε} :
    xs.foldlM (fun a x => (value? x).map (step a)) a = some b ↔
      ∃ ys, List.Forall₂ (fun x y => value? x = some y) xs ys ∧ b = ys.foldl step a := by
  induction xs generalizing a with
  | nil => simp [eq_comm]
  | cons x xs ih =>
    rw [List.foldlM_cons, Option.bind_eq_bind, Option.bind_eq_some_iff]
    simp only [Option.map_eq_some_iff, ih, List.forall₂_cons_left_iff]
    constructor
    · rintro ⟨-, ⟨y, hy, rfl⟩, ys, hys, rfl⟩
      exact ⟨y :: ys, ⟨y, ys, hy, hys, rfl⟩, rfl⟩
    · rintro ⟨-, ⟨y, ys, hy, hys, rfl⟩, rfl⟩
      exact ⟨_, ⟨y, hy, rfl⟩, ys, hys, rfl⟩

end Outcome

end NodeAtlas
