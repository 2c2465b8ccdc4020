import NodeAtlas.Files.Path

/-!
The order of paths. It compares paths part by part, so two paths that are each at or below the other
are the same path, and a sorted list of different paths is sorted in one way only.
-/

namespace NodeAtlas

namespace Path

namespace Part

theorem le_total (p q : Part) : (p.le q || q.le p) = true := by
  cases p <;> cases q <;> simp [le, rank, String.le_total]

theorem le_trans (p q r : Part) (h : p.le q = true) (h' : q.le r = true) : p.le r = true := by
  cases p <;> cases q <;> cases r <;> simp_all [le, rank]
  exact String.le_trans h h'

theorem le_antisymm {p q : Part} (h : p.le q = true) (h' : q.le p = true) : p = q := by
  cases p <;> cases q <;> simp_all [le, rank]
  exact String.le_antisymm h h'

end Part

theorem leParts_total (ps qs : List Part) : (leParts ps qs || leParts qs ps) = true := by
  induction ps generalizing qs with
  | nil => simp [leParts]
  | cons p ps ih =>
    cases qs with
    | nil => simp [leParts]
    | cons q qs =>
      by_cases hpq : p = q
      · simpa [leParts, hpq] using ih qs
      · simpa [leParts, hpq, Ne.symm hpq] using Part.le_total p q

theorem leParts_trans {ps qs rs : List Part} (h : leParts ps qs = true)
    (h' : leParts qs rs = true) : leParts ps rs = true := by
  induction ps generalizing qs rs with
  | nil => rfl
  | cons p ps ih =>
    obtain _ | ⟨q, qs⟩ := qs
    · contradiction
    obtain _ | ⟨r, rs⟩ := rs
    · contradiction
    rw [leParts] at h h' ⊢
    by_cases hpq : p = q
    · subst hpq
      rw [if_pos rfl] at h
      split at h'
      · next hpr => rw [if_pos hpr]; exact ih h h'
      · next hpr => rw [if_neg hpr]; exact h'
    rw [if_neg hpq] at h
    by_cases hqr : q = r
    · subst hqr
      rwa [if_neg hpq]
    rw [if_neg hqr] at h'
    -- Were the outer parts equal, the middle one would be too.
    have hpr : p ≠ r := by
      rintro rfl
      exact hpq (Part.le_antisymm h h')
    rw [if_neg hpr]
    exact Part.le_trans p q r h h'

theorem leParts_antisymm {ps qs : List Part} (h : leParts ps qs = true)
    (h' : leParts qs ps = true) : ps = qs := by
  induction ps generalizing qs with
  | nil =>
    cases qs with
    | nil => rfl
    | cons q qs => contradiction
  | cons p ps ih =>
    obtain _ | ⟨q, qs⟩ := qs
    · contradiction
    rw [leParts] at h h'
    by_cases hpq : p = q
    · subst hpq
      rw [if_pos rfl] at h h'
      rw [ih h h']
    · rw [if_neg hpq] at h
      rw [if_neg (Ne.symm hpq)] at h'
      exact absurd (Part.le_antisymm h h') hpq

theorem le_total (a b : String) : (le a b || le b a) = true := leParts_total _ _

theorem le_trans (a b c : String) (h : le a b = true) (h' : le b c = true) : le a c = true :=
  leParts_trans h h'

theorem le_refl (a : String) : le a a = true := by
  simpa using le_total a a

theorem same_iff {a b : String} : same a b = true ↔ parts a = parts b := beq_iff_eq

/-- Paths that are each at or below the other are the same, although their texts may differ. -/
theorem same_of_le {a b : String} (h : le a b = true) (h' : le b a = true) : same a b = true := by
  rw [same, leParts_antisymm h h', beq_self_eq_true]

theorem same_comm (a b : String) : same a b = same b a := Bool.beq_comm

end Path

end NodeAtlas
