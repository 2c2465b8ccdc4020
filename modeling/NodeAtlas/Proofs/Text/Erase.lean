import Mathlib.Data.List.Infix
import NodeAtlas.Proofs.Text.Search

/-!
What is left when a pattern is removed wherever it is found. The pattern is never found across a
character that it does not have, so the texts on both sides of one can be looked at alone.
-/

namespace NodeAtlas.Text

section Erase

variable {pat a b : List Char} {c : Char}

/-- A pattern at the beginning of a text ends before a character that it does not have. -/
theorem prefix_append_stop_iff (hc : c ∉ pat) : pat <+: a ++ c :: b ↔ pat <+: a := by
  refine ⟨fun h => ?_, fun h => h.trans (List.prefix_append a _)⟩
  by_cases hlen : pat.length ≤ a.length
  · exact List.prefix_of_prefix_length_le h (List.prefix_append a _) hlen
  · have hstop : a ++ [c] <+: pat := by
      refine List.prefix_of_prefix_length_le ⟨b, by simp⟩ h ?_
      rw [List.length_append, List.length_singleton]
      omega
    exact absurd (hstop.subset (by simp)) hc

theorem isPrefixOf_append_stop (hc : c ∉ pat) :
    pat.isPrefixOf (a ++ c :: b) = pat.isPrefixOf a := by
  rw [Bool.eq_iff_iff, List.isPrefixOf_iff_prefix, List.isPrefixOf_iff_prefix,
    prefix_append_stop_iff hc]

theorem eraseFrom_append_stop (hne : pat ≠ []) (hc : c ∉ pat) {skip : Nat}
    (hskip : skip ≤ a.length) : eraseFrom pat skip (a ++ c :: b) =
      eraseFrom pat skip a ++ c :: eraseFrom pat 0 b := by
  induction a generalizing skip with
  | nil =>
    have hfound : pat.isPrefixOf (c :: b) = false := by
      rw [← List.nil_append (c :: b), isPrefixOf_append_stop hc, ← Bool.not_eq_true,
        List.isPrefixOf_iff_prefix, List.prefix_nil]
      exact hne
    obtain rfl : skip = 0 := by simpa using hskip
    simp [eraseFrom, hfound]
  | cons x a ih =>
    cases skip with
    | succ skip => exact ih (by simpa using hskip)
    | zero =>
      rw [List.cons_append, eraseFrom, eraseFrom, ← List.cons_append, isPrefixOf_append_stop hc]
      split
      · next hfound =>
        have hle := (List.isPrefixOf_iff_prefix.mp hfound).length_le
        rw [List.length_cons] at hle
        exact ih (by omega)
      · rw [ih (Nat.zero_le _), List.cons_append]

/-- The pattern is removed on both sides of a character that it does not have. -/
theorem eraseAll_append_stop (hne : pat ≠ []) (hc : c ∉ pat) :
    eraseAll pat (a ++ c :: b) = eraseAll pat a ++ c :: eraseAll pat b :=
  eraseFrom_append_stop hne hc (Nat.zero_le _)

theorem eraseFrom_length (a b : List Char) :
    eraseFrom pat a.length (a ++ b) = eraseFrom pat 0 b := by
  induction a with
  | nil => rfl
  | cons x a ih => exact ih

/-- The pattern is removed where a text begins with it. -/
theorem eraseAll_stem (hne : pat ≠ []) : eraseAll pat (pat ++ b) = eraseAll pat b := by
  obtain ⟨c, rest, rfl⟩ := List.exists_cons_of_ne_nil hne
  have hfound : (c :: rest).isPrefixOf (c :: (rest ++ b)) = true :=
    List.isPrefixOf_iff_prefix.mpr (List.prefix_append (c :: rest) b)
  rw [eraseAll, List.cons_append, eraseFrom, if_pos hfound]
  exact eraseFrom_length rest b

/-- No occurrence of the pattern begins in a text, whatever comes behind it. -/
def Keeps (pat a : List Char) : Prop :=
  ∀ t ∈ a.tails, t ≠ [] → ¬ pat <+: t ∧ ¬ t <+: pat

instance (pat a : List Char) : Decidable (Keeps pat a) :=
  inferInstanceAs (Decidable (∀ t ∈ a.tails, t ≠ [] → ¬ pat <+: t ∧ ¬ t <+: pat))

theorem eraseAll_front (h : Keeps pat a) : eraseAll pat (a ++ b) = a ++ eraseAll pat b := by
  induction a with
  | nil => rfl
  | cons x a ih =>
    obtain ⟨hfound, hcut⟩ := h (x :: a) ((List.mem_tails _ _).mpr (List.suffix_refl _)) (by simp)
    have hnot : ¬ pat.isPrefixOf (x :: (a ++ b)) = true := by
      rw [List.isPrefixOf_iff_prefix]
      intro hpat
      rcases List.prefix_or_prefix_of_prefix hpat (List.prefix_append (x :: a) b) with hle | hle
      · exact hfound hle
      · exact hcut hle
    have hrest : Keeps pat a := fun t ht => h t ((List.mem_tails _ _).mpr
      (((List.mem_tails _ _).mp ht).trans (List.suffix_cons x a)))
    rw [eraseAll, List.cons_append, eraseFrom, if_neg hnot]
    exact congrArg (x :: ·) (ih hrest)

theorem eraseAll_self (h : ¬ pat <:+: a) : eraseAll pat a = a := by
  induction a with
  | nil => rfl
  | cons x a ih =>
    rw [List.infix_cons_iff, not_or, ← List.isPrefixOf_iff_prefix] at h
    rw [eraseAll, eraseFrom, if_neg h.1]
    exact congrArg (x :: ·) (ih h.2)

theorem eraseFrom_sublist (skip : Nat) : (eraseFrom pat skip a).Sublist a := by
  induction a generalizing skip with
  | nil => cases skip <;> exact List.Sublist.refl _
  | cons x a ih =>
    cases skip with
    | succ skip => exact (ih skip).cons x
    | zero =>
      rw [eraseFrom]
      split
      · exact (ih _).cons x
      · exact (ih 0).cons_cons x

theorem eraseAll_sublist (pat a : List Char) : (eraseAll pat a).Sublist a := eraseFrom_sublist 0

/-- A character that the pattern does not have stays. -/
theorem mem_eraseAll_iff (hne : pat ≠ []) (hc : c ∉ pat) : c ∈ eraseAll pat a ↔ c ∈ a := by
  refine ⟨fun h => (eraseAll_sublist pat a).subset h, fun h => ?_⟩
  obtain ⟨front, rest, rfl⟩ := List.append_of_mem h
  rw [eraseAll_append_stop hne hc]
  simp

end Erase

end NodeAtlas.Text
