/-! Orders by a text, which another order completes where texts are equal. -/

namespace NodeAtlas.Text

variable {α : Type} (key : α → String) (tie : α → α → Bool) {a b c : α}

def orderBy (a b : α) : Bool :=
  key a < key b || (key a == key b && tie a b)

theorem orderBy_iff :
    orderBy key tie a b = true ↔ key a < key b ∨ key a = key b ∧ tie a b = true := by
  simp [orderBy]

theorem orderBy_trans (htie : ∀ a b c, tie a b = true → tie b c = true → tie a c = true)
    (h : orderBy key tie a b = true) (h' : orderBy key tie b c = true) :
    orderBy key tie a c = true := by
  rw [orderBy_iff] at *
  rcases h with hlt | ⟨heq, hle⟩
  · rcases h' with hlt' | ⟨heq', -⟩
    · exact .inl (String.lt_trans hlt hlt')
    · exact .inl (heq' ▸ hlt)
  · rcases h' with hlt' | ⟨heq', hle'⟩
    · exact .inl (heq ▸ hlt')
    · exact .inr ⟨heq.trans heq', htie a b c hle hle'⟩

theorem orderBy_total (htie : ∀ a b, (tie a b || tie b a) = true) (a b : α) :
    (orderBy key tie a b || orderBy key tie b a) = true := by
  rw [Bool.or_eq_true, orderBy_iff, orderBy_iff]
  by_cases hlt : key a < key b
  · exact .inl (.inl hlt)
  by_cases hlt' : key b < key a
  · exact .inr (.inl hlt')
  have heq : key a = key b := String.le_antisymm hlt' hlt
  rcases Bool.or_eq_true _ _ ▸ htie a b with hle | hle
  · exact .inl (.inr ⟨heq, hle⟩)
  · exact .inr (.inr ⟨heq.symm, hle⟩)

/-- What is neither before nor after has the same text, and the order behind decides nothing. -/
theorem of_orderBy_both (h : orderBy key tie a b = true) (h' : orderBy key tie b a = true) :
    key a = key b ∧ tie a b = true ∧ tie b a = true := by
  rw [orderBy_iff] at h h'
  rcases h with hlt | ⟨heq, hle⟩
  · rcases h' with hlt' | ⟨heq', -⟩
    · exact absurd hlt' (String.lt_asymm hlt)
    · exact absurd hlt (heq' ▸ String.lt_irrefl _)
  · rcases h' with hlt' | ⟨-, hle'⟩
    · exact absurd hlt' (heq ▸ String.lt_irrefl _)
    · exact ⟨heq, hle, hle'⟩

end NodeAtlas.Text
