/-! Lines and columns of a text. -/

namespace NodeAtlas

/-- A line counted from 1 and a column counted in characters from 0. -/
structure Position where
  line : Nat
  column : Nat
  deriving DecidableEq, Repr

namespace Position

def start : Position := ⟨1, 0⟩

def le (p q : Position) : Bool := p.line < q.line || (p.line == q.line && p.column ≤ q.column)

instance : LT Position := ⟨fun p q => p.line < q.line ∨ p.line = q.line ∧ p.column < q.column⟩

instance (p q : Position) : Decidable (p < q) :=
  inferInstanceAs (Decidable (p.line < q.line ∨ p.line = q.line ∧ p.column < q.column))

theorem lt_iff {p q : Position} :
    p < q ↔ p.line < q.line ∨ p.line = q.line ∧ p.column < q.column := Iff.rfl

theorem le_iff {p q : Position} :
    p.le q = true ↔ p.line < q.line ∨ p.line = q.line ∧ p.column ≤ q.column := by
  simp [le]

theorem le_trans (p q r : Position) (h : p.le q = true) (h' : q.le r = true) :
    p.le r = true := by
  rw [le_iff] at *
  omega

theorem le_total (p q : Position) : (p.le q || q.le p) = true := by
  rw [Bool.or_eq_true, le_iff, le_iff]
  omega

theorem le_antisymm {p q : Position} (h : p.le q = true) (h' : q.le p = true) : p = q := by
  obtain ⟨line, column⟩ := p
  obtain ⟨line', column'⟩ := q
  simp only [le_iff] at h h'
  have hline : line = line' := by omega
  have hcolumn : column = column' := by omega
  rw [hline, hcolumn]

theorem lt_trans {p q r : Position} (h : p < q) (h' : q < r) : p < r := by
  rw [lt_iff] at *
  omega

theorem le_of_lt {p q : Position} (h : p < q) : p.le q = true := by
  rw [lt_iff] at h
  rw [le_iff]
  omega

theorem lt_of_lt_of_le {p q r : Position} (h : p < q) (h' : q.le r = true) : p < r := by
  rw [lt_iff] at *
  rw [le_iff] at h'
  omega

theorem ne_of_lt {p q : Position} (h : p < q) : p ≠ q := by
  rintro rfl
  rw [lt_iff] at h
  omega

end Position

end NodeAtlas
