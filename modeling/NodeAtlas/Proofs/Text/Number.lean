import Mathlib.Data.Nat.Digits.Defs
import NodeAtlas.Proofs.Outcome
import NodeAtlas.Text.Number

/-!
What byte literals stand for. A literal is read as the number that its digits denote, provided that
this is a byte.
-/

namespace NodeAtlas.Text

/-- A digit up to `f` in lower or upper case, with its value. -/
def IsDigitOf (c : Char) (d : Nat) : Prop :=
  "0123456789abcdef".toList[d]? = some c ∨ "0123456789ABCDEF".toList[d]? = some c

instance (c : Char) (d : Nat) : Decidable (IsDigitOf c d) :=
  inferInstanceAs (Decidable (_ ∨ _))

/-- Digits in a base, the most significant first, with their number. -/
def IsNumeral (base : Nat) (s : List Char) (n : Nat) : Prop :=
  s ≠ [] ∧ ∃ ds, List.Forall₂ (fun c d => IsDigitOf c d ∧ d < base) s ds ∧
    n = Nat.ofDigits base ds.reverse

/-- A byte literal, where one of some signs stands before hexadecimal digits. -/
inductive NamesByte (signs : List (List Char)) : List Char → UInt8 → Prop where
  | decimal {s : List Char} {n : UInt8} (h : IsNumeral 10 s n.toNat) : NamesByte signs s n
  | hexadecimal {mark : Char} {sign s : List Char} {n : UInt8} (hmark : mark = 'x' ∨ mark = 'X')
      (hsign : sign ∈ signs) (h : IsNumeral 16 s n.toNat) :
      NamesByte signs ('0' :: mark :: (sign ++ s)) n

/-- The signs that may stand before hexadecimal digits: none, or a plus. -/
def signs : List (List Char) := [[], ['+']]

/-! ## Digits -/

theorem IsDigitOf.lt {c : Char} {d : Nat} (h : IsDigitOf c d) : d < 16 := by
  rcases h with h | h <;> exact (List.getElem?_eq_some_iff.mp h).1

theorem toNat_lt_of_hexDigit? {c : Char} {d : Nat} (h : hexDigit? c = some d) : c.toNat < 128 := by
  have hcode (a b : Char) : a ≤ b ↔ a.toNat ≤ b.toNat := Char.le_def
  unfold hexDigit? at h
  simp only [hcode] at h
  split at h
  · next hc => exact Nat.lt_of_le_of_lt hc.2 (by decide)
  split at h
  · next hc => exact Nat.lt_of_le_of_lt hc.2 (by decide)
  split at h
  · next hc => exact Nat.lt_of_le_of_lt hc.2 (by decide)
  · cases h

theorem hexDigit?_eq_some_iff {c : Char} {d : Nat} : hexDigit? c = some d ↔ IsDigitOf c d := by
  constructor
  · intro h
    have hall : ∀ i < 128, ∀ d ∈ hexDigit? (Char.ofNat i), IsDigitOf (Char.ofNat i) d := by
      decide +kernel
    have hdigit := hall c.toNat (toNat_lt_of_hexDigit? h) d
    rw [Char.ofNat_toNat] at hdigit
    exact hdigit h
  · intro h
    have hall : ∀ d < 16, ("0123456789abcdef".toList[d]?.toList ++
        "0123456789ABCDEF".toList[d]?.toList).all (hexDigit? · = some d) = true := by
      decide +kernel
    exact of_decide_eq_true (List.all_eq_true.mp (hall d h.lt) c (by simpa [IsDigitOf] using h))

theorem decimalDigit?_eq_some_iff {c : Char} {d : Nat} :
    decimalDigit? c = some d ↔ IsDigitOf c d ∧ d < 10 := by
  rw [← hexDigit?_eq_some_iff, decimalDigit?, hexDigit?]
  have hcode (a b : Char) : a ≤ b ↔ a.toNat ≤ b.toNat := Char.le_def
  by_cases hc : '0' ≤ c ∧ c ≤ '9'
  · have hlt : c.toNat - '0'.toNat < 10 :=
      Nat.lt_of_le_of_lt (Nat.sub_le_sub_right ((hcode _ _).mp hc.2) _) (by decide)
    rw [if_pos hc, if_pos hc, Option.some.injEq, iff_self_and]
    rintro rfl
    exact hlt
  · rw [if_neg hc, if_neg hc]
    split
    · simp
      omega
    · split <;> simp
      omega

/-! ## Numbers -/

theorem readDigits?_eq_some_iff {base n : Nat} {digit? : Char → Option Nat}
    (h : ∀ c d, digit? c = some d ↔ IsDigitOf c d ∧ d < base) {s : List Char} :
    readDigits? base digit? s = some n ↔ IsNumeral base s n := by
  have hvalue (ds : List Nat) :
      ds.foldl (fun n d => base * n + d) 0 = Nat.ofDigits base ds.reverse := by
    rw [Nat.ofDigits_eq_foldr, List.foldr_reverse]
    simp [Nat.add_comm]
  unfold readDigits? IsNumeral
  split
  · next hnil => simp [hnil]
  · next hne => simp [hne, foldlM_map_eq_some_iff, h, hvalue]

theorem IsNumeral.exists_isDigitOf {base n : Nat} {s : List Char} (h : IsNumeral base s n) :
    ∀ c ∈ s, ∃ d < base, IsDigitOf c d := by
  obtain ⟨-, ds, hds, -⟩ := h
  induction hds with
  | nil => simp
  | cons hd _ ih => exact List.forall_mem_cons.mpr ⟨⟨_, hd.2, hd.1⟩, ih⟩

theorem byte?_eq_some_iff {m : Nat} {n : UInt8} : byte? m = some n ↔ m = n.toNat := by
  unfold byte?
  constructor
  · intro h
    split at h
    · next hlt =>
      cases h
      exact (UInt8.toNat_ofNat_of_lt' hlt).symm
    · cases h
  · rintro rfl
    rw [if_pos n.toNat_lt, UInt8.ofNat_toNat]

/-! ## Byte literals -/

theorem readHex?_eq_some_iff {s : List Char} {n : UInt8} :
    (readDigits? 16 hexDigit? s).bind byte? = some n ↔ IsNumeral 16 s n.toNat := by
  have hdigit (c : Char) (d : Nat) : hexDigit? c = some d ↔ IsDigitOf c d ∧ d < 16 := by
    rw [hexDigit?_eq_some_iff, iff_self_and]
    exact IsDigitOf.lt
  simp [Option.bind_eq_some_iff, readDigits?_eq_some_iff hdigit, byte?_eq_some_iff]

theorem readDecimal?_eq_some_iff {s : List Char} {n : UInt8} :
    (readDigits? 10 decimalDigit? s).bind byte? = some n ↔ IsNumeral 10 s n.toNat := by
  simp [Option.bind_eq_some_iff, readDigits?_eq_some_iff fun _ _ => decimalDigit?_eq_some_iff,
    byte?_eq_some_iff]

/-- Neither a sign nor a mark of another base is a digit. -/
theorem not_isDigitOf {c : Char} (hc : c ∈ ['+', 'x', 'X']) (d : Nat) : ¬ IsDigitOf c d := by
  have hall : ['+', 'x', 'X'].all (hexDigit? · = none) = true := by decide
  rw [← hexDigit?_eq_some_iff, of_decide_eq_true (List.all_eq_true.mp hall c hc)]
  simp

theorem mem_signs {sign : List Char} : sign ∈ signs ↔ sign = [] ∨ sign = ['+'] := by
  simp [signs]

theorem hexByte?_eq_some_iff {s : List Char} {n : UInt8} : hexByte? s = some n ↔
    ∃ sign ∈ signs, ∃ t, s = sign ++ t ∧ IsNumeral 16 t n.toNat := by
  unfold hexByte?
  rw [readHex?_eq_some_iff]
  split
  · next rest =>
    constructor
    · intro h
      exact ⟨['+'], by simp [signs], rest, rfl, h⟩
    · rintro ⟨sign, hsign, t, heq, h⟩
      rcases mem_signs.mp hsign with rfl | rfl
      · rw [List.nil_append] at heq
        obtain ⟨d, -, hd⟩ := h.exists_isDigitOf '+' (heq ▸ List.mem_cons_self)
        exact absurd hd (not_isDigitOf (by simp) d)
      · cases heq
        exact h
  · next hplus =>
    constructor
    · intro h
      exact ⟨[], by simp [signs], s, rfl, h⟩
    · rintro ⟨sign, hsign, t, rfl, h⟩
      rcases mem_signs.mp hsign with rfl | rfl
      · exact h
      · exact absurd rfl (hplus t)

/-- A byte literal is read as the byte that it names. -/
theorem byteLiteral?_eq_some_iff {s : List Char} {n : UInt8} :
    byteLiteral? s = some n ↔ NamesByte signs s n := by
  have hmark {mark : Char} (hmark : mark = 'x' ∨ mark = 'X') (rest : List Char) :
      hexByte? rest = some n ↔ NamesByte signs ('0' :: mark :: rest) n := by
    rw [hexByte?_eq_some_iff]
    constructor
    · rintro ⟨sign, hsign, t, rfl, h⟩
      exact .hexadecimal hmark hsign h
    · intro h
      cases h with
      | decimal h =>
        obtain ⟨d, -, hd⟩ := h.exists_isDigitOf mark (by simp)
        rcases hmark with rfl | rfl <;> exact absurd hd (not_isDigitOf (by simp) d)
      | hexadecimal _ hsign h => exact ⟨_, hsign, _, rfl, h⟩
  unfold byteLiteral?
  split
  · exact hmark (.inl rfl) _
  · exact hmark (.inr rfl) _
  · next hx hX =>
    rw [readDecimal?_eq_some_iff]
    constructor
    · exact .decimal
    · intro h
      cases h with
      | decimal h => exact h
      | hexadecimal hmark =>
        rcases hmark with rfl | rfl
        · exact absurd rfl (hx _)
        · exact absurd rfl (hX _)

end NodeAtlas.Text
