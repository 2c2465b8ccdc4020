import Mathlib.Data.List.Infix
import NodeAtlas.Text.Bytes

/-!
Slices of a text between byte offsets. There is a slice between any two character boundaries in order,
and between offsets further apart there is a longer one that has it inside.
-/

namespace NodeAtlas.Text

theorem splitAtByte?_eq_some_iff {n : Nat} {s a b : List Char} :
    splitAtByte? n s = some (a, b) ↔ s = a ++ b ∧ byteLength a = n := by
  constructor
  · intro h
    induction s generalizing n a with
    | nil =>
      cases n with
      | zero =>
        cases h
        exact ⟨rfl, rfl⟩
      | succ n => cases h
    | cons c s ih =>
      cases n with
      | zero =>
        cases h
        exact ⟨rfl, rfl⟩
      | succ n =>
        rw [splitAtByte?] at h
        split at h
        · next hle =>
          obtain ⟨⟨a', b'⟩, hsplit, heq⟩ := Option.map_eq_some_iff.mp h
          simp only [Prod.mk.injEq] at heq
          obtain ⟨rfl, rfl⟩ := heq
          obtain ⟨rfl, hlen⟩ := ih hsplit
          refine ⟨rfl, ?_⟩
          rw [byteLength_cons]
          omega
        · cases h
  · rintro ⟨rfl, rfl⟩
    exact splitAtByte?_append a b

theorem slice?_eq_some_iff {s w : List Char} {i j : Nat} : slice? s i j = some w ↔
    ∃ a b, s = a ++ (w ++ b) ∧ byteLength a = i ∧ byteLength a + byteLength w = j := by
  constructor
  · intro h
    unfold slice? at h
    split at h
    · next hij =>
      obtain ⟨⟨a, rest⟩, hsplit, h⟩ := Option.bind_eq_some_iff.mp h
      obtain ⟨⟨w', b⟩, hsplit', h⟩ := Option.bind_eq_some_iff.mp h
      cases h
      obtain ⟨rfl, hi⟩ := splitAtByte?_eq_some_iff.mp hsplit
      obtain ⟨rfl, hj⟩ := splitAtByte?_eq_some_iff.mp hsplit'
      exact ⟨a, b, rfl, hi, by omega⟩
    · cases h
  · rintro ⟨a, b, rfl, rfl, rfl⟩
    exact slice?_append a w b

theorem slice?_prefix (w t : List Char) : slice? (w ++ t) 0 (byteLength w) = some w :=
  slice?_eq_some_iff.mpr ⟨[], t, rfl, rfl, Nat.zero_add _⟩

theorem slice?_suffix (s w : List Char) :
    slice? (s ++ w) (byteLength s) (byteLength (s ++ w)) = some w :=
  slice?_eq_some_iff.mpr ⟨s, [], by rw [List.append_nil], rfl, (byteLength_append s w).symm⟩

/-- Of two beginnings of a text, the one with fewer bytes is a beginning of the other. -/
theorem prefix_of_byteLength_le {s p q : List Char} (hp : p <+: s) (hq : q <+: s)
    (h : byteLength p ≤ byteLength q) : p <+: q := by
  rcases List.prefix_or_prefix_of_prefix hp hq with hpq | ⟨r, rfl⟩
  · exact hpq
  · have hr : r = [] := by
      by_contra hne
      have hpos := byteLength_pos hne
      rw [byteLength_append] at h
      omega
    rw [hr, List.append_nil]

/-- An offset that cuts no character. -/
def DividesAt (s : List Char) (o : Nat) : Prop := (splitAtByte? o s).isSome = true

instance (s : List Char) (o : Nat) : Decidable (DividesAt s o) :=
  inferInstanceAs (Decidable ((splitAtByte? o s).isSome = true))

theorem dividesAt_iff {s : List Char} {o : Nat} :
    DividesAt s o ↔ ∃ a b, s = a ++ b ∧ byteLength a = o := by
  rw [DividesAt, Option.isSome_iff_exists, Prod.exists]
  simp only [splitAtByte?_eq_some_iff]

theorem exists_slice? {s : List Char} {i j : Nat} (hi : DividesAt s i) (hj : DividesAt s j)
    (hij : i ≤ j) : ∃ w, slice? s i j = some w := by
  obtain ⟨a, rest, hs, rfl⟩ := dividesAt_iff.mp hi
  obtain ⟨front, b, hs', rfl⟩ := dividesAt_iff.mp hj
  obtain ⟨w, rfl⟩ := prefix_of_byteLength_le ⟨rest, hs.symm⟩ ⟨b, hs'.symm⟩ hij
  refine ⟨w, slice?_eq_some_iff.mpr ⟨a, b, ?_, rfl, (byteLength_append a w).symm⟩⟩
  rw [hs', List.append_assoc]

/-- A slice is inside every slice around it. -/
theorem infix_of_slice? {s w w' : List Char} {i j i' j' : Nat} (h : slice? s i j = some w)
    (h' : slice? s i' j' = some w') (hi : i' ≤ i) (hj : j ≤ j') : w <:+: w' := by
  obtain ⟨a, b, hs, rfl, rfl⟩ := slice?_eq_some_iff.mp h
  obtain ⟨a', b', hs', rfl, rfl⟩ := slice?_eq_some_iff.mp h'
  obtain ⟨x, rfl⟩ : a' <+: a :=
    prefix_of_byteLength_le ⟨w' ++ b', hs'.symm⟩ ⟨w ++ b, hs.symm⟩ hi
  have hend : a' ++ x ++ w <+: a' ++ w' := by
    apply @prefix_of_byteLength_le s
    · exact ⟨b, by rw [hs, List.append_assoc]⟩
    · exact ⟨b', by rw [hs', List.append_assoc]⟩
    · rwa [byteLength_append, byteLength_append a' w']
  rw [List.append_assoc, List.prefix_append_right_inj] at hend
  exact (List.suffix_append x w).isInfix.trans hend.isInfix

end NodeAtlas.Text
