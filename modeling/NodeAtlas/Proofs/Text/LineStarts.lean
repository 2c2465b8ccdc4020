import Mathlib.Data.List.Basic
import NodeAtlas.Text.LineStarts

/-!
What bisection finds in a text. The starts of its lines ascend, so the line of an offset is the last that
starts there or before, and as many lines start up to an offset as line feeds stand in front of it.
-/

namespace NodeAtlas

namespace Text

/-- A line feed ends its line when a byte follows it. -/
def breaksAt (bs : List UInt8) (i : Nat) : Bool := bs[i]? = some 10 && i + 1 < bs.length

theorem breaksAt_of_isContinuation {bs : List UInt8} {i : Nat} {b : UInt8} (hb : bs[i]? = some b)
    (h : isContinuation b = true) : breaksAt bs i = false := by
  have hne : b ≠ 10 := by
    rintro rfl
    exact absurd h (by decide)
  simp [breaksAt, hb, hne]

theorem lt_length_of_breaksAt {bs : List UInt8} {i : Nat} (h : breaksAt bs i = true) :
    i < bs.length := by
  rw [breaksAt, Bool.and_eq_true, decide_eq_true_iff, decide_eq_true_iff] at h
  exact Nat.lt_of_succ_lt h.2

/-! ## Starts of lines -/

theorem startsFrom_eq (offset : Nat) (bs : List UInt8) : startsFrom offset bs =
    ((List.range bs.length).filter (breaksAt bs)).map (offset + · + 1) := by
  induction bs generalizing offset with
  | nil => rfl
  | cons b bs ih =>
    have hfirst : breaksAt (b :: bs) 0 = true ↔ b = 10 ∧ bs ≠ [] := by
      simp [breaksAt, List.length_pos_iff]
    have hshift : breaksAt (b :: bs) ∘ Nat.succ = breaksAt bs := by
      funext i
      simp [breaksAt]
    have hoffset : (offset + · + 1) ∘ Nat.succ = (offset + 1 + · + 1) := by
      funext i
      show offset + (i + 1) + 1 = offset + 1 + i + 1
      omega
    rw [startsFrom, List.length_cons, List.range_succ_eq_map, List.filter_cons, List.filter_map,
      hshift, ih]
    by_cases hb : b = 10 ∧ bs ≠ []
    · rw [if_pos hb, if_pos (hfirst.mpr hb), List.map_cons, List.map_map, hoffset, Nat.add_zero]
    · rw [if_neg hb, if_neg (mt hfirst.mp hb), List.map_map, hoffset]

theorem toList_lineStarts (bs : List UInt8) : (lineStarts bs).toList =
    0 :: ((List.range bs.length).filter (breaksAt bs)).map (· + 1) := by
  simp [lineStarts, startsFrom_eq]

/-- Lines start at the beginning and behind breaks. -/
theorem mem_lineStarts {bs : List UInt8} {s : Nat} :
    s ∈ lineStarts bs ↔ s = 0 ∨ ∃ i, s = i + 1 ∧ breaksAt bs i = true := by
  rw [← Array.mem_toList_iff, toList_lineStarts, List.mem_cons, List.mem_map]
  refine or_congr_right (exists_congr fun i => ?_)
  rw [List.mem_filter, List.mem_range]
  constructor
  · rintro ⟨⟨-, hbreak⟩, rfl⟩
    exact ⟨rfl, hbreak⟩
  · rintro ⟨rfl, hbreak⟩
    exact ⟨⟨lt_length_of_breaksAt hbreak, hbreak⟩, rfl⟩

theorem lineStarts_pairwise (bs : List UInt8) : (lineStarts bs).toList.Pairwise (· < ·) := by
  rw [toList_lineStarts, List.pairwise_cons, List.pairwise_map]
  constructor
  · intro s hs
    obtain ⟨i, -, rfl⟩ := List.mem_map.mp hs
    exact Nat.succ_pos i
  · exact (List.pairwise_lt_range.filter _).imp Nat.succ_lt_succ

/-- Up to an offset, lines start at the beginning and behind each break in front of it. -/
theorem countP_lineStarts {bs : List UInt8} {o : Nat} (h : o ≤ bs.length) :
    (lineStarts bs).toList.countP (· ≤ o) = 1 + (List.range o).countP (breaksAt bs) := by
  obtain ⟨k, hk⟩ := Nat.exists_eq_add_of_le h
  have hfront : (List.range o).countP (fun i => decide (i + 1 ≤ o) && breaksAt bs i) =
      (List.range o).countP (breaksAt bs) := by
    refine List.countP_congr fun i hi => ?_
    have hlt := List.mem_range.mp hi
    simp [Nat.succ_le_of_lt hlt]
  have hback : ((List.range k).map (o + ·)).countP
      (fun i => decide (i + 1 ≤ o) && breaksAt bs i) = 0 := by
    rw [List.countP_eq_zero]
    intro i hi
    obtain ⟨j, -, rfl⟩ := List.mem_map.mp hi
    have hlt : ¬ o + j + 1 ≤ o := by omega
    simp [hlt]
  rw [toList_lineStarts, List.countP_cons_of_pos (by simp), List.countP_map, List.countP_filter, hk,
    List.range_add, List.countP_append]
  simp only [Function.comp_apply]
  rw [hfront, hback, Nat.add_zero, Nat.add_comm]

/-! ## Bisection -/

/-- The entries up to a number are those in front of a place. -/
structure Parts (xs : Array Nat) (x n : Nat) : Prop where
  le_size : n ≤ xs.size
  le_iff : ∀ i (hi : i < xs.size), xs[i] ≤ x ↔ i < n

theorem Parts.countP_eq {xs : Array Nat} {x n : Nat} (h : Parts xs x n) :
    xs.toList.countP (· ≤ x) = n := by
  have hfront : (xs.toList.take n).countP (· ≤ x) = n := by
    have hlength : (xs.toList.take n).length = n := List.length_take_of_le h.le_size
    conv_rhs => rw [← hlength]
    rw [List.countP_eq_length]
    intro y hy
    obtain ⟨i, hi, rfl⟩ := List.mem_take_iff_getElem.mp hy
    rw [decide_eq_true_iff, Array.getElem_toList, h.le_iff]
    exact (Nat.lt_min.mp hi).1
  have hback : (xs.toList.drop n).countP (· ≤ x) = 0 := by
    rw [List.countP_eq_zero]
    intro y hy
    obtain ⟨i, hi, rfl⟩ := List.mem_drop_iff_getElem.mp hy
    rw [decide_eq_true_iff, Array.getElem_toList, h.le_iff]
    omega
  rw [← List.take_append_drop n xs.toList, List.countP_append, hfront, hback, Nat.add_zero]

theorem getElem_lt_of_pairwise {xs : Array Nat} (hxs : xs.toList.Pairwise (· < ·)) {i j : Nat}
    (hij : i < j) (hj : j < xs.size) : xs[i] < xs[j] :=
  List.pairwise_iff_getElem.mp hxs i j _ _ hij

/-- In an ascending array, bisection finds the place behind the entries up to a number. -/
theorem parts_bisect {xs : Array Nat} {x lo hi : Nat} {h : hi ≤ xs.size}
    (hxs : xs.toList.Pairwise (· < ·)) (hle : lo ≤ hi)
    (hbelow : ∀ i (hi : i < xs.size), i < lo → xs[i] < x)
    (habove : ∀ i (hi' : i < xs.size), hi ≤ i → x < xs[i]) :
    (∃ i, bisect xs x lo hi h = .ok i ∧ Parts xs x (i + 1)) ∨
      ∃ i, bisect xs x lo hi h = .error i ∧ Parts xs x i := by
  fun_induction bisect xs x lo hi h with
  | case1 lo hi h hlohi mid hmid hcmp =>
    left
    have heq : xs[mid] = x := Nat.compare_eq_eq.mp hcmp
    refine ⟨mid, rfl, hmid, fun i hi => ?_⟩
    rw [← heq]
    rcases Nat.lt_trichotomy i mid with hi' | rfl | hi'
    · have := getElem_lt_of_pairwise hxs hi' hmid
      omega
    · omega
    · have := getElem_lt_of_pairwise hxs hi' hi
      omega
  | case2 lo hi h hlohi mid hmid hcmp ih =>
    have hless : xs[mid] < x := Nat.compare_eq_lt.mp hcmp
    refine ih (by omega) (fun i hi hlo => ?_) habove
    rcases Nat.lt_succ_iff_lt_or_eq.mp hlo with hlo | rfl
    · exact Nat.lt_trans (getElem_lt_of_pairwise hxs hlo hmid) hless
    · exact hless
  | case3 lo hi h hlohi mid hmid hcmp ih =>
    have hmore : x < xs[mid] := Nat.compare_eq_gt.mp hcmp
    refine ih (by omega) hbelow (fun i hi hmi => ?_)
    rcases Nat.lt_or_eq_of_le hmi with hmi | rfl
    · exact Nat.lt_trans hmore (getElem_lt_of_pairwise hxs hmi hi)
    · exact hmore
  | case4 lo hi h hnot =>
    right
    obtain rfl : lo = hi := Nat.le_antisymm hle (Nat.le_of_not_lt hnot)
    refine ⟨lo, rfl, h, fun i hi => ?_⟩
    rcases Nat.lt_or_ge i lo with hi' | hi'
    · have := hbelow i hi hi'
      omega
    · have := habove i hi hi'
      omega

/-- The line of an offset is the last that starts there or before. -/
theorem parts_lineIndex {xs : Array Nat} {x : Nat} (hxs : xs.toList.Pairwise (· < ·))
    (hfirst : xs[0]? = some 0) : Parts xs x (lineIndex xs x + 1) := by
  have hparts := parts_bisect (h := Nat.le_refl xs.size) (x := x) hxs (Nat.zero_le _)
    (fun i _ hi => absurd hi (Nat.not_lt_zero i)) (fun i hi hi' => absurd hi (Nat.not_lt.mpr hi'))
  rcases hparts with ⟨i, heq, h⟩ | ⟨i, heq, h⟩
  · rw [lineIndex, heq]
    exact h
  · -- A line starts before every offset, so the place is not the first.
    obtain ⟨h0, hzero⟩ := Array.getElem?_eq_some_iff.mp hfirst
    have hpos : 0 < i := (h.le_iff 0 h0).mp (Nat.le_trans (Nat.le_of_eq hzero) (Nat.zero_le x))
    rw [lineIndex, heq]
    show Parts xs x (i - 1 + 1)
    rwa [Nat.sub_add_cancel hpos]

/-- Between the last start and an offset there is no break, for another line would start behind it. -/
theorem breaksAt_of_parts {bs : List UInt8} {o line i : Nat}
    (h : Parts (lineStarts bs) o (line + 1)) (hi : (lineStarts bs).getD line 0 ≤ i) (hio : i < o) :
    breaksAt bs i = false := by
  have hline : line < (lineStarts bs).size := h.le_size
  have hget : (lineStarts bs).getD line 0 = (lineStarts bs)[line] := by simp [hline]
  by_contra hbreak
  obtain ⟨j, hj, hji⟩ := Array.getElem_of_mem
    (mem_lineStarts.mpr (.inr ⟨i, rfl, Bool.of_not_eq_false hbreak⟩))
  have hjline := (h.le_iff j hj).mp (hji ▸ hio)
  rcases Nat.lt_succ_iff_lt_or_eq.mp hjline with hlt | rfl
  · have hstarts := getElem_lt_of_pairwise (lineStarts_pairwise bs) hlt hline
    omega
  · omega

end Text

namespace Position

open Text

/-! ## Positions -/

/-- The position of a place by the bytes in front of it. -/
structure Locates (bs : List UInt8) (o : Nat) (p : Position) : Prop where
  line : p.line = 1 + (List.range o).countP (breaksAt bs)
  /-- Columns are counted from the start of the line, behind the last break. -/
  column : ∃ start ≤ o, (start = 0 ∨ ∃ i, start = i + 1 ∧ breaksAt bs i = true) ∧
    (∀ i, start ≤ i → i < o → breaksAt bs i = false) ∧
      p.column = ((bs.take o).drop start).countP fun b => !isContinuation b

theorem Locates.unique {bs : List UInt8} {o : Nat} {p q : Position} (h : Locates bs o p)
    (h' : Locates bs o q) : p = q := by
  obtain ⟨hline, start, hstart, hbreak, hnone, hcolumn⟩ := h
  obtain ⟨hline', start', hstart', hbreak', hnone', hcolumn'⟩ := h'
  -- A later start would be behind a break that the earlier one has in its line.
  have hle {s s' : Nat} (hs' : s' ≤ o) (hb : s' = 0 ∨ ∃ i, s' = i + 1 ∧ breaksAt bs i = true)
      (hn : ∀ i, s ≤ i → i < o → breaksAt bs i = false) : s' ≤ s := by
    rcases hb with rfl | ⟨i, rfl, hi⟩
    · exact Nat.zero_le s
    · by_contra hlt
      have hno := hn i (by omega) (by omega)
      rw [hi] at hno
      cases hno
  obtain rfl := Nat.le_antisymm (hle hstart hbreak hnone') (hle hstart' hbreak' hnone)
  obtain ⟨line, column⟩ := p
  obtain ⟨line', column'⟩ := q
  exact congrArg₂ Position.mk (hline.trans hline'.symm) (hcolumn.trans hcolumn'.symm)

/-- Bisection locates the offsets of a text. -/
theorem locates_position (s : SourceText) (offset : Nat) :
    Locates (utf8 s.text) (min offset (utf8 s.text).length) (s.position offset) := by
  generalize ho : min offset (utf8 s.text).length = o
  have hle : o ≤ (utf8 s.text).length := ho ▸ Nat.min_le_right _ _
  have hpos : s.position offset = ⟨lineIndex (lineStarts (utf8 s.text)) o + 1,
      ((utf8 s.text).toArray.extract ((lineStarts (utf8 s.text)).getD
        (lineIndex (lineStarts (utf8 s.text)) o) 0) o).countP fun b => !isContinuation b⟩ := by
    rw [SourceText.position, s.bytes_eq, s.starts_eq, ← ho]
    rfl
  generalize utf8 s.text = bs at hle hpos
  have hparts := parts_lineIndex (x := o) (lineStarts_pairwise bs) rfl
  generalize lineIndex (lineStarts bs) o = line at hpos hparts
  have hline : line < (lineStarts bs).size := hparts.le_size
  have hget : (lineStarts bs).getD line 0 = (lineStarts bs)[line] := by simp [hline]
  rw [hpos]
  constructor
  · rw [← countP_lineStarts hle, hparts.countP_eq]
  · refine ⟨(lineStarts bs).getD line 0, ?_, ?_, fun i => breaksAt_of_parts hparts, ?_⟩
    · rw [hget, hparts.le_iff line hline]
      exact Nat.lt_succ_self line
    · rw [hget]
      exact mem_lineStarts.mp (Array.getElem_mem hline)
    · rw [← Array.countP_toList, Array.toList_extract, List.extract_eq_take_drop, List.drop_take]

theorem locates_ofOffset (text : List Char) (offset : Nat) :
    Locates (utf8 text) (min offset (utf8 text).length) (ofOffset text offset) :=
  locates_position (.ofText text) offset

end Position

end NodeAtlas
