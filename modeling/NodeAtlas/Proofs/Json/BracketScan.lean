import Mathlib.Order.Bounds.Basic
import NodeAtlas.Json.Reader
import NodeAtlas.Proofs.Text.Encoding

/-!
The end of a container, byte by byte. A scan that minds strings and counts open brackets stops behind the
first bracket that leaves none open, and meets no bracket to be closed while none is open.
-/

namespace NodeAtlas.Json

open Text

def isOpening (c : Char) : Bool := c = '\x7b' || c = '['

def isClosing (c : Char) : Bool := c = '\x7d' || c = ']'

/-! ## Scanning by offsets -/

/-- The offset where the scan from an offset on ends, by the number of brackets that are open there. In a
string, a backslash takes the next byte with it. There is none if a bracket is closed while none is open. -/
def closing? (bs : List UInt8) (inString : Bool) (opened o : Nat) : Option Nat :=
  if _h : o < bs.length then
    let c := Char.ofUInt8 bs[o]
    match inString with
    | true =>
      if c = '\\' then closing? bs true opened (min (o + 2) bs.length)
      else closing? bs (c ≠ '"') opened (o + 1)
    | false =>
      if c = '"' then closing? bs true opened (o + 1)
      else if isOpening c then closing? bs false (opened + 1) (o + 1)
      else if isClosing c then
        match opened with
        | 0 => none
        | 1 => some (o + 1)
        | opened + 2 => closing? bs false (opened + 1) (o + 1)
      else closing? bs false opened (o + 1)
  else some o
termination_by bs.length - o

section Steps

variable {bs : List UInt8} {opened o : Nat}

theorem closing?_end (inString : Bool) (ho : ¬ o < bs.length) :
    closing? bs inString opened o = some o := by
  rw [closing?.eq_def, dif_neg ho]

theorem closing?_inside (ho : o < bs.length) : closing? bs true opened o =
    if Char.ofUInt8 bs[o] = '\\' then closing? bs true opened (min (o + 2) bs.length)
    else closing? bs (Char.ofUInt8 bs[o] ≠ '"') opened (o + 1) := by
  rw [closing?.eq_def, dif_pos ho]

theorem closing?_outside (ho : o < bs.length) : closing? bs false opened o =
    if Char.ofUInt8 bs[o] = '"' then closing? bs true opened (o + 1)
    else if isOpening (.ofUInt8 bs[o]) then closing? bs false (opened + 1) (o + 1)
    else if isClosing (.ofUInt8 bs[o]) then
      match opened with
      | 0 => none
      | 1 => some (o + 1)
      | opened + 2 => closing? bs false (opened + 1) (o + 1)
    else closing? bs false opened (o + 1) := by
  rw [closing?.eq_def, dif_pos ho]

end Steps

/-! ## The end of a container -/

/-- Where a byte stands: outside strings, in one, or in one behind a backslash. -/
inductive Place where
  | outside | inside | escaped
  deriving DecidableEq, Repr

def Place.next : Place → Char → Place
  | outside, c => if c = '"' then inside else outside
  | inside, c => if c = '\\' then escaped else if c = '"' then outside else inside
  | escaped, _ => inside

/-- Where the next byte of a scan stands, which takes escaped bytes with their backslash. -/
def Place.ofBool : Bool → Place
  | true => inside
  | false => outside

theorem Place.next_inside {c : Char} (h : c ≠ '\\') : inside.next c = .ofBool (c ≠ '"') := by
  by_cases hquote : c = '"' <;> simp [next, ofBool, h, hquote]

theorem Place.next_outside {c : Char} (h : c ≠ '"') : outside.next c = .ofBool false :=
  if_neg h

/-- Where the byte behind some others stands, and how many of them are brackets outside strings. -/
structure Reading where
  place : Place
  opened : Nat
  closed : Nat
  deriving DecidableEq, Repr

def Reading.next (r : Reading) (b : UInt8) : Reading :=
  let c := Char.ofUInt8 b
  ⟨r.place.next c, if r.place = .outside ∧ isOpening c then r.opened + 1 else r.opened,
    if r.place = .outside ∧ isClosing c then r.closed + 1 else r.closed⟩

/-- What has been read from one offset up to another, beginning outside strings. -/
def reading (bs : List UInt8) (start o : Nat) : Reading :=
  ((bs.drop start).take (o - start)).foldl Reading.next ⟨.outside, 0, 0⟩

/-- A closing bracket outside strings stands at an offset, and up to it as many are closed as opened. -/
structure ClosesAt (bs : List UInt8) (start o : Nat) : Prop where
  start_le : start ≤ o
  closing : ∃ b, bs[o]? = some b ∧ isClosing (.ofUInt8 b) = true
  outside : (reading bs start o).place = .outside
  balanced : (reading bs start (o + 1)).closed = (reading bs start (o + 1)).opened

/-- The offset behind the first such bracket, or the end if there is none. -/
def EndsAt (bs : List UInt8) (start stop : Nat) : Prop :=
  (∃ o, IsLeast {p | ClosesAt bs start p} o ∧ stop = o + 1) ∨
    (∀ p, ¬ ClosesAt bs start p) ∧ stop = bs.length

theorem EndsAt.unique {bs : List UInt8} {start o p : Nat} (ho : EndsAt bs start o)
    (hp : EndsAt bs start p) : o = p := by
  rcases ho with ⟨i, hi, rfl⟩ | ⟨hnone, rfl⟩
  · rcases hp with ⟨j, hj, rfl⟩ | ⟨hnone, -⟩
    · rw [hi.unique hj]
    · exact absurd hi.1 (hnone i)
  · rcases hp with ⟨j, hj, -⟩ | ⟨-, rfl⟩
    · exact absurd hj.1 (hnone j)
    · rfl

section Scan

variable {bs : List UInt8} {start o opened : Nat} {place : Place}

theorem reading_self (bs : List UInt8) (start : Nat) : reading bs start start = ⟨.outside, 0, 0⟩ := by
  rw [reading, Nat.sub_self, List.take_zero, List.foldl_nil]

theorem reading_succ (hle : start ≤ o) (h : o < bs.length) :
    reading bs start (o + 1) = (reading bs start o).next bs[o] := by
  have hget : (bs.drop start)[o - start]? = some bs[o] := by
    rw [List.getElem?_drop, Nat.add_sub_cancel' hle, List.getElem?_eq_getElem h]
  rw [reading, Nat.sub_add_comm hle, List.take_add_one, hget, Option.toList_some, List.foldl_append,
    List.foldl_cons, List.foldl_nil, reading]

/-- What the scan knows at an offset: where the next byte stands, how many more brackets have been opened
than closed, and that the container has not ended. At the end of the text no byte is next. -/
structure Scanned (bs : List UInt8) (start o opened : Nat) (place : Place) : Prop where
  start_le : start ≤ o
  le_length : o ≤ bs.length
  place_eq : o < bs.length → (reading bs start o).place = place
  opened_eq : (reading bs start o).opened = (reading bs start o).closed + opened
  not_closesAt : ∀ p < o, ¬ ClosesAt bs start p

theorem scanned_self (h : start ≤ bs.length) : Scanned bs start start 0 .outside where
  start_le := Nat.le_refl start
  le_length := h
  place_eq _ := by rw [reading_self]
  opened_eq := by rw [reading_self]
  not_closesAt p hp hclose := absurd hclose.start_le (Nat.not_le.mpr hp)

/-- While brackets are open, the container goes on. -/
theorem Scanned.next (h : Scanned bs start o opened place) (ho : o < bs.length) {opened' : Nat}
    (hpos : 0 < opened')
    (hcount : ((reading bs start o).next bs[o]).opened =
      ((reading bs start o).next bs[o]).closed + opened') :
    Scanned bs start (o + 1) opened' (place.next (.ofUInt8 bs[o])) where
  start_le := Nat.le_succ_of_le h.start_le
  le_length := ho
  place_eq _ := by rw [reading_succ h.start_le ho, Reading.next, h.place_eq ho]
  opened_eq := by rw [reading_succ h.start_le ho, hcount]
  not_closesAt p hp hclose := by
    rcases Nat.lt_succ_iff_lt_or_eq.mp hp with hlt | rfl
    · exact h.not_closesAt p hlt hclose
    · -- A bracket that ends the container leaves none open.
      have hbalanced := hclose.balanced
      rw [reading_succ h.start_le ho, hcount] at hbalanced
      omega

/-- Quotes and what stands in strings keep the count. -/
theorem Scanned.other (h : Scanned bs start o opened place) (ho : o < bs.length) (hpos : 0 < opened)
    (hc : place = .outside →
      isOpening (.ofUInt8 bs[o]) = false ∧ isClosing (.ofUInt8 bs[o]) = false) :
    Scanned bs start (o + 1) opened (place.next (.ofUInt8 bs[o])) := by
  have hkeep {test : Char → Bool} (htest : place = .outside → test (.ofUInt8 bs[o]) = false)
      (n : Nat) : (if place = .outside ∧ test (.ofUInt8 bs[o]) = true then n + 1 else n) = n :=
    if_neg fun hp => by simp [htest hp.1] at hp
  apply h.next ho hpos
  simp only [Reading.next, h.place_eq ho, hkeep fun hp => (hc hp).1, hkeep fun hp => (hc hp).2,
    h.opened_eq]

theorem isClosing_of_isOpening {c : Char} (h : isOpening c = true) : isClosing c = false := by
  simp only [isOpening, Bool.or_eq_true, decide_eq_true_eq] at h
  rcases h with rfl | rfl <;> rfl

theorem Scanned.opening (h : Scanned bs start o opened .outside) (ho : o < bs.length)
    (hc : isOpening (.ofUInt8 bs[o]) = true) :
    Scanned bs start (o + 1) (opened + 1) (Place.outside.next (.ofUInt8 bs[o])) := by
  apply h.next ho (Nat.succ_pos opened)
  simp [Reading.next, h.place_eq ho, hc, isClosing_of_isOpening hc, h.opened_eq, Nat.add_assoc]

theorem Scanned.closing (h : Scanned bs start o (opened + 2) .outside) (ho : o < bs.length)
    (hopen : ¬ isOpening (.ofUInt8 bs[o]) = true) (hc : isClosing (.ofUInt8 bs[o]) = true) :
    Scanned bs start (o + 1) (opened + 1) (Place.outside.next (.ofUInt8 bs[o])) := by
  apply h.next ho (Nat.succ_pos opened)
  simp [Reading.next, h.place_eq ho, hopen, hc, h.opened_eq]
  omega

/-- The bracket that leaves none open ends the container. -/
theorem Scanned.endsAt_succ (h : Scanned bs start o 1 .outside) (ho : o < bs.length)
    (hopen : ¬ isOpening (.ofUInt8 bs[o]) = true) (hc : isClosing (.ofUInt8 bs[o]) = true) :
    EndsAt bs start (o + 1) := by
  have hclose : ClosesAt bs start o := {
    start_le := h.start_le
    closing := ⟨bs[o], List.getElem?_eq_getElem ho, hc⟩
    outside := h.place_eq ho
    balanced := by
      rw [reading_succ h.start_le ho]
      simp [Reading.next, h.place_eq ho, hopen, hc, h.opened_eq] }
  exact .inl ⟨o, ⟨hclose, fun p hp => Nat.le_of_not_lt fun hlt => h.not_closesAt p hlt hp⟩, rfl⟩

/-- A backslash in a string takes the next byte with it, if there is one. -/
theorem Scanned.escape (h : Scanned bs start o opened .inside) (ho : o < bs.length)
    (hpos : 0 < opened) (hc : Char.ofUInt8 bs[o] = '\\') :
    Scanned bs start (min (o + 2) bs.length) opened .inside := by
  have hslash := h.other ho hpos (by simp)
  rw [hc] at hslash
  by_cases hnext : o + 1 < bs.length
  · rw [Nat.min_eq_left hnext]
    exact hslash.other hnext hpos (by simp [Place.next])
  · -- The backslash is the last byte, and the scan does not go beyond the end.
    have hend : min (o + 2) bs.length = o + 1 := by omega
    rw [hend]
    exact { hslash with place_eq := fun hlt => absurd hlt hnext }

/-- A container that is not closed goes to the end. -/
theorem Scanned.endsAt (h : Scanned bs start o opened place) (ho : ¬ o < bs.length) :
    EndsAt bs start o := by
  refine .inr ⟨fun p hclose => ?_, Nat.le_antisymm h.le_length (Nat.le_of_not_lt ho)⟩
  obtain ⟨b, hb, -⟩ := hclose.closing
  obtain ⟨hp, -⟩ := List.getElem?_eq_some_iff.mp hb
  exact h.not_closesAt p (by omega) hclose

/-- The scan gets to the end of the container, and no bracket is closed on the way while none is open. -/
theorem Scanned.exists_closing? {inString : Bool}
    (h : Scanned bs start o opened (.ofBool inString)) (hpos : 0 < opened) :
    ∃ stop, closing? bs inString opened o = some stop ∧ EndsAt bs start stop := by
  -- A bracket is open all along, so the scan never comes to the case in which the count fails.
  fun_induction closing? bs inString opened o with
  | case1 opened o ho c hslash ih => exact ih (h.escape ho hpos hslash) hpos
  | case2 opened o ho c hslash ih =>
    have hnext := h.other ho hpos (by simp [Place.ofBool])
    exact ih (Place.next_inside hslash ▸ hnext) hpos
  | case3 opened o ho c hquote ih =>
    have hnext := h.other ho hpos fun _ => by
      rw [show Char.ofUInt8 bs[o] = '"' from hquote]
      decide
    rw [show Char.ofUInt8 bs[o] = '"' from hquote] at hnext
    exact ih hnext hpos
  | case4 opened o ho c hquote hopen ih =>
    have hnext := Scanned.opening h ho hopen
    exact ih (Place.next_outside hquote ▸ hnext) (Nat.succ_pos opened)
  | case5 => cases hpos
  | case6 o ho c hquote hopen hclose =>
    exact ⟨o + 1, rfl, Scanned.endsAt_succ h ho hopen hclose⟩
  | case7 o ho c hquote hopen hclose opened ih =>
    have hnext := Scanned.closing h ho hopen hclose
    exact ih (Place.next_outside hquote ▸ hnext) (Nat.succ_pos opened)
  | case8 opened o ho c hquote hopen hclose ih =>
    have hnext := h.other ho hpos fun _ =>
      ⟨Bool.eq_false_iff.mpr hopen, Bool.eq_false_iff.mpr hclose⟩
    exact ih (Place.next_outside hquote ▸ hnext) hpos
  | case9 inString opened o ho => exact ⟨o, rfl, h.endsAt ho⟩

/-- A container begins with a bracket that is open from there on. -/
theorem exists_closing?_of_isOpening (ho : start < bs.length)
    (hc : isOpening (.ofUInt8 bs[start]) = true) :
    ∃ stop, closing? bs false 0 start = some stop ∧ EndsAt bs start stop := by
  have hquote : Char.ofUInt8 bs[start] ≠ '"' := fun h => by simp [h, isOpening] at hc
  have hfirst := (scanned_self (Nat.le_of_lt ho)).opening ho hc
  rw [Place.next_outside hquote] at hfirst
  rw [closing?_outside ho, if_neg hquote, if_pos hc]
  exact hfirst.exists_closing? Nat.one_pos

end Scan

end NodeAtlas.Json
