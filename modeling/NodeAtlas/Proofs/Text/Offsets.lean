import NodeAtlas.Proofs.Text.LineStarts
import NodeAtlas.Text.Bytes

/-!
Positions of byte offsets. In the UTF-8 encoding of a text, one byte starts each character and the others
continue it. Positions change with the first byte of a character only, so between characters they are in
the order of their offsets.
-/

namespace NodeAtlas

namespace Text

/-- The end, or a byte that starts a character. -/
def IsCharBoundary (bs : List UInt8) (o : Nat) : Prop :=
  o = bs.length ∨ ∃ b, bs[o]? = some b ∧ isContinuation b = false

/-! ## Bytes of characters -/

theorem isContinuation_ofNat {n : Nat} (h : n < 256) :
    isContinuation (.ofNat n) = (128 ≤ n && n ≤ 191) := by
  have hall : ∀ n < 256, isContinuation (.ofNat n) = (128 ≤ n && n ≤ 191) := by decide +kernel
  exact hall n h

theorem ofNat_eq_lineFeed_iff {n : Nat} (h : n < 256) : UInt8.ofNat n = 10 ↔ n = 10 := by
  have hmod : n % 256 = n := Nat.mod_eq_of_lt h
  simp [← UInt8.toNat_inj, hmod]

theorem toNat_eq_lineFeed_iff (c : Char) : c.val.toNat = 10 ↔ c = '\n' := by
  rw [Char.ext_iff, ← UInt32.toNat_inj]
  rfl

/-- The first byte starts the character and tells whether it is a line feed. -/
theorem utf8EncodeChar_eq_cons (c : Char) : ∃ b more, String.utf8EncodeChar c = b :: more ∧
    isContinuation b = false ∧ (b = 10 ↔ c = '\n') ∧ ∀ b' ∈ more, isContinuation b' = true := by
  have hmore (n : Nat) : isContinuation (.ofNat (n % 64 + 128)) = true := by
    rw [isContinuation_ofNat (by omega)]
    simp
    omega
  have hfirst {n : Nat} (hn : n < 128 ∨ 192 ≤ n) (hn' : n < 256) :
      isContinuation (.ofNat n) = false := by
    rw [isContinuation_ofNat hn']
    simp
    omega
  have hlineFeed {n : Nat} (hn : 192 ≤ n) (hn' : n < 256) (hc : 127 < c.val.toNat) :
      UInt8.ofNat n = 10 ↔ c = '\n' := by
    rw [ofNat_eq_lineFeed_iff hn', ← toNat_eq_lineFeed_iff]
    omega
  unfold String.utf8EncodeChar
  dsimp only
  split
  · next h =>
    refine ⟨_, _, rfl, hfirst (by omega) (by omega), ?_, by simp⟩
    rw [ofNat_eq_lineFeed_iff (by omega), toNat_eq_lineFeed_iff]
  split
  · exact ⟨_, _, rfl, hfirst (by omega) (by omega), hlineFeed (by omega) (by omega) (by omega),
      List.forall_mem_singleton.mpr (hmore _)⟩
  split
  · exact ⟨_, _, rfl, hfirst (by omega) (by omega), hlineFeed (by omega) (by omega) (by omega),
      List.forall_mem_cons.mpr ⟨hmore _, List.forall_mem_singleton.mpr (hmore _)⟩⟩
  · exact ⟨_, _, rfl, hfirst (by omega) (by omega), hlineFeed (by omega) (by omega) (by omega),
      List.forall_mem_cons.mpr ⟨hmore _,
        List.forall_mem_cons.mpr ⟨hmore _, List.forall_mem_singleton.mpr (hmore _)⟩⟩⟩

theorem utf8_cons (c : Char) (text : List Char) :
    utf8 (c :: text) = String.utf8EncodeChar c ++ utf8 text :=
  List.flatMap_cons

theorem length_utf8 (text : List Char) : (utf8 text).length = byteLength text := by
  induction text with
  | nil => rfl
  | cons c text ih => rw [utf8_cons, List.length_append, ih, String.length_utf8EncodeChar,
      byteLength_cons]

theorem utf8_append (front s : List Char) : utf8 (front ++ s) = utf8 front ++ utf8 s :=
  List.flatMap_append

/-- Behind some characters, bytes are those of the rest. -/
theorem getElem?_utf8_append (front s : List Char) (n : Nat) :
    (utf8 (front ++ s))[byteLength front + n]? = (utf8 s)[n]? := by
  rw [utf8_append, List.getElem?_append_right (by rw [length_utf8]; omega), length_utf8,
    Nat.add_sub_cancel_left]

theorem breaksAt_utf8_append (front s : List Char) (n : Nat) :
    breaksAt (utf8 (front ++ s)) (byteLength front + n) = breaksAt (utf8 s) n := by
  have hend : byteLength front + n + 1 < (utf8 (front ++ s)).length ↔
      n + 1 < (utf8 s).length := by
    rw [utf8_append, List.length_append, length_utf8]
    omega
  rw [breaksAt, breaksAt, getElem?_utf8_append, decide_eq_decide.mpr hend]

/-- The bytes of the first character. The first of them starts it, and breaks a line when it is a line
feed with something behind it. -/
theorem bytes_utf8_cons (c : Char) (text : List Char) :
    (∃ b, (utf8 (c :: text))[0]? = some b ∧ isContinuation b = false) ∧
      (breaksAt (utf8 (c :: text)) 0 = true ↔ c = '\n' ∧ text ≠ []) ∧
      ∀ n, 0 < n → n < c.utf8Size →
        ∃ b, (utf8 (c :: text))[n]? = some b ∧ isContinuation b = true := by
  obtain ⟨b, more, hbytes, hstarts, hlineFeed, hmore⟩ := utf8EncodeChar_eq_cons c
  have hlength := String.length_utf8EncodeChar c
  rw [hbytes, List.length_cons] at hlength
  rw [utf8_cons, hbytes, List.cons_append]
  refine ⟨⟨b, rfl, hstarts⟩, ?_, fun n hpos hn => ?_⟩
  · have hbehind (hc : c = '\n') : 1 < (b :: (more ++ utf8 text)).length ↔ text ≠ [] := by
      have hsize : c.utf8Size = 1 := by
        rw [hc]
        rfl
      rw [List.length_cons, List.length_append, length_utf8]
      cases text with
      | nil =>
        simp only [byteLength_nil, ne_eq, not_true_eq_false, iff_false]
        omega
      | cons d text =>
        have hpos := byteLength_pos (List.cons_ne_nil d text)
        simp only [ne_eq, List.cons_ne_nil, not_false_eq_true, iff_true]
        omega
    rw [breaksAt, Bool.and_eq_true, decide_eq_true_iff, decide_eq_true_iff, Nat.zero_add,
      List.getElem?_cons_zero, Option.some.injEq, hlineFeed]
    exact and_congr_right hbehind
  · obtain ⟨m, rfl⟩ := Nat.exists_eq_succ_of_ne_zero (Nat.ne_of_gt hpos)
    have hm : m < more.length := by omega
    rw [List.getElem?_cons_succ, List.getElem?_append_left hm]
    exact ⟨more[m], List.getElem?_eq_getElem hm, hmore _ (List.getElem_mem hm)⟩

end Text

namespace Position

open Text

/-! ## One byte after another -/

/-- What one more byte changes. -/
def step (bs : List UInt8) (p : Position) (i : Nat) : Position :=
  if breaksAt bs i then ⟨p.line + 1, 0⟩
  else ⟨p.line, p.column + bs[i]?.toList.countP fun b => !isContinuation b⟩

theorem step_end {bs : List UInt8} {i : Nat} (h : bs.length ≤ i) (p : Position) :
    step bs p i = p := by
  simp [step, breaksAt, List.getElem?_eq_none h]

theorem step_of_isContinuation {bs : List UInt8} {i : Nat} {b : UInt8} (hb : bs[i]? = some b)
    (h : isContinuation b = true) (p : Position) : step bs p i = p := by
  simp [step, breaksAt_of_isContinuation hb h, hb, h]

/-- Lines and columns are counted on from one byte to the next. -/
theorem Locates.succ {bs : List UInt8} {o : Nat} {p : Position} (h : Locates bs o p)
    (ho : o < bs.length) : Locates bs (o + 1) (step bs p o) := by
  obtain ⟨hline, start, hstart, hbehind, hnone, hcolumn⟩ := h
  have hcount : (List.range (o + 1)).countP (breaksAt bs) =
      (List.range o).countP (breaksAt bs) + if breaksAt bs o then 1 else 0 := by
    rw [List.range_succ, List.countP_append, List.countP_singleton]
  cases hbreak : breaksAt bs o with
  | true =>
    rw [step, if_pos hbreak]
    refine ⟨?_, o + 1, Nat.le_refl _, .inr ⟨o, rfl, hbreak⟩, by omega, ?_⟩
    · rw [hcount, if_pos hbreak, hline, Nat.add_assoc]
    · rw [List.drop_eq_nil_of_le (List.length_take_le _ _)]
      rfl
  | false =>
    -- The line goes on with one more byte.
    have hno : ¬ breaksAt bs o = true := by simp [hbreak]
    have hslice : (bs.take (o + 1)).drop start = (bs.take o).drop start ++ bs[o]?.toList := by
      have hlength : start ≤ (bs.take o).length := by
        rw [List.length_take]
        omega
      rw [List.take_add_one, List.drop_append_of_le_length hlength]
    rw [step, if_neg hno]
    refine ⟨?_, start, Nat.le_succ_of_le hstart, hbehind, fun i hi hlt => ?_, ?_⟩
    · rw [hcount, if_neg hno, hline, Nat.add_zero]
    · rcases Nat.lt_succ_iff_lt_or_eq.mp hlt with hlt | rfl
      · exact hnone i hi hlt
      · exact hbreak
    · rw [hslice, List.countP_append, hcolumn]

theorem ofOffset_succ (text : List Char) (n : Nat) :
    ofOffset text (n + 1) = step (utf8 text) (ofOffset text n) n := by
  have hn := locates_ofOffset text n
  have hsucc := locates_ofOffset text (n + 1)
  rcases Nat.lt_or_ge n (utf8 text).length with hlt | hge
  · rw [Nat.min_eq_left (Nat.le_of_lt hlt)] at hn
    rw [Nat.min_eq_left hlt] at hsucc
    exact hsucc.unique (hn.succ hlt)
  · rw [Nat.min_eq_right hge] at hn
    rw [Nat.min_eq_right (Nat.le_succ_of_le hge)] at hsucc
    rw [step_end hge]
    exact hsucc.unique hn

theorem ofOffset_zero (text : List Char) : ofOffset text 0 = start := by
  refine (locates_ofOffset text 0).unique ?_
  rw [Nat.zero_min]
  exact ⟨rfl, 0, Nat.le_refl 0, .inl rfl, by omega, rfl⟩

/-- Behind a character there is the next column or, if it breaks the line, the next line. -/
theorem ofOffset_char (front : List Char) (c : Char) (rest : List Char) :
    ofOffset (front ++ c :: rest) (byteLength front + c.utf8Size) =
      if c = '\n' ∧ rest ≠ [] then
        ⟨(ofOffset (front ++ c :: rest) (byteLength front)).line + 1, 0⟩
      else
        ⟨(ofOffset (front ++ c :: rest) (byteLength front)).line,
          (ofOffset (front ++ c :: rest) (byteLength front)).column + 1⟩ := by
  obtain ⟨⟨b, hb, hstarts⟩, hbreaks, hmore⟩ := bytes_utf8_cons c rest
  rw [← getElem?_utf8_append front] at hb
  rw [← breaksAt_utf8_append front] at hbreaks
  -- The first byte makes the difference, and the others none.
  have hfirst : ofOffset (front ++ c :: rest) (byteLength front + 1) =
      ofOffset (front ++ c :: rest) (byteLength front + c.utf8Size) := by
    have hsame (n : Nat) (hn : n < c.utf8Size) :
        ofOffset (front ++ c :: rest) (byteLength front + (n + 1)) =
          ofOffset (front ++ c :: rest) (byteLength front + 1) := by
      induction n with
      | zero => rfl
      | succ n ih =>
        obtain ⟨b', hb', hcontinues⟩ := hmore (n + 1) (Nat.succ_pos n) hn
        rw [← getElem?_utf8_append front] at hb'
        rw [← Nat.add_assoc, ofOffset_succ, step_of_isContinuation hb' hcontinues,
          ih (Nat.lt_of_succ_lt hn)]
    have hpos := c.utf8Size_pos
    have hlast := hsame (c.utf8Size - 1) (by omega)
    rw [Nat.sub_add_cancel hpos] at hlast
    exact hlast.symm
  rw [← hfirst, ofOffset_succ, step]
  rw [Nat.add_zero] at hb hbreaks
  simp [hb, hstarts, hbreaks]

/-! ## Order -/

theorem step_le (bs : List UInt8) (p : Position) (i : Nat) : p.le (step bs p i) = true := by
  rw [le_iff, step]
  split
  · exact .inl (Nat.lt_succ_self _)
  · exact .inr ⟨rfl, Nat.le_add_right _ _⟩

/-- A byte that starts a character leads on. -/
theorem lt_step {bs : List UInt8} {i : Nat} {b : UInt8} (hb : bs[i]? = some b)
    (h : isContinuation b = false) (p : Position) : p < step bs p i := by
  rw [lt_iff, step]
  split
  · exact .inl (Nat.lt_succ_self _)
  · exact .inr ⟨rfl, by simp [hb, h]⟩

theorem ofOffset_le (text : List Char) {o o' : Nat} (h : o ≤ o') :
    (ofOffset text o).le (ofOffset text o') = true := by
  induction h with
  | refl => exact le_iff.mpr (.inr ⟨rfl, Nat.le_refl _⟩)
  | step _ ih =>
    rw [ofOffset_succ]
    exact le_trans _ _ _ ih (step_le _ _ _)

theorem ofOffset_lt {text : List Char} {o o' : Nat} (h : IsCharBoundary (utf8 text) o)
    (ho : o < o') (ho' : o' ≤ (utf8 text).length) : ofOffset text o < ofOffset text o' := by
  rcases h with rfl | ⟨b, hb, hstarts⟩
  · exact absurd ho (Nat.not_lt.mpr ho')
  · have hle := ofOffset_le text (Nat.succ_le_of_lt ho)
    have hlt := lt_step hb hstarts (ofOffset text o)
    rw [ofOffset_succ] at hle
    exact lt_of_lt_of_le hlt hle

theorem le_length_of_isCharBoundary {bs : List UInt8} {o : Nat} (h : IsCharBoundary bs o) :
    o ≤ bs.length := by
  rcases h with rfl | ⟨b, hb, -⟩
  · exact Nat.le_refl _
  · exact Nat.le_of_lt (List.getElem?_eq_some_iff.mp hb).1

/-- Lines and columns are what the bytes before an offset say, and between characters positions are in
the order of their offsets. -/
theorem ofOffset_utf8 (text : List Char) :
    (∀ offset, Locates (utf8 text) (min offset (utf8 text).length) (ofOffset text offset)) ∧
      ∀ o o', IsCharBoundary (utf8 text) o → IsCharBoundary (utf8 text) o' →
        (ofOffset text o < ofOffset text o' ↔ o < o') := by
  refine ⟨locates_ofOffset text, fun o o' h h' => ?_⟩
  constructor
  · intro hlt
    by_contra hge
    rcases Nat.lt_or_eq_of_le (Nat.le_of_not_lt hge) with hgt | rfl
    · have hgt := ofOffset_lt h' hgt (le_length_of_isCharBoundary h)
      exact ne_of_lt (lt_trans hlt hgt) rfl
    · exact ne_of_lt hlt rfl
  · intro hlt
    exact ofOffset_lt h hlt (le_length_of_isCharBoundary h')

/-- An offset inside a character has the position behind it; the next line is behind both. -/
theorem ofOffset_utf8_accented :
    Locates [0xC3, 0xA9, 10, 98] 1 ⟨1, 1⟩ ∧ IsCharBoundary [0xC3, 0xA9, 10, 98] 2 ∧
      IsCharBoundary [0xC3, 0xA9, 10, 98] 3 ∧
        ofOffset ['é', '\n', 'b'] 2 = ⟨1, 1⟩ ∧ ofOffset ['é', '\n', 'b'] 3 = ⟨2, 0⟩ ∧
          ofOffset ['é', '\n', 'b'] 2 < ofOffset ['é', '\n', 'b'] 3 := by
  have hbytes : utf8 ['é', '\n', 'b'] = [0xC3, 0xA9, 10, 98] := by decide
  obtain ⟨hlocates, horder⟩ := ofOffset_utf8 ['é', '\n', 'b']
  rw [hbytes] at hlocates horder
  have hbreak : IsCharBoundary [0xC3, 0xA9, 10, 98] 2 := .inr ⟨10, rfl, rfl⟩
  have hnext : IsCharBoundary [0xC3, 0xA9, 10, 98] 3 := .inr ⟨98, rfl, rfl⟩
  have hinside : ofOffset ['é', '\n', 'b'] 1 = ⟨1, 1⟩ := by decide +kernel
  exact ⟨hinside ▸ hlocates 1, hbreak, hnext, by decide +kernel, by decide +kernel,
    (horder 2 3 hbreak hnext).mpr (by decide)⟩

end Position

end NodeAtlas
