import NodeAtlas.Proofs.Json.BracketScan
import NodeAtlas.Proofs.Json.Lossless
import NodeAtlas.Proofs.Json.Tokens
import NodeAtlas.Proofs.Syntax.Arena

/-!
Containers that there is no room for. The scan of the bytes of such a container ends where the scan of its
characters ends, between two characters, and what lies in between becomes one node without children.
-/

namespace NodeAtlas.Json

open Text

/-! ## Reading by offsets -/

/-- The next offset at which a character starts. -/
def settle (bs : List UInt8) (o : Nat) : Nat := o + ((bs.drop o).takeWhile isContinuation).length

/-- Adds the container at an offset as one node, and says where reading goes on. There is no result if
the count of open brackets falls below zero. -/
def tooDeep? (t : SyntaxTree) (parent start : Nat) : Option (SyntaxTree × Nat) := do
  let stop := settle (utf8 t.text) (← closing? (utf8 t.text) false 0 start)
  return (t.push "ERROR" true start stop (some parent), stop)

/-! ## Characters -/

/-- The characters at which a scan does more than move on. -/
def isSpecial (inString : Bool) (c : Char) : Bool :=
  c = '"' || if inString then c = '\\' else isOpening c || isClosing c

theorem isAscii_of_isOpening {c : Char} (h : isOpening c = true) : IsAscii c := by
  simp only [isOpening, Bool.or_eq_true, decide_eq_true_eq] at h
  rcases h with rfl | rfl <;> decide

theorem isAscii_of_isClosing {c : Char} (h : isClosing c = true) : IsAscii c := by
  simp only [isClosing, Bool.or_eq_true, decide_eq_true_eq] at h
  rcases h with rfl | rfl <;> decide

theorem isAscii_of_isSpecial {inString : Bool} {c : Char} (h : isSpecial inString c = true) :
    IsAscii c := by
  cases inString with
  | true =>
    simp only [isSpecial, if_true, Bool.or_eq_true, decide_eq_true_eq] at h
    rcases h with rfl | rfl <;> decide
  | false =>
    simp only [isSpecial, Bool.false_eq_true, if_false, Bool.or_eq_true, decide_eq_true_eq] at h
    rcases h with rfl | hopen | hclose
    · decide
    · exact isAscii_of_isOpening hopen
    · exact isAscii_of_isClosing hclose

/-- Bytes without a meaning are passed over. -/
theorem closing?_plain {inString : Bool} {bs a w z : List UInt8} (hbs : bs = a ++ (w ++ z))
    (hw : ∀ b ∈ w, isSpecial inString (.ofUInt8 b) = false) (opened : Nat) :
    closing? bs inString opened a.length = closing? bs inString opened (a.length + w.length) := by
  induction w generalizing a with
  | nil => rfl
  | cons b w ih =>
    obtain ⟨hb, hw⟩ := List.forall_mem_cons.mp hw
    have hget : bs[a.length]? = some b := by simp [hbs]
    obtain ⟨ho, hbyte⟩ := List.getElem?_eq_some_iff.mp hget
    have hnext : closing? bs inString opened a.length =
        closing? bs inString opened (a.length + 1) := by
      cases inString with
      | true =>
        rw [closing?_inside ho, hbyte]
        simp_all [isSpecial]
      | false =>
        rw [closing?_outside ho, hbyte]
        simp_all [isSpecial]
    have hmore := ih (a := a ++ [b]) (by simp [hbs]) hw
    rw [List.length_append, List.length_singleton, Nat.add_assoc, Nat.add_comm 1] at hmore
    exact hnext.trans hmore

section Characters

variable {s front rest : List Char} {opened : Nat}

theorem closing?_char {inString : Bool} {c : Char} (hs : s = front ++ c :: rest)
    (hc : isSpecial inString c = false) : closing? (utf8 s) inString opened (byteLength front) =
      closing? (utf8 s) inString opened (byteLength (front ++ [c])) := by
  have hw : ∀ b ∈ String.utf8EncodeChar c, isSpecial inString (.ofUInt8 b) = false :=
    fun b hb => (agrees_of_ascii (fun _ => isAscii_of_isSpecial) c b hb).trans hc
  have hbs : utf8 s = utf8 front ++ (String.utf8EncodeChar c ++ utf8 rest) := by
    rw [hs, utf8_append, utf8_cons]
  have hpass := closing?_plain hbs hw opened
  rw [length_utf8, String.length_utf8EncodeChar] at hpass
  rw [hpass, byteLength_append]
  rfl

theorem exists_getElem_ascii {c : Char} (hs : s = front ++ c :: rest) (hc : IsAscii c) :
    ∃ ho : byteLength front < (utf8 s).length, Char.ofUInt8 (utf8 s)[byteLength front] = c := by
  have hget : (utf8 s)[byteLength front]? = some c.toUInt8 := by
    have := getElem?_utf8_append front (c :: rest) 0
    rwa [← hs, utf8_cons_ascii hc] at this
  obtain ⟨ho, hbyte⟩ := List.getElem?_eq_some_iff.mp hget
  exact ⟨ho, by rw [hbyte, ofUInt8_toUInt8 hc]⟩

theorem byteLength_concat {c : Char} (hc : IsAscii c) (front : List Char) :
    byteLength (front ++ [c]) = byteLength front + 1 := by
  rw [byteLength_append, byteLength_cons, utf8Size_ascii hc, byteLength_nil]

theorem closing?_quote (inString : Bool) (hs : s = front ++ '"' :: rest) :
    closing? (utf8 s) inString opened (byteLength front) =
      closing? (utf8 s) (!inString) opened (byteLength (front ++ ['"'])) := by
  obtain ⟨ho, hbyte⟩ := exists_getElem_ascii hs (by decide)
  rw [byteLength_concat (by decide)]
  cases inString with
  | true =>
    rw [closing?_inside ho, hbyte]
    rfl
  | false =>
    rw [closing?_outside ho, hbyte]
    rfl

/-- Of a character behind a backslash only the first byte is taken, and the others mean nothing. -/
theorem closing?_escape {c : Char} (hs : s = front ++ '\\' :: c :: rest) :
    closing? (utf8 s) true opened (byteLength front) =
      closing? (utf8 s) true opened (byteLength (front ++ ['\\', c])) := by
  obtain ⟨ho, hbyte⟩ := exists_getElem_ascii hs (by decide)
  obtain ⟨b, more, hbytes, -, -, hmore⟩ := utf8EncodeChar_eq_cons c
  have hbs : utf8 s = utf8 front ++ ['\\'.toUInt8, b] ++ (more ++ utf8 rest) := by
    rw [hs, utf8_append, utf8_cons_ascii (by decide), utf8_cons, hbytes]
    simp
  have hwide : ∀ b ∈ more, isSpecial true (.ofUInt8 b) = false := fun b hb =>
    test_ofUInt8_wide (fun _ => isAscii_of_isSpecial) (le_toNat_of_isContinuation (hmore b hb))
  have hpass := closing?_plain hbs hwide opened
  have hle : byteLength front + 2 ≤ (utf8 s).length := by
    rw [hbs, ← length_utf8]
    simp
  have hlength := String.length_utf8EncodeChar c
  rw [hbytes, List.length_cons] at hlength
  rw [List.length_append, length_utf8] at hpass
  rw [closing?_inside ho, if_pos hbyte, Nat.min_eq_left hle]
  refine hpass.trans (congrArg _ ?_)
  rw [byteLength_append]
  show byteLength front + 2 + more.length = byteLength front + (1 + (c.utf8Size + 0))
  omega

theorem closing?_opening {c : Char} (hs : s = front ++ c :: rest) (hc : isOpening c = true) :
    closing? (utf8 s) false opened (byteLength front) =
      closing? (utf8 s) false (opened + 1) (byteLength (front ++ [c])) := by
  have hascii := isAscii_of_isOpening hc
  obtain ⟨ho, hbyte⟩ := exists_getElem_ascii hs hascii
  have hquote : c ≠ '"' := fun h => by simp [h, isOpening] at hc
  rw [byteLength_concat hascii, closing?_outside ho, hbyte, if_neg hquote, if_pos hc]

theorem closing?_closing {c : Char} (hs : s = front ++ c :: rest) (hc : isClosing c = true) :
    closing? (utf8 s) false (opened + 1) (byteLength front) =
      if opened = 0 then some (byteLength (front ++ [c]))
      else closing? (utf8 s) false opened (byteLength (front ++ [c])) := by
  have hascii := isAscii_of_isClosing hc
  obtain ⟨ho, hbyte⟩ := exists_getElem_ascii hs hascii
  have hquote : c ≠ '"' := fun h => by simp [h, isClosing] at hc
  have hopen : ¬ isOpening c = true := fun h => by simp [isClosing_of_isOpening h] at hc
  rw [byteLength_concat hascii, closing?_outside ho, hbyte, if_neg hquote, if_neg hopen, if_pos hc]
  cases opened <;> rfl

/-- The scan of the bytes ends where the scan of the characters ends. -/
theorem closing?_utf8 (hs : s = front ++ rest) (depth : Nat) (inString : Bool) :
    closing? (utf8 s) inString (depth + 1) (byteLength front) =
      some (byteLength s - byteLength (skipContainer depth inString rest)) := by
  fun_induction skipContainer depth inString rest generalizing front with
  | case1 depth inString =>
    rw [closing?_end inString (by simp [hs, length_utf8])]
    simp [hs]
  | case2 depth =>
    -- Behind the backslash there is no byte to take.
    obtain ⟨ho, hbyte⟩ := exists_getElem_ascii hs (by decide)
    have hend : (utf8 s).length = byteLength front + 1 := by
      rw [length_utf8, hs, byteLength_concat (by decide)]
    rw [closing?_inside ho, if_pos hbyte, closing?_end true (by omega), Nat.min_eq_right (by omega),
      length_utf8]
    rfl
  | case3 depth c rest ih =>
    rw [closing?_escape hs]
    exact ih (by simp [hs])
  | case4 depth c rest hslash ih =>
    by_cases hquote : c = '"'
    · subst hquote
      rw [closing?_quote true hs]
      exact ih (by simp [hs])
    · -- A wide character is passed over byte by byte.
      have hplain : isSpecial true c = false := by simp [isSpecial, hslash, hquote]
      have hsplit : s = front ++ [c] ++ rest := by simp [hs]
      have hmore := ih hsplit
      rw [closing?_char hs hplain]
      simpa [hquote] using hmore
  | case5 depth inString rest hplain ih =>
    obtain rfl : inString = false := by simpa using hplain
    rw [closing?_quote false hs]
    exact ih (by simp [hs])
  | case6 depth inString c rest hplain hquote hopen ih =>
    obtain rfl : inString = false := by simpa using hplain
    rw [closing?_opening hs hopen]
    exact ih (by simp [hs])
  | case7 inString c rest hplain hquote hopen hclose =>
    obtain rfl : inString = false := by simpa using hplain
    have hlength : byteLength s = byteLength (front ++ [c]) + byteLength rest := by
      rw [← byteLength_append, hs, List.append_assoc, List.singleton_append]
    rw [closing?_closing hs hclose, if_pos rfl, hlength, Nat.add_sub_cancel]
  | case8 inString c rest hplain hquote hopen hclose depth ih =>
    obtain rfl : inString = false := by simpa using hplain
    rw [closing?_closing hs hclose, if_neg (Nat.succ_ne_zero depth)]
    exact ih (by simp [hs])
  | case9 depth inString c rest hplain hquote hopen hclose ih =>
    obtain rfl : inString = false := by simpa using hplain
    have hother : isSpecial false c = false := by
      simp_all [isSpecial, isOpening, isClosing]
    rw [closing?_char hs hother]
    exact ih (by simp [hs])

end Characters

theorem settle_utf8 (front rest : List Char) :
    settle (utf8 (front ++ rest)) (byteLength front) = byteLength front := by
  rw [settle, utf8_append, ← length_utf8, List.drop_left]
  cases rest with
  | nil => rfl
  | cons c rest =>
    obtain ⟨b, more, hbytes, hfirst, -⟩ := utf8EncodeChar_eq_cons c
    rw [utf8_cons, hbytes, List.cons_append, List.takeWhile_cons_of_neg (by simp [hfirst])]
    rfl

/-! ## Nodes -/

section Nodes

variable {text : List Char} {s : Cursor} {c : Char} {rest : List Char}

theorem Cursor.Reaches.exists_front (hs : (Cursor.start text).Reaches s)
    (hrest : s.rest = c :: rest) :
    ∃ front, text = front ++ c :: rest ∧ s.offset = byteLength front := by
  obtain ⟨front, htext, hoffset⟩ := hs
  exact ⟨front, htext.trans (congrArg (front ++ ·) hrest), hoffset.trans (Nat.zero_add _)⟩

/-- What is left behind the container, and where it is in the text. -/
theorem exists_tooDeep (hs : (Cursor.start text).Reaches s) (hrest : s.rest = c :: rest) :
    ∃ front, text = front ++ skipContainer 0 false rest ∧
      (tooDeep s).2 = ⟨byteLength front, skipContainer 0 false rest⟩ := by
  obtain ⟨before, htext, hoffset⟩ := hs.exists_front hrest
  obtain ⟨inside, hinside⟩ := skipContainer_suffix 0 false rest
  have hcursor : s = ⟨byteLength before, (c :: inside) ++ skipContainer 0 false rest⟩ := by
    rw [List.cons_append, hinside, ← hrest, ← hoffset]
  have hlength : s.rest.length - (skipContainer 0 false rest).length = (c :: inside).length := by
    rw [hcursor, List.length_append, Nat.add_sub_cancel]
  have hstop : (tooDeep s).2 = s.forward (s.rest.length - (skipContainer 0 false rest).length) := by
    simp only [tooDeep, hrest, List.drop_one, List.tail_cons]
  refine ⟨before ++ c :: inside, ?_, ?_⟩
  · rw [htext, List.append_assoc, List.cons_append, hinside]
  · rw [hstop, hlength, hcursor, Cursor.forward_append, byteLength_append]

theorem closing?_tooDeep (hs : (Cursor.start text).Reaches s) (hrest : s.rest = c :: rest)
    (hc : isOpening c = true) :
    closing? (utf8 text) false 0 s.offset = some (tooDeep s).2.offset := by
  obtain ⟨before, htext, hoffset⟩ := hs.exists_front hrest
  obtain ⟨front, hfront, hstop⟩ := exists_tooDeep hs hrest
  have hsplit : text = before ++ [c] ++ rest := by
    rw [htext, List.append_assoc, List.singleton_append]
  have hlength : byteLength text = byteLength front + byteLength (skipContainer 0 false rest) := by
    rw [← byteLength_append, ← hfront]
  rw [hoffset, closing?_opening htext hc, closing?_utf8 hsplit 0 false, hstop, hlength,
    Nat.add_sub_cancel]

/-- The end that the scan finds is the end of the container. -/
theorem endsAt_tooDeep (hs : (Cursor.start text).Reaches s) (hrest : s.rest = c :: rest)
    (hc : isOpening c = true) : EndsAt (utf8 text) s.offset (tooDeep s).2.offset := by
  obtain ⟨before, htext, hoffset⟩ := hs.exists_front hrest
  obtain ⟨ho, hbyte⟩ := exists_getElem_ascii htext (isAscii_of_isOpening hc)
  obtain ⟨stop, hstop, hends⟩ := exists_closing?_of_isOpening ho (by rw [hbyte, hc])
  rw [← hoffset, closing?_tooDeep hs hrest hc, Option.some.injEq] at hstop
  rwa [hoffset, hstop]

theorem tooDeep?_eq {t : SyntaxTree} (parent : Nat) (hs : (Cursor.start t.text).Reaches s)
    (hrest : s.rest = c :: rest) (hc : isOpening c = true) :
    tooDeep? t parent s.offset =
      some ((tooDeep s).1.place (some parent) t, (tooDeep s).2.offset) := by
  obtain ⟨front, hfront, hstop⟩ := exists_tooDeep hs hrest
  have hsettle : settle (utf8 t.text) (tooDeep s).2.offset = (tooDeep s).2.offset := by
    rw [hstop, hfront]
    exact settle_utf8 front _
  simp only [tooDeep?, closing?_tooDeep hs hrest hc, Option.bind_eq_bind, Option.bind_some, hsettle]
  rfl

theorem value_zero (hrest : s.rest = c :: rest) (hc : isOpening c = true) :
    value 0 s = tooDeep s := by
  rw [value, hrest, if_pos]
  simpa [isOpening] using hc

/-- A container that begins at a cursor is cut off at an offset. It ends there and nowhere else, and it is
one node without children: when it is added to a tree, and in the tree of the whole text. -/
structure CutOff (text : List Char) (s : Cursor) (stop : Nat) : Prop where
  ends : ∀ o, EndsAt (utf8 text) s.offset o ↔ o = stop
  boundary : IsBoundary text stop
  added : ∀ (t : SyntaxTree) (parent : Nat), t.text = text → parent < t.size →
    ∃ t', tooDeep? t parent s.offset = some (t', stop) ∧
      t' = (tooDeep s).1.place (some parent) t ∧
      t'.node? t.size = some ⟨"ERROR", true, s.offset, stop, some parent, []⟩
  kept : (tooDeep s).1.Within (read text) → ∃ id parent,
    (parse text).node? id = some ⟨"ERROR", true, s.offset, stop, parent, []⟩

/-- A container that there is no room for is cut off where it ends. Scanning it by offsets gives a result,
so the count of open brackets never falls below zero. -/
theorem cutOff_tooDeep (hs : (Cursor.start text).Reaches s) (hrest : s.rest = c :: rest)
    (hc : isOpening c = true) :
    value 0 s = tooDeep s ∧ CutOff text s (tooDeep s).2.offset := by
  have hends := endsAt_tooDeep hs hrest hc
  refine ⟨value_zero hrest hc, fun o => ⟨fun ho => ho.unique hends, ?_⟩, ?_, ?_, ?_⟩
  · rintro rfl
    exact hends
  · obtain ⟨front, hfront, hstop⟩ := exists_tooDeep hs hrest
    exact ⟨front, _, hfront, by rw [hstop]⟩
  · rintro t parent rfl hparent
    refine ⟨_, tooDeep?_eq parent hs hrest hc, rfl, ?_⟩
    show (t.push "ERROR" true s.offset (tooDeep s).2.offset (some parent)).node? t.size = _
    rw [SyntaxTree.node?_push _ _ _ _ _ (by simpa using hparent), if_pos rfl]
  · intro hwithin
    obtain ⟨parent, id, -, hold⟩ := (Tree.holds_place (read text) text).exists_of_within hwithin
    exact ⟨id, parent, hold.node?_eq⟩

/-- A container behind a wide character, with brackets of both shapes and, in a string, a closing bracket
and an escaped wide character. -/
def mixedText : List Char :=
  ['ü', '[', '\x7b', '"', ']', '\\', 'é', '"', ']', '\x7d', ' ', 'é']

/-- A container that the text ends in, behind a backslash. -/
def openText : List Char := ['\x7b', '[', ']', '"', '\x7d', '\\']

theorem cutOff_tooDeep_mixedText :
    (Cursor.start mixedText).Reaches ⟨2, mixedText.tail⟩ ∧
      mixedText.tail = '[' :: mixedText.tail.tail ∧ isOpening '[' = true ∧
      CutOff mixedText ⟨2, mixedText.tail⟩ 12 ∧
      (Cursor.start openText).Reaches ⟨0, openText⟩ ∧ openText = '\x7b' :: openText.tail ∧
      isOpening '\x7b' = true ∧ CutOff openText ⟨0, openText⟩ 6 ∧
      ∃ t, tooDeep? ((⟨openText, #[]⟩ : SyntaxTree).push "document" true 0 6 none) 0 0 =
        some (t, 6) := by
  have hmixed : (Cursor.start mixedText).Reaches ⟨2, mixedText.tail⟩ := ⟨['ü'], rfl, rfl⟩
  have hopen : (Cursor.start openText).Reaches ⟨0, openText⟩ := Cursor.reaches_refl _
  obtain ⟨-, hcut⟩ := cutOff_tooDeep hmixed rfl (show isOpening '[' = true from rfl)
  obtain ⟨-, hcut'⟩ := cutOff_tooDeep hopen rfl (show isOpening '\x7b' = true from rfl)
  rw [show (tooDeep ⟨2, mixedText.tail⟩).2.offset = 12 by decide] at hcut
  rw [show (tooDeep ⟨0, openText⟩).2.offset = 6 by decide] at hcut'
  obtain ⟨t, hadded, -⟩ :=
    hcut'.added ((⟨openText, #[]⟩ : SyntaxTree).push "document" true 0 6 none) 0 rfl (by decide)
  exact ⟨hmixed, rfl, rfl, hcut, hopen, rfl, rfl, hcut', t, hadded⟩

end Nodes

end NodeAtlas.Json
