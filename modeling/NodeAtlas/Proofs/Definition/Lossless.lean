import Mathlib.Data.List.Forall2
import NodeAtlas.Proofs.Definition.ScannedChunks

/-!
Tokens are read without loss. The reader by offsets goes through every text in no more steps than the text
has bytes and one more, nothing goes wrong on the way, and it finds the tokens. Each token has all of its
text from one part of the input, which has nothing else but the marks of the token and blanks.
-/

namespace NodeAtlas.Definition

open Text

/-! ## Positions -/

/-- A break is a line feed of the text. -/
theorem exists_of_breaksAt {s : List Char} {i : Nat} (h : breaksAt (utf8 s) i = true) :
    ∃ front rest, s = front ++ '\n' :: rest ∧ byteLength front = i := by
  induction s generalizing i with
  | nil => simp [breaksAt, utf8] at h
  | cons c s ih =>
    obtain ⟨-, hbreaks, hmore⟩ := bytes_utf8_cons c s
    rcases Nat.lt_or_ge i c.utf8Size with hlt | hge
    · rcases Nat.eq_zero_or_pos i with rfl | hpos
      · obtain ⟨rfl, -⟩ := hbreaks.mp h
        exact ⟨[], s, rfl, rfl⟩
      · obtain ⟨b, hb, hcontinues⟩ := hmore i hpos hlt
        rw [breaksAt_of_isContinuation hb hcontinues] at h
        cases h
    · obtain ⟨n, rfl⟩ := Nat.exists_eq_add_of_le hge
      have hshift := breaksAt_utf8_append [c] s n
      rw [byteLength_cons, byteLength_nil, Nat.add_zero, List.singleton_append, h] at hshift
      obtain ⟨front, rest, rfl, rfl⟩ := ih hshift.symm
      exact ⟨c :: front, rest, rfl, rfl⟩

/-- Lines start between characters. -/
theorem dividesAt_of_mem_lineStarts {s : List Char} {o : Nat} (h : o ∈ lineStarts (utf8 s)) :
    DividesAt s o := by
  rw [dividesAt_iff]
  rcases mem_lineStarts.mp h with rfl | ⟨i, rfl, hbreak⟩
  · exact ⟨[], s, rfl, rfl⟩
  · obtain ⟨front, rest, rfl, rfl⟩ := exists_of_breaksAt hbreak
    exact ⟨front ++ ['\n'], rest, by simp, byteLength_append front ['\n']⟩

/-- The bytes between two places are those of the text in between. -/
theorem extract_utf8 (a w rest : List Char) :
    ((utf8 (a ++ (w ++ rest))).toArray.extract (byteLength a) (byteLength a + byteLength w)).toList =
      utf8 w := by
  rw [Array.toList_extract, List.extract_eq_take_drop, utf8_append, ← length_utf8 a, List.drop_left,
    Nat.add_sub_cancel_left, utf8_append, ← length_utf8 w, List.take_left]

theorem position?_eq (front rest : List Char) :
    position? (front ++ rest) (byteLength front) =
      some (.ofOffset (front ++ rest) (byteLength front)) := by
  have hle : byteLength front ≤ (utf8 (front ++ rest)).length := by
    rw [length_utf8, byteLength_append]
    exact Nat.le_add_right _ _
  have hparts := parts_lineIndex (x := byteLength front)
    (lineStarts_pairwise (utf8 (front ++ rest))) rfl
  rw [Position.ofOffset, SourceText.position, position?]
  simp only [SourceText.ofText, List.size_toArray, Nat.min_eq_left hle]
  generalize lineIndex (lineStarts (utf8 (front ++ rest))) (byteLength front) = line at hparts ⊢
  have hline : line < (lineStarts (utf8 (front ++ rest))).size := hparts.le_size
  obtain ⟨a, b, hs, ha⟩ := dividesAt_iff.mp (dividesAt_of_mem_lineStarts (Array.getElem_mem hline))
  have hstart : byteLength a ≤ byteLength front :=
    ha ▸ (hparts.le_iff line hline).mpr (Nat.lt_succ_self line)
  obtain ⟨w, rfl⟩ : a <+: front := prefix_of_byteLength_le ⟨b, hs.symm⟩ ⟨rest, rfl⟩ hstart
  have hget : (lineStarts (utf8 (a ++ w ++ rest)))[line]? = some (byteLength a) := by
    rw [ha]
    exact Array.getElem?_eq_getElem hline
  have hgetD : (lineStarts (utf8 (a ++ w ++ rest))).getD line 0 = byteLength a := by
    rw [Array.getD_eq_getD_getElem?, hget, Option.getD_some]
  rw [hget, hgetD, ← Array.countP_toList, List.append_assoc, byteLength_append, extract_utf8]
  simp only [slice?_append, Option.bind_eq_bind, Option.bind_some]
  rfl

/-! ## The whole text -/

section Steps

variable {s : List Char} {o : Nat}

/-- Bytes of wide characters are passed over, one by one. -/
theorem chunk?_wide {b : UInt8} (hb : 128 ≤ b.toNat) (steps : Nat) (next : Option UInt8) :
    chunk? s steps o b next = some ⟨none, o + 1⟩ := by
  have hne {c : Char} (hc : IsAscii c) : b ≠ c.toUInt8 := ne_toUInt8 hb hc
  have hword := test_ofUInt8_wide (fun _ => isAscii_of_isWordStart) hb
  simp only [chunk?, hne (show IsAscii '/' by decide), hne (show IsAscii '#' by decide),
    hne (show IsAscii '"' by decide), hne (show IsAscii '\'' by decide), hword, false_and, or_self,
    if_false, Option.bind_eq_bind, Option.bind_some, Bool.false_eq_true]
  rfl

theorem scan?_wide {w bs : List UInt8} (hw : ∀ b ∈ w, 128 ≤ b.toNat)
    (h : bytesFrom? s o = some (w ++ bs)) (steps : Nat) :
    scan? s (steps + w.length) o = scan? s steps (o + w.length) := by
  induction w generalizing o with
  | nil => rfl
  | cons b w ih =>
    obtain ⟨hb, hw⟩ := List.forall_mem_cons.mp hw
    rw [List.cons_append] at h
    have hgap := test_ofUInt8_wide (fun _ => isAscii_of_isGap) hb
    have hround : scan? s (steps + w.length + 1) o = scan? s (steps + w.length) (o + 1) := by
      have hpass : pass? s isGap o = some o := by
        rw [pass?, h, Option.map_some, passed, List.takeWhile_cons_of_neg (by simp [hgap])]
        rfl
      simp only [scan?, hpass, h, Option.bind_eq_bind, Option.bind_some, chunk?_wide hb]
      cases scan? s (steps + w.length) (o + 1) <;> rfl
    rw [List.length_cons, ← Nat.add_assoc, hround, ih hw (bytesFrom?_succ h), Nat.add_right_comm,
      Nat.add_assoc]

theorem scan?_token {k : Cut} {steps : Nat} {b : UInt8} {rest : List UInt8} {p : Position}
    (hgap : pass? s isGap o = some o) (h : bytesFrom? s o = some (b :: rest))
    (hk : chunk? s (steps + 1) o b rest.head? = some k) (hp : position? s o = some p)
    {more : List Located} (hmore : scan? s steps k.stop = some more) :
    scan? s (steps + 1) o = some ((k.token.map (Located.mk p)).toList ++ more) := by
  simp only [scan?, hgap, h, hk, hp, hmore, Option.bind_eq_bind, Option.bind_some]
  cases k.token <;> rfl

end Steps

theorem scan?_gap {c : Char} (hc : isGap c = true) (front more : List Char) (steps : Nat) :
    scan? (front ++ c :: more) (steps + 1) (byteLength front) =
      scan? (front ++ c :: more) (steps + 1) (byteLength (front ++ [c])) := by
  have hpass := pass?_eq agrees_isGap front (c :: more)
  have hpass' := pass?_eq agrees_isGap (front ++ [c]) more
  have hwhole : front ++ [c] ++ more = front ++ c :: more := by simp
  have hsame : byteLength front + byteLength ((c :: more).takeWhile isGap) =
      byteLength (front ++ [c]) + byteLength (more.takeWhile isGap) := by
    rw [List.takeWhile_cons_of_pos hc, byteLength_append, Nat.add_assoc]
    rfl
  rw [hwhole, ← hsame] at hpass'
  simp only [scan?, hpass, hpass']

theorem chunk_wide (fresh : Bool) {c : Char} (hc : ¬ IsAscii c) (more : List Char) :
    chunk fresh (c :: more) = ⟨none, 1⟩ := by
  have hne {d : Char} (hd : IsAscii d) : c ≠ d := fun h => hc (h ▸ hd)
  have hword : isWordStart c = false := Bool.eq_false_iff.mpr fun h => hc (isAscii_of_isWordStart h)
  rw [chunk_other fresh (fun h => hne (by decide) h.1) fun h => hne (by decide) h.1]
  simp [hword, hne (show IsAscii '#' by decide), hne (show IsAscii '"' by decide),
    hne (show IsAscii '\'' by decide)]

theorem tokensFrom_cons (p : Position) (fresh : Bool) (c : Char) (more : List Char) :
    tokensFrom p fresh (c :: more) =
      ((chunk fresh (c :: more)).token.map (Located.mk p)).toList ++
        tokensFrom (positionAfter p ((c :: more).take (chunk fresh (c :: more)).length))
          (freshAfter fresh ((c :: more).take (chunk fresh (c :: more)).length))
          ((c :: more).drop (chunk fresh (c :: more)).length) := by
  rw [tokensFrom, dif_neg (List.cons_ne_nil c more)]
  simp only [Nat.max_eq_right (chunk_length_pos fresh c more)]
  cases (chunk fresh (c :: more)).token <;> rfl

/-- A character that is a chunk by itself gives no token. -/
theorem tokensFrom_stray {front more : List Char} {c : Char}
    (h : chunk (freshAfter true front) (c :: more) = ⟨none, 1⟩) :
    tokensFrom (positionAfter .start front) (freshAfter true front) (c :: more) =
      tokensFrom (positionAfter .start (front ++ [c])) (freshAfter true (front ++ [c])) more := by
  rw [tokensFrom_cons, h, positionAfter_append, freshAfter_append]
  rfl

/-- Every round goes on behind a blank, behind the bytes of a wide character or behind a chunk. -/
theorem scan?_eq (front rest : List Char) (k : Nat) :
    scan? (front ++ rest) (byteLength rest + k + 1) (byteLength front) =
      some (tokensFrom (positionAfter .start front) (freshAfter true front) rest) := by
  match rest with
  | [] =>
    have hgap := pass?_eq agrees_isGap front []
    have hbs := bytesFrom?_append front []
    have hend : tokensFrom (positionAfter .start front) (freshAfter true front) [] = [] := by
      rw [tokensFrom, dif_pos rfl]
    rw [List.takeWhile_nil, byteLength_nil, Nat.add_zero] at hgap
    simp only [scan?, hgap, hbs, hend, Option.bind_eq_bind, Option.bind_some]
    rfl
  | c :: more =>
    by_cases hc : isGap c = true
    · have hnext := scan?_eq (front ++ [c]) more (k + 1)
      rw [List.append_assoc, List.singleton_append] at hnext
      rw [tokensFrom_stray (chunk_gap hc _ more), steps_ascii _ _ (isAscii_of_isGap hc), scan?_gap hc]
      exact hnext
    by_cases hascii : IsAscii c
    · -- A chunk begins, and the next round begins behind it.
      have hbs := bytesFrom?_append front (c :: more)
      rw [utf8_cons_ascii hascii] at hbs
      have hgap := pass?_eq agrees_isGap front (c :: more)
      rw [List.takeWhile_cons_of_neg hc, byteLength_nil, Nat.add_zero] at hgap
      have hplace := position?_eq front (c :: more)
      rw [Position.ofOffset_append front (List.cons_ne_nil c more)] at hplace
      have hchunk := chunk?_eq hascii front more
        (show byteLength (c :: more) < byteLength (c :: more) + k + 1 by omega)
      have hpos := chunk_length_pos (freshAfter true front) c more
      rw [tokensFrom_cons]
      generalize chunk (freshAfter true front) (c :: more) = read at hchunk hpos
      have hnext := scan?_eq (front ++ (c :: more).take read.length) ((c :: more).drop read.length)
        (byteLength ((c :: more).take read.length) - 1 + k)
      rw [List.append_assoc, List.take_append_drop, byteLength_append, positionAfter_append,
        freshAfter_append] at hnext
      rw [steps_take c more k hpos] at hchunk ⊢
      exact scan?_token hgap hbs hchunk hplace hnext
    · -- The bytes of the character take a round each, in which the offset is inside it.
      have hnext := scan?_eq (front ++ [c]) more k
      have hbs := bytesFrom?_append front (c :: more)
      rw [utf8_cons] at hbs
      rw [List.append_assoc, List.singleton_append, byteLength_append] at hnext
      rw [tokensFrom_stray (chunk_wide _ hascii more), steps_char, ← String.length_utf8EncodeChar,
        scan?_wide (fun b hb => le_toNat_of_mem_wide hascii hb) hbs, String.length_utf8EncodeChar]
      exact hnext
termination_by rest.length
decreasing_by
  · simp
  · simp only [List.length_drop, List.length_cons]
    omega
  · simp

/-! ## Tokens and their texts -/

/-- The texts that a token is read from. -/
inductive Shows : List Char → Token → Prop where
  /-- A block comment has its mark at the end, unless the input ends inside it. -/
  | docBlock {body close : List Char} (hbody : ¬ ['*', '/'] <:+: body)
      (hclose : close = ['*', '/'] ∨ close = []) :
      Shows (docMark ++ (body ++ close)) (.docBlock (Comment.plainText body))
  | docLine {line : List Char} (hline : '\n' ∉ line) :
      Shows (lineMark ++ line) (.docLine (trim line))
  | row {gap : List Char} {args : List (List Char)} (hgap : ∀ c ∈ gap, isGap c = true) :
      Shows (rowName ++ (gap ++ '(' :: ([','].intercalate args ++ [')']))) (.row (args.map trim))
  | malformed {gap : List Char} (rest : List Char) (hgap : ∀ c ∈ gap, isGap c = true) :
      Shows (rowName ++ (gap ++ '(' :: rest)) (.malformed (gap ++ '(' :: rest))

section Shows

variable {token : Token}

theorem take_blockBody (s : List Char) : ∃ close, (close = ['*', '/'] ∨ close = []) ∧
    s.take (blockBody s).2 = (blockBody s).1 ++ close ∧ ¬ ['*', '/'] <:+: (blockBody s).1 := by
  unfold blockBody
  split
  · next body after hcut =>
    obtain rfl := eq_append_of_cut? hcut
    exact ⟨['*', '/'], .inl rfl, List.take_length_add_append 2,
      not_infix_of_cut? (by decide) hcut⟩
  · next hcut => exact ⟨[], .inr rfl, by simp, cut?_eq_none_iff.mp hcut⟩

theorem shows_blockComment {rest : List Char}
    (h : (blockComment ('/' :: '*' :: rest)).token = some token) :
    Shows (('/' :: '*' :: rest).take (blockComment ('/' :: '*' :: rest)).length) token := by
  by_cases hd : ['*'] <+: rest ∧ ¬ ['*', '/'] <+: rest
  · obtain ⟨⟨body, hbody⟩, hclosed⟩ := hd
    obtain rfl : rest = '*' :: body := hbody.symm
    obtain ⟨close, hclose, htake, hfree⟩ := take_blockBody body
    rw [blockComment_doc hclosed] at h ⊢
    cases h
    simp only [List.take_succ_cons, htake]
    exact .docBlock hfree hclose
  · rw [blockComment_plain hd] at h
    cases h

theorem shows_lineComment {s : List Char} (h : (lineComment s).token = some token) :
    Shows (s.take (lineComment s).length) token := by
  rw [lineComment_eq] at h ⊢
  by_cases hd : lineMark <+: s ∧ s[3]? ≠ some '/'
  · obtain ⟨text, rfl⟩ := hd.1
    have hline : '\n' ∉ restOfLine text := List.count_eq_zero.mp (count_restOfLine text)
    simp only [if_pos hd, restOfLine_mark] at h ⊢
    cases h
    rw [← restOfLine_mark, restOfLine, take_length_takeWhile, ← restOfLine, restOfLine_mark]
    exact .docLine hline
  · simp only [if_neg hd] at h
    cases h

theorem shows_invocation {s : List Char} (h : (invocation s).token = some token) :
    Shows (rowName ++ s.take (invocation s).length) token := by
  obtain ⟨gap, more, rfl, hgap, hmore⟩ := exists_gap s
  by_cases hopen : more.head? = some '('
  · obtain ⟨more, rfl⟩ := List.head?_eq_some_iff.mp hopen
    have hreads := reads_arguments 0 more
    rw [invocation_open hgap] at h ⊢
    rw [take_called]
    generalize arguments 0 more = r at h hreads ⊢
    obtain ⟨args, n⟩ := r
    cases args with
    | some args =>
      cases h
      obtain ⟨-, hread⟩ := hreads args rfl
      rw [← hread, List.append_assoc]
      exact .row hgap
    | none =>
      cases h
      rw [List.append_assoc]
      exact .malformed _ hgap
  · rw [invocation_mention hgap hmore hopen] at h
    cases h

theorem shows_word {s : List Char} (h : (word s).token = some token) :
    Shows (s.take (word s).length) token := by
  have hs := List.prefix_iff_eq_append.mp (List.takeWhile_prefix isWordPart (l := s))
  unfold word at h ⊢
  dsimp only at h ⊢
  generalize s.takeWhile isWordPart = name at h hs ⊢
  split at h
  · next hrow =>
    rw [if_pos hrow]
    have htake (n : Nat) : s.take (name.length + n) = name ++ (s.drop name.length).take n := by
      conv_lhs => rw [← hs]
      exact List.take_length_add_append n
    rw [htake, hrow]
    exact shows_invocation (hrow ▸ h)
  · cases h

/-- The token of a chunk is read from the whole chunk. -/
theorem shows_chunk {fresh : Bool} {s : List Char} (h : (chunk fresh s).token = some token) :
    Shows (s.take (chunk fresh s).length) token := by
  unfold chunk at h ⊢
  split at h
  · exact shows_blockComment h
  · exact shows_lineComment h
  · next c rest _ _ =>
    split at h
    · cases h
    split at h
    · cases h
    split at h
    · next hhash hquote hword =>
      simp only [hhash, hquote, hword, if_true]
      exact shows_word h
    · cases h
  · cases h

end Shows

/-- A token in a text: it is read from a part of the text, at the position where the part begins. -/
def Shown (s : List Char) (l : Located) : Prop :=
  ∃ front w rest, s = front ++ (w ++ rest) ∧ l.position = .ofOffset s (byteLength front) ∧
    Shows w l.token

theorem shown_of_standsAt {s : List Char} {l : Located} {o : Nat} (h : StandsAt s l o) :
    Shown s l := by
  obtain ⟨front, rest, hsplit, htoken, -⟩ := h.reads
  obtain ⟨rfl, rfl⟩ := splitAtByte?_eq_some_iff.mp hsplit
  exact ⟨front, rest.take (chunk (freshAfter true front) rest).length, _,
    by rw [List.take_append_drop], h.position, shows_chunk htoken⟩

/-- In more steps than a text has bytes, reading by offsets finds its tokens: no offset is out of range or
inside a character where text is cut, and no count falls below zero. Every token is read from a part of
the text as it stands. -/
theorem lossless_tokens (s : List Char) :
    (∀ steps, byteLength s < steps → scan? s steps 0 = some (tokens s)) ∧
      ∀ l ∈ tokens s, Shown s l := by
  constructor
  · intro steps hsteps
    obtain ⟨k, rfl⟩ := Nat.exists_eq_add_of_lt hsteps
    exact scan?_eq [] s k
  · obtain ⟨offsets, -, -, hstand⟩ := exists_offsets [] s
    exact ((List.forall₂_and_left _ _).mp (hstand.imp fun _ _ h => ⟨shown_of_standsAt h, h⟩)).1

/-- Wide characters in comments, in a literal behind a backslash and between chunks, and a row that the
input ends in. -/
def wideText : List Char :=
  "/** é *//// ß\n€ DEF_TYPE(\"ä\\ö\", (ü, 1))\n/*/ DEF_TYPE */ DEF_TYPE (\"é".toList

theorem lossless_tokens_wideText :
    byteLength wideText < 77 ∧
      scan? wideText 77 0 = some [⟨⟨1, 0⟩, .docBlock ['é']⟩, ⟨⟨1, 8⟩, .docLine ['ß']⟩,
        ⟨⟨2, 2⟩, .row ["\"ä\\ö\"".toList, "(ü, 1)".toList]⟩, ⟨⟨3, 16⟩, .malformed " (\"é".toList⟩] ∧
      Shown wideText ⟨⟨2, 2⟩, .row ["\"ä\\ö\"".toList, "(ü, 1)".toList]⟩ := by
  have hlength : byteLength wideText < 77 := by decide
  have htokens : tokens wideText = [⟨⟨1, 0⟩, .docBlock ['é']⟩, ⟨⟨1, 8⟩, .docLine ['ß']⟩,
      ⟨⟨2, 2⟩, .row ["\"ä\\ö\"".toList, "(ü, 1)".toList]⟩,
      ⟨⟨3, 16⟩, .malformed " (\"é".toList⟩] := by
    decide +kernel
  obtain ⟨hscan, hshown⟩ := lossless_tokens wideText
  rw [htokens] at hscan hshown
  exact ⟨hlength, hscan 77 hlength, hshown _ (by simp)⟩

end NodeAtlas.Definition
