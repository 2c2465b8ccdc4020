import NodeAtlas.Proofs.Definition.Tokens

/-!
Literals that a line feed breaks off. Such a literal takes the line behind the line feed too, so
reading goes on at the end of that line, and what stands on it gives no token.
-/

namespace NodeAtlas

/-- So many lines further down, in the same column. -/
def Position.down (n : Nat) (p : Position) : Position := ⟨p.line + n, p.column⟩

namespace Definition

open Text

def Located.down (n : Nat) (t : Located) : Located := ⟨t.position.down n, t.token⟩

/-! ## Lines of tokens -/

theorem positionAfter_down (n : Nat) (p : Position) (s : List Char) :
    positionAfter (p.down n) s = (positionAfter p s).down n := by
  have hstep (p : Position) (c : Char) :
      positionAfter (p.down n) [c] = (positionAfter p [c]).down n := by
    by_cases hc : c = '\n'
    · simp [positionAfter, Position.down, hc, Nat.add_right_comm]
    · simp [positionAfter, Position.down, hc]
  induction s generalizing p with
  | nil => rfl
  | cons c s ih =>
    rw [← List.singleton_append, positionAfter_append, positionAfter_append, hstep, ih]

/-- Tokens move down with the text that they stand in. -/
theorem tokensFrom_down (n : Nat) (p : Position) (fresh : Bool) (s : List Char) :
    tokensFrom (p.down n) fresh s = (tokensFrom p fresh s).map (Located.down n) := by
  fun_induction tokensFrom p fresh s with
  | case1 p fresh => simp [tokensFrom]
  | case2 p fresh s hne k n more token htoken ih =>
    rw [tokensFrom, dif_neg hne]
    simp only [k] at htoken
    simp only [htoken, positionAfter_down, List.map_cons]
    rw [← ih]
    rfl
  | case3 p fresh s hne k n more htoken ih =>
    rw [tokensFrom, dif_neg hne]
    simp only [k] at htoken
    simp only [htoken, positionAfter_down]
    exact ih

/-- A text that begins with a chunk gives the token of that, if any, and the tokens behind it. -/
theorem tokensFrom_append {w rest : List Char} {token : Option Token} {fresh : Bool} (hne : w ≠ [])
    (h : chunk fresh (w ++ rest) = ⟨token, w.length⟩) (p : Position) :
    tokensFrom p fresh (w ++ rest) = (token.map (Located.mk p)).toList ++
      tokensFrom (positionAfter p w) (freshAfter fresh w) rest := by
  have hlen : max 1 w.length = w.length := Nat.max_eq_right (List.length_pos_iff.mpr hne)
  have hcons : w ++ rest ≠ [] := by simp [hne]
  rw [tokensFrom, dif_neg hcons]
  simp only [h, hlen, List.take_left, List.drop_left]
  cases token <;> rfl

theorem line_positionAfter (p : Position) (s : List Char) :
    (positionAfter p s).line = p.line + s.count '\n' := by
  induction s generalizing p with
  | nil => rfl
  | cons c s ih =>
    rw [← List.singleton_append, positionAfter_append, ih, List.count_append]
    by_cases hc : c = '\n'
    · simp [positionAfter, hc, Nat.add_assoc]
    · simp [positionAfter, hc]

/-- What follows a line is read from the beginning of the next line. -/
theorem tokensFrom_lineEnd {p q : Position} (h : p.line = q.line) (fresh fresh' : Bool)
    {s : List Char} (hs : ∀ c ∈ s.head?, c = '\n') :
    tokensFrom p fresh s = tokensFrom q fresh' s := by
  cases s with
  | nil => simp [tokensFrom]
  | cons c s =>
    obtain rfl := hs c rfl
    rw [tokensFrom_lineFeed, tokensFrom_lineFeed]
    simp [positionAfter, h]

theorem chunk_gap {c : Char} (hc : isGap c = true) (fresh : Bool) (rest : List Char) :
    chunk fresh (c :: rest) = ⟨none, 1⟩ := by
  rcases isGap_iff.mp hc with rfl | rfl | rfl | rfl | rfl <;> rfl

theorem tokensFrom_gap {w : List Char} (hw : ∀ c ∈ w, isGap c = true) (p : Position)
    (rest : List Char) :
    tokensFrom p true (w ++ rest) = tokensFrom (positionAfter p w) true rest := by
  induction w generalizing p with
  | nil => rfl
  | cons c w ih =>
    obtain ⟨hc, hw⟩ := List.forall_mem_cons.mp hw
    have hfresh : freshAfter true [c] = true := by simp [freshAfter, hc]
    calc tokensFrom p true ([c] ++ (w ++ rest))
        = tokensFrom (positionAfter p [c]) (freshAfter true [c]) (w ++ rest) :=
          tokensFrom_append (List.cons_ne_nil c []) (chunk_gap hc true (w ++ rest)) p
      _ = tokensFrom (positionAfter p (c :: w)) true rest := by
          rw [hfresh, ih hw, ← positionAfter_append, List.singleton_append]

/-! ## Broken literals -/

/-- The text from the end of its first line on. -/
def fromLineEnd (s : List Char) : List Char := s.dropWhile (· ≠ '\n')

theorem restOfLine_append_fromLineEnd (s : List Char) : restOfLine s ++ fromLineEnd s = s :=
  List.takeWhile_append_dropWhile

theorem count_restOfLine (s : List Char) : (restOfLine s).count '\n' = 0 := by
  rw [List.count_eq_zero]
  intro hfeed
  simpa using List.all_eq_true.mp (List.all_takeWhile (p := (· ≠ '\n')) (l := s)) _ hfeed

theorem head?_fromLineEnd (s : List Char) : ∀ c ∈ (fromLineEnd s).head?, c = '\n' := by
  intro c hc
  have hnot := List.head?_dropWhile_not (fun c : Char => decide (c ≠ '\n')) s
  rw [fromLineEnd, Option.mem_def] at hc
  rw [hc] at hnot
  simpa using hnot

/-- Without a blank first line a text gives the same tokens. -/
theorem tokens_fromLineEnd {rest : List Char} (h : ∀ c ∈ restOfLine rest, isGap c = true) :
    tokens (fromLineEnd rest) = tokens rest := by
  have hline : (positionAfter .start (restOfLine rest)).line = Position.start.line := by
    rw [line_positionAfter, count_restOfLine, Nat.add_zero]
  calc tokens (fromLineEnd rest)
      = tokensFrom (positionAfter .start (restOfLine rest)) true (fromLineEnd rest) :=
        tokensFrom_lineEnd hline.symm true true (head?_fromLineEnd rest)
    _ = tokens (restOfLine rest ++ fromLineEnd rest) := (tokensFrom_gap h .start _).symm
    _ = tokens rest := by rw [restOfLine_append_fromLineEnd]

section Broken

variable {quote : Char} {q : List Char}

/-- The literal that is broken off: its quote, what follows that, and two lines' ends. -/
def brokenText (quote : Char) (q rest : List Char) : List Char :=
  quote :: (q ++ '\n' :: restOfLine rest)

theorem body_broken (hq : ∀ c ∈ q, c ≠ quote ∧ c ≠ '\\' ∧ c ≠ '\n') (rest : List Char) :
    Literal.body quote (q ++ '\n' :: rest) = (q ++ ['\n'], false) := by
  induction q with
  | nil => simp [Literal.body]
  | cons c q ih =>
    obtain ⟨hquote, hslash, hfeed⟩ := hq c List.mem_cons_self
    have ih := ih fun d hd => hq d (List.mem_cons_of_mem c hd)
    rw [List.cons_append, Literal.body.eq_4 _ _ _ (by simp) (by simp [hslash])]
    simp [hfeed, hquote, ih]

theorem literalLength_broken (hq : ∀ c ∈ q, c ≠ quote ∧ c ≠ '\\' ∧ c ≠ '\n') (rest : List Char) :
    literalLength (quote :: (q ++ '\n' :: rest)) = ((brokenText quote q rest).length, false) := by
  have hdrop : (q ++ '\n' :: rest).drop (q ++ ['\n']).length = rest := by
    simp
  simp only [literalLength, body_broken hq, Bool.false_eq_true, if_false, hdrop]
  simp [brokenText]
  omega

theorem count_brokenText (hfeed : quote ≠ '\n') (hq : '\n' ∉ q) (rest : List Char) :
    (brokenText quote q rest).count '\n' = 1 := by
  simp [brokenText, List.count_append, List.count_eq_zero.mpr hq, hfeed, count_restOfLine]

theorem brokenText_append (quote : Char) (q rest : List Char) :
    brokenText quote q rest ++ fromLineEnd rest = quote :: (q ++ '\n' :: rest) := by
  rw [brokenText, List.cons_append, List.append_assoc, List.cons_append,
    restOfLine_append_fromLineEnd]

theorem chunk_broken (hquote : quote = '"' ∨ quote = '\'')
    (hq : ∀ c ∈ q, c ≠ quote ∧ c ≠ '\\' ∧ c ≠ '\n') (rest : List Char) :
    chunk true (quote :: (q ++ '\n' :: rest)) = ⟨none, (brokenText quote q rest).length⟩ := by
  have hchunk : chunk true (quote :: (q ++ '\n' :: rest)) =
      ⟨none, (literalLength (quote :: (q ++ '\n' :: rest))).1⟩ := by
    rcases hquote with rfl | rfl <;> rfl
  rw [hchunk, literalLength_broken hq]

/-- A row that a broken literal opens, up to the end of the line that the literal takes with it. -/
def brokenRow (quote : Char) (q rest : List Char) : List Char :=
  rowName ++ '(' :: brokenText quote q rest

theorem brokenRow_append (quote : Char) (q rest : List Char) :
    brokenRow quote q rest ++ fromLineEnd rest =
      rowName ++ '(' :: quote :: (q ++ '\n' :: rest) := by
  rw [brokenRow, List.append_assoc, List.cons_append, brokenText_append]

theorem invocation_broken (hquote : quote = '"' ∨ quote = '\'')
    (hq : ∀ c ∈ q, c ≠ quote ∧ c ≠ '\\' ∧ c ≠ '\n') (rest : List Char) :
    invocation ('(' :: quote :: (q ++ '\n' :: rest)) =
      ⟨some (.malformed ('(' :: brokenText quote q rest)),
        (brokenText quote q rest).length + 1⟩ := by
  have hargs : arguments 0 (quote :: (q ++ '\n' :: rest)) =
      (none, (brokenText quote q rest).length) :=
    arguments_broken hquote (literalLength_broken hq rest) 0
  have htake : ('(' :: quote :: (q ++ '\n' :: rest)).take ((brokenText quote q rest).length + 1) =
      '(' :: brokenText quote q rest := by
    rw [List.take_succ_cons, ← brokenText_append, List.take_left]
  rw [invocation]
  simp only [List.takeWhile_cons_of_neg (show ¬ isGap '(' = true by decide), List.length_nil,
    List.drop_zero, hargs, Nat.zero_add, Nat.add_comm 1, htake]

theorem chunk_brokenRow (hquote : quote = '"' ∨ quote = '\'')
    (hq : ∀ c ∈ q, c ≠ quote ∧ c ≠ '\\' ∧ c ≠ '\n') (rest : List Char) :
    chunk true (rowName ++ '(' :: quote :: (q ++ '\n' :: rest)) =
      ⟨some (.malformed ('(' :: brokenText quote q rest)),
        (brokenRow quote q rest).length⟩ := by
  have hname : ∀ c ∈ rowName, isWordPart c = true := List.all_eq_true.mp (by decide)
  have hstop : ∀ c ∈ ('(' :: quote :: (q ++ '\n' :: rest)).head?, isWordPart c = false := by
    intro c hc
    cases hc
    decide
  have hword : chunk true (rowName ++ '(' :: quote :: (q ++ '\n' :: rest)) =
      word (rowName ++ '(' :: quote :: (q ++ '\n' :: rest)) := rfl
  rw [hword, word, takeWhile_append_stop hname hstop]
  simp only [if_true, List.drop_left, invocation_broken hquote hq]
  simp [brokenRow]

/-- Behind a chunk with one line feed, reading goes on as at the end of the first line. -/
theorem tokens_chunk {w rest : List Char} {token : Option Token} (hw : w.count '\n' = 1)
    (h : chunk true (w ++ fromLineEnd rest) = ⟨token, w.length⟩) :
    tokens (w ++ fromLineEnd rest) = (token.map (Located.mk .start)).toList ++
      (tokens (fromLineEnd rest)).map (Located.down 1) := by
  have hne : w ≠ [] := by
    rintro rfl
    cases hw
  have hline : (positionAfter .start w).line = (Position.start.down 1).line := by
    rw [line_positionAfter, hw]
    rfl
  rw [tokens, tokensFrom_append hne h, tokens, ← tokensFrom_down,
    tokensFrom_lineEnd hline _ true (head?_fromLineEnd rest)]

end Broken

/-- A literal that a line feed breaks off gives no token, and a row that it opens one malformed
token. What follows gives its tokens from the end of its first line on, so nothing is lost if that
line is blank. -/
theorem tokens_broken {quote : Char} (hquote : quote = '"' ∨ quote = '\'') {q : List Char}
    (hq : ∀ c ∈ q, c ≠ quote ∧ c ≠ '\\' ∧ c ≠ '\n') (rest : List Char) :
    let later := (tokens (fromLineEnd rest)).map (Located.down 1)
    tokens (rowName ++ '(' :: quote :: (q ++ '\n' :: rest)) =
      ⟨.start, .malformed ('(' :: brokenText quote q rest)⟩ :: later ∧
    tokens (quote :: (q ++ '\n' :: rest)) = later ∧
    ((∀ c ∈ restOfLine rest, isGap c = true) → later = (tokens rest).map (Located.down 1)) := by
  intro later
  have hfeed : quote ≠ '\n' := by rcases hquote with rfl | rfl <;> decide
  have hcount := count_brokenText hfeed (fun h => (hq _ h).2.2 rfl) rest
  refine ⟨?_, ?_, fun hblank => congrArg _ (tokens_fromLineEnd hblank)⟩
  · have hcountRow : (brokenRow quote q rest).count '\n' = 1 := by
      rw [brokenRow, List.count_append, List.count_cons, hcount]
      decide
    have hchunk := chunk_brokenRow hquote hq rest
    rw [← brokenRow_append] at hchunk ⊢
    exact tokens_chunk hcountRow hchunk
  · have hchunk := chunk_broken hquote hq rest
    rw [← brokenText_append] at hchunk ⊢
    exact tokens_chunk hcount hchunk

/-- A row on a line of its own. -/
def soleRow : List Char := "DEF_TYPE(\"b\", LITERAL_STRING, NONE, NONE, 0)\n".toList

theorem tokens_soleRow : tokens soleRow =
    [⟨.start, .row (["\"b\"", "LITERAL_STRING", "NONE", "NONE", "0"].map String.toList)⟩] := by
  decide +kernel

theorem tokens_fromLineEnd_soleRow : tokens (fromLineEnd soleRow) = [] := by
  decide +kernel

theorem tokens_broken_soleRow :
    (∀ c ∈ ['a'], c ≠ '"' ∧ c ≠ '\\' ∧ c ≠ '\n') ∧
      tokens (rowName ++ '(' :: '"' :: (['a'] ++ '\n' :: soleRow)) =
        [⟨.start, .malformed ('(' :: brokenText '"' ['a'] soleRow)⟩] ∧
      tokens ('"' :: (['a'] ++ '\n' :: soleRow)) = [] ∧
      (∀ c ∈ restOfLine (' ' :: '\n' :: soleRow), isGap c = true) ∧
      (tokens ('"' :: (['a'] ++ '\n' :: ' ' :: '\n' :: soleRow))).map Located.position =
        [⟨3, 0⟩] := by
  have hq : ∀ c ∈ ['a'], c ≠ '"' ∧ c ≠ '\\' ∧ c ≠ '\n' :=
    List.forall_mem_singleton.mpr (by decide)
  have hblank : ∀ c ∈ restOfLine (' ' :: '\n' :: soleRow), isGap c = true :=
    List.forall_mem_singleton.mpr rfl
  obtain ⟨hrow, hliteral, -⟩ := tokens_broken (.inl rfl) hq soleRow
  obtain ⟨-, hlater, hall⟩ := tokens_broken (.inl rfl) hq (' ' :: '\n' :: soleRow)
  rw [tokens_fromLineEnd_soleRow] at hrow hliteral
  refine ⟨hq, hrow, hliteral, hblank, ?_⟩
  rw [hlater, hall hblank]
  decide +kernel

/-- A row on the line after a broken literal is lost. -/
theorem row_swallowed :
    (∀ text, tokens "DEF_TYPE(\"a\nDEF_TYPE(\"b\", LITERAL_STRING, NONE, NONE, 0)\n".toList ≠
      ⟨.start, .malformed text⟩ :: (tokens soleRow).map (Located.down 1)) ∧
    tokens "\"a\nDEF_TYPE(\"b\", LITERAL_STRING, NONE, NONE, 0)\n".toList ≠
      (tokens soleRow).map (Located.down 1) := by
  have hrow : tokens "DEF_TYPE(\"a\nDEF_TYPE(\"b\", LITERAL_STRING, NONE, NONE, 0)\n".toList =
      [⟨.start, .malformed ('(' :: brokenText '"' ['a'] soleRow)⟩] := by
    decide +kernel
  have hliteral : tokens "\"a\nDEF_TYPE(\"b\", LITERAL_STRING, NONE, NONE, 0)\n".toList = [] := by
    decide +kernel
  rw [hrow, hliteral, tokens_soleRow]
  simp

end Definition

end NodeAtlas
