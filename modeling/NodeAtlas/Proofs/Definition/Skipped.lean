import NodeAtlas.Proofs.Definition.Recovery

/-!
Texts that give no token, whatever they hold: comments that are no doc comments, directives and
closed literals. What follows such a text on the next line gives its own tokens, further down.
-/

namespace NodeAtlas.Definition

open Text

/-- What may stand between two quotes: other characters, and backslashes each with a character. -/
inductive IsLiteralBody (quote : Char) : List Char → Prop where
  | nil : IsLiteralBody quote []
  | plain {c : Char} {s : List Char} (hquote : c ≠ quote) (hslash : c ≠ '\\') (hfeed : c ≠ '\n')
      (hs : IsLiteralBody quote s) : IsLiteralBody quote (c :: s)
  | escaped (c : Char) {s : List Char} (hs : IsLiteralBody quote s) :
      IsLiteralBody quote ('\\' :: c :: s)

inductive IsSkipped : List Char → Prop where
  /-- Three slashes begin a doc comment, four do not. -/
  | lineComment {s : List Char} (hfeed : '\n' ∉ s) (hdoc : ['/'] <+: s → ['/', '/'] <+: s) :
      IsSkipped ('/' :: '/' :: s)
  | blockComment {body : List Char} (hclose : ¬ ['*', '/'] <:+: body)
      (hdoc : body.head? ≠ some '*') : IsSkipped ('/' :: '*' :: (body ++ ['*', '/']))
  /-- A backslash at the end of a line continues the directive. -/
  | directive {ls : List (List Char)} {last : List Char} (hls : ∀ l ∈ ls, '\n' ∉ l)
      (hlast : '\n' ∉ last) (hopen : last.getLast? ≠ some '\\') :
      IsSkipped ('#' :: (ls.flatMap (· ++ ['\\', '\n']) ++ last))
  | literal {quote : Char} {s : List Char} (hquote : quote = '"' ∨ quote = '\'')
      (hs : IsLiteralBody quote s) : IsSkipped (quote :: (s ++ [quote]))

theorem IsSkipped.ne_nil {w : List Char} (h : IsSkipped w) : w ≠ [] := by
  cases h <;> exact List.cons_ne_nil _ _

/-! ## Comments -/

theorem chunk_lineComment {s : List Char} (hfeed : '\n' ∉ s)
    (hdoc : ['/'] <+: s → ['/', '/'] <+: s) (rest : List Char) :
    chunk true ('/' :: '/' :: s ++ '\n' :: rest) = ⟨none, ('/' :: '/' :: s).length⟩ := by
  have hline : restOfLine ('/' :: '/' :: s ++ '\n' :: rest) = '/' :: '/' :: s :=
    restOfLine_append (by simpa using hfeed) rest
  have hchunk : chunk true ('/' :: '/' :: s ++ '\n' :: rest) =
      lineComment ('/' :: '/' :: s ++ '\n' :: rest) := rfl
  rw [hchunk, lineComment, hline]
  split
  · rfl
  · next text hnot heq =>
    cases heq
    obtain ⟨more, hmore⟩ := hdoc ⟨text, rfl⟩
    cases hmore
    exact absurd rfl (hnot more)
  · rfl

theorem chunk_blockComment {body : List Char} (hclose : ¬ ['*', '/'] <:+: body)
    (hdoc : body.head? ≠ some '*') (rest : List Char) :
    chunk true ('/' :: '*' :: (body ++ ['*', '/']) ++ rest) =
      ⟨none, ('/' :: '*' :: (body ++ ['*', '/'])).length⟩ := by
  cases body with
  | nil => rfl
  | cons c body =>
    have hbody : blockBody (c :: (body ++ '*' :: '/' :: rest)) = (c :: body, body.length + 3) := by
      rw [← List.cons_append, blockBody, cut?_closingMark hclose]
      rfl
    have hchunk : chunk true ('/' :: '*' :: ((c :: body) ++ ['*', '/']) ++ rest) =
        blockComment ('/' :: '*' :: c :: (body ++ '*' :: '/' :: rest)) := by
      simp [chunk]
    have hstar : c ≠ '*' := by simpa using hdoc
    rw [hchunk, blockComment.eq_3]
    · simp [hbody]
    · simp [hstar]
    · simp [hstar]

/-! ## Directives -/

/-- A line is passed over as far as it is not continued. -/
theorem directiveLength_append {l t : List Char} (hl : '\n' ∉ l)
    (ht : l.getLast? = some '\\' → t.head? ≠ some '\n') :
    directiveLength (l ++ t) = l.length + directiveLength t := by
  induction l with
  | nil => simp
  | cons c l ih =>
    rw [List.mem_cons, not_or] at hl
    have hstep : ∀ more, c = '\\' → l ++ t ≠ '\n' :: more := by
      rintro more rfl heq
      cases l with
      | nil => exact ht rfl (by rw [← List.nil_append t, heq]; rfl)
      | cons d l => exact hl.2 (by cases heq; exact List.mem_cons_self)
    have hlast : l.getLast? = some '\\' → t.head? ≠ some '\n' := by
      intro hlast
      exact ht (by rw [List.getLast?_cons, hlast]; rfl)
    rw [List.cons_append, directiveLength.eq_3 _ _ hstep, if_neg (Ne.symm hl.1), ih hl.2 hlast,
      List.length_cons]
    omega

theorem directiveLength_lines {ls : List (List Char)} (hls : ∀ l ∈ ls, '\n' ∉ l)
    (t : List Char) : directiveLength (ls.flatMap (· ++ ['\\', '\n']) ++ t) =
      (ls.flatMap (· ++ ['\\', '\n'])).length + directiveLength t := by
  induction ls with
  | nil => simp
  | cons l ls ih =>
    obtain ⟨hl, hls⟩ := List.forall_mem_cons.mp hls
    have happ : (l :: ls).flatMap (· ++ ['\\', '\n']) ++ t =
        l ++ '\\' :: '\n' :: (ls.flatMap (· ++ ['\\', '\n']) ++ t) := by simp
    rw [happ, directiveLength_append hl (by simp), directiveLength, ih hls, List.flatMap_cons,
      List.length_append, List.length_append]
    simp only [List.length_cons, List.length_nil]
    omega

theorem chunk_directive {ls : List (List Char)} {last : List Char} (hls : ∀ l ∈ ls, '\n' ∉ l)
    (hlast : '\n' ∉ last) (hopen : last.getLast? ≠ some '\\') (rest : List Char) :
    chunk true ('#' :: (ls.flatMap (· ++ ['\\', '\n']) ++ last) ++ '\n' :: rest) =
      ⟨none, ('#' :: (ls.flatMap (· ++ ['\\', '\n']) ++ last)).length⟩ := by
  have hchunk : chunk true ('#' :: (ls.flatMap (· ++ ['\\', '\n']) ++ last) ++ '\n' :: rest) =
      ⟨none, directiveLength
        ('#' :: (ls.flatMap (· ++ ['\\', '\n']) ++ last) ++ '\n' :: rest)⟩ := rfl
  have happ : '#' :: (ls.flatMap (· ++ ['\\', '\n']) ++ last) ++ '\n' :: rest =
      ['#'] ++ (ls.flatMap (· ++ ['\\', '\n']) ++ (last ++ '\n' :: rest)) := by simp
  have hend : directiveLength ('\n' :: rest) = 0 := by simp [directiveLength]
  rw [hchunk, happ, directiveLength_append (by decide) (fun h => absurd h (by decide)),
    directiveLength_lines hls, directiveLength_append hlast (fun h => absurd h hopen), hend]
  simp only [List.length_cons, List.length_nil, List.length_append]
  congr 1
  omega

/-! ## Literals -/

theorem IsLiteralBody.body_eq {quote : Char} {s : List Char} (h : IsLiteralBody quote s)
    (hquote : quote = '"' ∨ quote = '\'') (rest : List Char) :
    Literal.body quote (s ++ quote :: rest) = (s ++ [quote], true) := by
  induction h with
  | nil => rcases hquote with rfl | rfl <;> simp [Literal.body]
  | @plain c s hne hslash hfeed _ ih =>
    rw [List.cons_append, Literal.body.eq_4 _ _ _ (by simp) (by simp [hslash])]
    simp [hne, hfeed, ih]
  | escaped c _ ih =>
    rw [List.cons_append, List.cons_append, Literal.body, ih]
    rfl

theorem chunk_literal {quote : Char} {s : List Char} (hquote : quote = '"' ∨ quote = '\'')
    (hs : IsLiteralBody quote s) (rest : List Char) :
    chunk true (quote :: (s ++ [quote]) ++ rest) = ⟨none, (quote :: (s ++ [quote])).length⟩ := by
  have hchunk : chunk true (quote :: (s ++ [quote]) ++ rest) =
      ⟨none, (literalLength (quote :: (s ++ quote :: rest))).1⟩ := by
    rcases hquote with rfl | rfl <;> simp [chunk]
  rw [hchunk, literalLength, hs.body_eq hquote]
  rfl

/-! ## What follows -/

theorem chunk_skipped {w : List Char} (h : IsSkipped w) (rest : List Char) :
    chunk true (w ++ '\n' :: rest) = ⟨none, w.length⟩ := by
  cases h with
  | lineComment hfeed hdoc => exact chunk_lineComment hfeed hdoc rest
  | blockComment hclose hdoc => exact chunk_blockComment hclose hdoc ('\n' :: rest)
  | directive hls hlast hopen => exact chunk_directive hls hlast hopen rest
  | literal hquote hs => exact chunk_literal hquote hs ('\n' :: rest)

/-- A skipped text on lines of its own makes no difference to the tokens behind it but the number of
lines that they stand further down. -/
theorem tokens_skipped {w : List Char} (h : IsSkipped w) (rest : List Char) :
    tokens (w ++ '\n' :: rest) = (tokens rest).map (Located.down (w.count '\n' + 1)) := by
  have hplace : positionAfter (positionAfter .start w) ['\n'] =
      Position.start.down (w.count '\n' + 1) := by
    calc positionAfter (positionAfter .start w) ['\n']
        = ⟨(positionAfter .start w).line + 1, 0⟩ := rfl
      _ = Position.start.down (w.count '\n' + 1) := by
        rw [line_positionAfter, Nat.add_assoc]
        rfl
  rw [tokens, tokensFrom_append h.ne_nil (chunk_skipped h rest), tokensFrom_lineFeed, hplace,
    tokensFrom_down]
  rfl

/-- A comment around a doc comment and a row. -/
def commentedRow : List Char := '/' :: '*' :: ("\n/// @brief\n".toList ++ soleRow ++ ['*', '/'])

theorem tokens_skipped_commentedRow : IsSkipped commentedRow ∧
    tokens (commentedRow ++ '\n' :: soleRow) = [⟨⟨5, 0⟩, .row
      (["\"b\"", "LITERAL_STRING", "NONE", "NONE", "0"].map String.toList)⟩] := by
  have hskipped : IsSkipped commentedRow := .blockComment (by decide +kernel) (by decide +kernel)
  refine ⟨hskipped, ?_⟩
  rw [tokens_skipped hskipped, tokens_soleRow]
  decide +kernel

end NodeAtlas.Definition
