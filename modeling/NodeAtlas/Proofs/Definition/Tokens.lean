import NodeAtlas.Proofs.Definition.Arguments

/-!
Every line or comment that a definition file is written with is one token.
-/

namespace NodeAtlas.Definition

open Text

theorem positionAfter_append (p : Position) (s t : List Char) :
    positionAfter p (s ++ t) = positionAfter (positionAfter p s) t := by
  simp [positionAfter]

theorem chunk_lineFeed (fresh : Bool) (rest : List Char) :
    chunk fresh ('\n' :: rest) = ⟨none, 1⟩ := rfl

theorem tokensFrom_lineFeed (p : Position) (fresh : Bool) (rest : List Char) :
    tokensFrom p fresh ('\n' :: rest) = tokensFrom (positionAfter p ['\n']) true rest := by
  rw [tokensFrom]
  simp [chunk_lineFeed, freshAfter]

/-- A text that is one chunk up to the end of its line gives one token. -/
theorem tokensFrom_chunk {w rest : List Char} {t : Token} (hne : w ≠ [])
    (h : chunk true (w ++ '\n' :: rest) = ⟨some t, w.length⟩) (p : Position) :
    tokensFrom p true (w ++ '\n' :: rest) =
      ⟨p, t⟩ :: tokensFrom (positionAfter p (w ++ ['\n'])) true rest := by
  have hlen : max 1 w.length = w.length := by
    have hpos := List.length_pos_iff.mpr hne
    omega
  have hcons : w ++ '\n' :: rest ≠ [] := by simp
  rw [tokensFrom, dif_neg hcons]
  simp only [h, hlen, List.take_left, List.drop_left, tokensFrom_lineFeed, positionAfter_append]

/-! ## Rows -/

def rowText (raw : List Char) (es : List (List Char)) : List Char :=
  rowName ++ '(' :: ([',', ' '].intercalate (Literal.encode raw :: es) ++ [')'])

theorem trimmed_encode (raw : List Char) : Trimmed (Literal.encode raw) := by
  constructor
  · intro c hc
    cases hc
    decide
  · intro c hc
    rw [Literal.encode, List.getLast?_concat] at hc
    cases hc
    decide

theorem trim_space {e : List Char} (h : trim e = e) : trim (' ' :: e) = e := by
  rw [trim, trimStart, List.dropWhile_cons_of_pos (by decide)]
  exact h

/-- An expression as rows have it. -/
structure IsExpression (e : List Char) : Prop where
  trimmed : trim e = e
  unquoted : Unquoted e
  balanced : balanced 0 e = true

theorem invocation_row {es : List (List Char)} (raw : List Char) (h : ∀ e ∈ es, IsExpression e)
    (rest : List Char) :
    invocation ('(' :: ([',', ' '].intercalate (Literal.encode raw :: es) ++ ')' :: rest)) =
      ⟨some (.row (Literal.encode raw :: es)),
        ([',', ' '].intercalate (Literal.encode raw :: es)).length + 2⟩ := by
  have hargs := arguments_row raw (fun e he => ⟨(h e he).unquoted, (h e he).balanced⟩) rest
  have htrim : (Literal.encode raw :: es.map (' ' :: ·)).map trim = Literal.encode raw :: es := by
    rw [List.map_cons, List.map_map, trim_of_trimmed (trimmed_encode raw)]
    congr 1
    have hall : ∀ e ∈ es, (trim ∘ (' ' :: ·)) e = e := fun e he => trim_space (h e he).trimmed
    rw [List.map_congr_left hall, List.map_id']
  rw [intercalate_eq_tailText, invocation]
  simp only [List.takeWhile_cons_of_neg (show ¬ isGap '(' = true by decide), List.length_nil,
    List.drop_zero, hargs, htrim]
  congr 1
  omega

theorem chunk_row {es : List (List Char)} (raw : List Char) (h : ∀ e ∈ es, IsExpression e)
    (rest : List Char) :
    chunk true (rowText raw es ++ rest) =
      ⟨some (.row (Literal.encode raw :: es)), (rowText raw es).length⟩ := by
  have hname : ∀ c ∈ rowName, isWordPart c = true := List.all_eq_true.mp (by decide)
  have htext : rowText raw es ++ rest = rowName ++
      '(' :: ([',', ' '].intercalate (Literal.encode raw :: es) ++ ')' :: rest) := by
    simp [rowText]
  have hstop : ∀ c ∈ ('(' :: ([',', ' '].intercalate (Literal.encode raw :: es) ++
      ')' :: rest)).head?, isWordPart c = false := by
    intro c hc
    cases hc
    decide
  have hword : chunk true (rowText raw es ++ rest) = word (rowText raw es ++ rest) := rfl
  rw [hword, htext, word, takeWhile_append_stop hname hstop]
  simp only [if_true, List.drop_left, invocation_row raw h]
  simp [rowText]

/-! ## Comments -/

/-- A brief is written behind its tag, and nothing is when it is empty. -/
theorem briefLine_eq {b : List Char} (hb : trim b = b) :
    ∃ c, trimEnd ("@brief ".toList ++ b) = "@brief".toList ++ c ∧ trim c = b ∧
      (c = [] ∨ c = ' ' :: b) := by
  by_cases hne : b = []
  · subst hne
    exact ⟨[], by decide +kernel, rfl, .inl rfl⟩
  · refine ⟨' ' :: b, ?_, trim_space hb, .inr rfl⟩
    apply trimEnd_of_trimmed
    rw [List.getLast?_append_of_ne_nil _ hne]
    exact (trimmed_of_trim hb).2

theorem restOfLine_append {w : List Char} (h : '\n' ∉ w) (rest : List Char) :
    restOfLine (w ++ '\n' :: rest) = w := by
  apply takeWhile_append_stop
  · intro c hc
    simpa using ne_of_mem_of_not_mem hc h
  · simp

theorem chunk_docLine {text : List Char} (hfeed : '\n' ∉ text) (hslash : text.head? ≠ some '/')
    (rest : List Char) :
    chunk true ('/' :: '/' :: '/' :: text ++ '\n' :: rest) =
      ⟨some (.docLine (trim text)), ('/' :: '/' :: '/' :: text).length⟩ := by
  have hline : restOfLine ('/' :: '/' :: '/' :: text ++ '\n' :: rest) = '/' :: '/' :: '/' :: text :=
    restOfLine_append (by simpa using hfeed) rest
  have hchunk : chunk true ('/' :: '/' :: '/' :: text ++ '\n' :: rest) =
      lineComment ('/' :: '/' :: '/' :: text ++ '\n' :: rest) := rfl
  rw [hchunk, lineComment, hline]
  split
  · next more heq =>
    cases heq
    exact absurd rfl hslash
  · next more heq =>
    cases heq
    rfl
  · next hnot => exact absurd rfl (hnot text)

def blockText (body : List Char) : List Char := '/' :: '*' :: '*' :: (body ++ ['*', '/'])

theorem chunk_docBlock {body : List Char} (hclose : ¬ ['*', '/'] <:+: body)
    (hslash : body.head? ≠ some '/') (fresh : Bool) (rest : List Char) :
    chunk fresh (blockText body ++ rest) =
      ⟨some (.docBlock (Comment.plainText body)), (blockText body).length⟩ := by
  have htext : blockText body ++ rest = '/' :: '*' :: '*' :: (body ++ '*' :: '/' :: rest) := by
    simp [blockText]
  have hbody : blockBody (body ++ '*' :: '/' :: rest) = (body, body.length + 2) := by
    rw [blockBody, cut?_closingMark hclose]
  have hchunk : chunk fresh ('/' :: '*' :: '*' :: (body ++ '*' :: '/' :: rest)) =
      blockComment ('/' :: '*' :: '*' :: (body ++ '*' :: '/' :: rest)) := rfl
  rw [htext, hchunk, blockComment.eq_2]
  · simp [hbody, blockText]
  · intro more heq
    cases body with
    | nil => cases heq
    | cons c body =>
      cases heq
      exact hslash rfl

end NodeAtlas.Definition
