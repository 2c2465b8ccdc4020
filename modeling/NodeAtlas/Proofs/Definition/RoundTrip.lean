import NodeAtlas.Proofs.Definition.Group

/-!
A definition file that is written is read again as what was written, without a finding.
-/

namespace NodeAtlas.Definition

open Text

/-! ## Tokens of sources -/

namespace RowSource

def expressions (r : RowSource) : List (List Char) :=
  [r.semanticType, r.nameExtraction, r.nativeExtraction, r.flags]

def briefToken (p : Position) (b : List Char) : Located :=
  ⟨p, .docLine (trimEnd ("@brief ".toList ++ b))⟩

/-- The tokens of a row whose text begins at a position. -/
def tokens (p : Position) (r : RowSource) : List Located :=
  (r.brief.map (briefToken p)).toList ++ [⟨positionAfter p r.briefText, .row r.arguments⟩]

theorem text_eq (r : RowSource) :
    r.text = r.briefText ++ (rowText r.rawType r.expressions ++ ['\n']) := by
  have hrow : "DEF_TYPE(".toList ++ [',', ' '].intercalate r.arguments ++ [')'] ++ ['\n'] =
      rowText r.rawType r.expressions ++ ['\n'] := by
    have hname : "DEF_TYPE(".toList = rowName ++ ['('] := rfl
    rw [hname, rowText, arguments, expressions]
    simp
  cases hb : r.brief with
  | none => simpa [text, lines, briefText, hb] using hrow
  | some b => simpa [text, lines, briefText, hb] using hrow

theorem tokensFrom_rowText {raw : List Char} {es : List (List Char)}
    (h : ∀ e ∈ es, IsExpression e) (p : Position) (rest : List Char) :
    tokensFrom p true (rowText raw es ++ '\n' :: rest) =
      ⟨p, .row (Literal.encode raw :: es)⟩ ::
        tokensFrom (positionAfter p (rowText raw es ++ ['\n'])) true rest := by
  have hne : rowText raw es ≠ [] := List.cons_ne_nil _ _
  exact tokensFrom_chunk hne (chunk_row raw h ('\n' :: rest)) p

theorem tokensFrom_brief {b : List Char} (hfeed : '\n' ∉ b) (p : Position) (rest : List Char) :
    tokensFrom p true ("/// @brief ".toList ++ b ++ '\n' :: rest) =
      briefToken p b :: tokensFrom (positionAfter p ("/// @brief ".toList ++ b ++ ['\n'])) true rest := by
  have htag : "@brief ".toList = ['@', 'b', 'r', 'i', 'e', 'f', ' '] := rfl
  have hmark : "/// @brief ".toList = '/' :: '/' :: '/' :: ' ' :: "@brief ".toList := rfl
  have htext : '\n' ∉ ' ' :: ("@brief ".toList ++ b) := by
    rw [htag]
    simpa using hfeed
  have htrim : trim (' ' :: ("@brief ".toList ++ b)) = trimEnd ("@brief ".toList ++ b) := by
    rw [htag]
    rfl
  have hchunk := chunk_docLine htext (by simp) rest
  rw [htrim] at hchunk
  rw [hmark]
  exact @tokensFrom_chunk ('/' :: '/' :: '/' :: ' ' :: ("@brief ".toList ++ b)) rest _ (by simp)
    hchunk p

theorem tokensFrom_text {r : RowSource} (h : r.Valid) (p : Position) (rest : List Char) :
    tokensFrom p true (r.text ++ rest) =
      r.tokens p ++ tokensFrom (positionAfter p r.text) true rest := by
  have hrow := @tokensFrom_rowText r.rawType r.expressions h.expressions
    (positionAfter p r.briefText) rest
  have hstop : positionAfter p r.text =
      positionAfter (positionAfter p r.briefText) (rowText r.rawType r.expressions ++ ['\n']) := by
    rw [text_eq, positionAfter_append]
  have htext : r.text ++ rest =
      r.briefText ++ (rowText r.rawType r.expressions ++ '\n' :: rest) := by
    rw [text_eq]
    simp
  rw [htext, hstop]
  cases hb : r.brief with
  | none =>
    have hbrief : r.briefText = [] := by simp only [briefText, hb]
    rw [hbrief] at hrow ⊢
    rw [tokens, hb, hbrief]
    exact hrow
  | some b =>
    have hbrief : r.briefText = "/// @brief ".toList ++ b ++ ['\n'] := by
      simp only [briefText, hb]
    have hline := tokensFrom_brief (h.brief b hb).2.1 p
      (rowText r.rawType r.expressions ++ '\n' :: rest)
    have hcons : r.briefText ++ (rowText r.rawType r.expressions ++ '\n' :: rest) =
        "/// @brief ".toList ++ b ++ '\n' :: (rowText r.rawType r.expressions ++ '\n' :: rest) := by
      rw [hbrief, List.append_assoc _ ['\n']]
      rfl
    rw [← hbrief, hrow] at hline
    rw [hcons, tokens, hb]
    exact hline

/-- The line of a brief is kept for the next row. -/
theorem docLine_brief {b : List Char} (htrim : trim b = b) (hmark : ¬ ['@', '\x7d'] <:+: b)
    (a : Assembly) (p : Position) :
    a.docLine p (trimEnd ("@brief ".toList ++ b)) = { a with brief := some ⟨b, p.line⟩ } := by
  obtain ⟨c, hc, hctrim, hempty⟩ := briefLine_eq htrim
  have hclosing : Assembly.isClosingMark ("@brief".toList ++ c) = false := by
    rw [Assembly.isClosingMark, occursIn_eq_false_iff]
    exact pair_infix_brief (by decide +kernel) hmark hempty
  have hcut := @cut?_stem "@brief".toList (List.cons_ne_nil _ _) c
  rw [hc, Assembly.docLine, hclosing, hcut]
  simp only [Bool.false_eq_true, if_false, hctrim]

theorem row_arguments (r : RowSource) (a : Assembly) (p : Position) :
    a.row p r.arguments = Assembly.addRow { a with brief := none }
      ⟨.ofList r.rawType, .ofList r.semanticType, .ofList r.nameExtraction,
        .ofList r.nativeExtraction, .ofList r.flags, a.brief.map fun b => String.ofList b.text,
        a.current.map fun g => g.name, p⟩ := by
  simp only [Assembly.row, arguments, Literal.decode?_encode]

/-- The tokens of a row add it where rows go. -/
theorem foldl_tokens {r : RowSource} (h : r.Valid) (p : Position) {a : Assembly}
    (ha : a.brief = none) :
    (r.tokens p).foldl Assembly.add a = a.addRow (r.row (a.current.map (·.name)) p) := by
  have hclear : { a with brief := none } = a := by
    rw [← ha]
  cases hb : r.brief with
  | none =>
    have hbrief : r.briefText = [] := by simp only [briefText, hb]
    rw [tokens, hb]
    change a.row _ r.arguments = _
    rw [row_arguments, hclear, ha, row, hb]
    rfl
  | some b =>
    obtain ⟨htrim, -, hmark⟩ := h.brief b hb
    rw [tokens, hb]
    change (a.docLine p (trimEnd ("@brief ".toList ++ b))).row _ r.arguments = _
    rw [docLine_brief htrim hmark, row_arguments, row, hb]
    exact congrArg (Assembly.addRow · _) hclear

end RowSource

/-- The tokens of rows whose text begins at a position. -/
def rowTokens (p : Position) : List RowSource → List Located
  | [] => []
  | r :: rs => r.tokens p ++ rowTokens (positionAfter p r.text) rs

theorem tokensFrom_rows {rs : List RowSource} (h : ∀ r ∈ rs, r.Valid) (p : Position)
    (rest : List Char) :
    tokensFrom p true (rs.flatMap RowSource.text ++ rest) = rowTokens p rs ++
      tokensFrom (positionAfter p (rs.flatMap RowSource.text)) true rest := by
  induction rs generalizing p with
  | nil => rfl
  | cons r rs ih =>
    rw [List.flatMap_cons, List.append_assoc, RowSource.tokensFrom_text (h r List.mem_cons_self),
      ih fun s hs => h s (List.mem_cons_of_mem r hs), rowTokens, List.append_assoc,
      positionAfter_append]

/-- In a group the rows are added to it one after another. -/
theorem foldl_rowTokens {rs : List RowSource} (h : ∀ r ∈ rs, r.Valid) (p : Position) {a : Assembly}
    {g : Group} (ha : a.brief = none) (hg : a.current = some g) :
    (rowTokens p rs).foldl Assembly.add a =
      { a with current := some { g with rows := g.rows ++ rowsFrom (some g.name) p rs } } := by
  induction rs generalizing p a g with
  | nil =>
    rw [rowsFrom, List.append_nil, ← hg]
    rfl
  | cons r rs ih =>
    have hrow : a.addRow (r.row (some g.name) p) =
        { a with current := some { g with rows := g.rows ++ [r.row (some g.name) p] } } := by
      simp only [Assembly.addRow, hg]
    have hname : a.current.map (·.name) = some g.name := by rw [hg]; rfl
    -- Adding a row takes the waiting brief away and keeps the group open.
    have hrest := @ih (fun s hs => h s (List.mem_cons_of_mem r hs)) (positionAfter p r.text)
      (a.addRow (r.row (some g.name) p)) { g with rows := g.rows ++ [r.row (some g.name) p] }
      (by rw [hrow, ha]) (by rw [hrow])
    rw [rowTokens, List.foldl_append, RowSource.foldl_tokens (h r List.mem_cons_self) p ha, hname,
      hrest, hrow]
    simp [rowsFrom]

namespace GroupSource

/-- The comment at the end of a group. -/
def endText : List Char := blockText [' ', '@', '\x7d', ' ']

theorem text_eq (g : GroupSource) : g.text =
    g.headerText ++ (g.rows.flatMap RowSource.text ++ (endText ++ ['\n'])) := by
  have hrows : (g.rows.flatMap RowSource.lines).flatMap (· ++ ['\n']) =
      g.rows.flatMap RowSource.text := List.flatMap_assoc
  have hsplit (header rows : List (List Char)) (last : List Char) (close : List Char) :
      header ++ last :: rows ++ [close] = (header ++ [last]) ++ (rows ++ [close]) := by
    simp
  have hlines : g.lines = ("/**".toList :: g.header.map (" * ".toList ++ ·) ++ [" */".toList]) ++
      (g.rows.flatMap RowSource.lines ++ [endText]) := hsplit _ _ _ _
  have hend : [endText].flatMap (· ++ ['\n']) = endText ++ ['\n'] := List.append_nil _
  have hbody : (g.rows.flatMap RowSource.lines ++ [endText]).flatMap (· ++ ['\n']) =
      g.rows.flatMap RowSource.text ++ (endText ++ ['\n']) := by
    rw [List.flatMap_append, hrows, hend]
  rw [text, hlines, List.flatMap_append, hbody]
  rfl

/-- The tokens of a group whose text begins at a position. -/
def tokens (p : Position) (g : GroupSource) : List Located :=
  ⟨p, .docBlock (unlines g.plainHeader)⟩ :: (rowTokens (positionAfter p g.headerText) g.rows ++
    [⟨positionAfter (positionAfter p g.headerText) (g.rows.flatMap RowSource.text),
      .docBlock ['@', '\x7d']⟩])

theorem tokensFrom_headerText {g : GroupSource} (h : g.Valid) (p : Position) (rest : List Char) :
    tokensFrom p true (g.headerText ++ rest) = ⟨p, .docBlock (unlines g.plainHeader)⟩ ::
      tokensFrom (positionAfter p g.headerText) true rest := by
  have hslash : g.headerBody.head? ≠ some '/' := by
    intro hhead
    cases hhead
  have hchunk := chunk_docBlock (closing_headerBody h) hslash true ('\n' :: rest)
  rw [plainText_headerBody h] at hchunk
  have hne : blockText g.headerBody ≠ [] := List.cons_ne_nil _ _
  rw [headerText_eq, List.append_assoc]
  exact tokensFrom_chunk hne hchunk p

theorem tokensFrom_endText (p : Position) (rest : List Char) :
    tokensFrom p true (endText ++ '\n' :: rest) =
      ⟨p, .docBlock ['@', '\x7d']⟩ :: tokensFrom (positionAfter p (endText ++ ['\n'])) true rest := by
  have hclose : ¬ ['*', '/'] <:+: [' ', '@', '\x7d', ' '] := by decide
  have hchunk := chunk_docBlock hclose (by simp) true ('\n' :: rest)
  have hplain : Comment.plainText [' ', '@', '\x7d', ' '] = ['@', '\x7d'] := by decide
  rw [hplain] at hchunk
  exact @tokensFrom_chunk endText rest _ (List.cons_ne_nil _ _) hchunk p

theorem tokensFrom_text {g : GroupSource} (h : g.Valid) (p : Position) (rest : List Char) :
    tokensFrom p true (g.text ++ rest) =
      g.tokens p ++ tokensFrom (positionAfter p g.text) true rest := by
  have htext : g.text ++ rest =
      g.headerText ++ (g.rows.flatMap RowSource.text ++ (endText ++ '\n' :: rest)) := by
    rw [text_eq]
    simp
  rw [htext, tokensFrom_headerText h, tokensFrom_rows h.rows, tokensFrom_endText, tokens, text_eq,
    positionAfter_append p, positionAfter_append (positionAfter p g.headerText)]
  simp

theorem docBlock_header {g : GroupSource} (h : g.Valid) (p : Position) {a : Assembly}
    (hcurrent : a.current = none) :
    a.docBlock p (unlines g.plainHeader) = { a with
      current := some { g.group p with rows := [] }
      brief := none } := by
  have hfile : (a.heading.isNone && Block.isFileBlock (unlines g.plainHeader)) = false := by
    rw [isFileBlock_header h, Bool.and_false]
  rw [Assembly.docBlock, hfile, firstGroup?_header h]
  simp only [Bool.false_eq_true, if_false, group_header h, Assembly.openGroup,
    Assembly.abandonGroup, hcurrent]
  rfl

theorem docBlock_end (a : Assembly) (p : Position) :
    a.docBlock p ['@', '\x7d'] = a.closeGroup := by
  have hfile : (a.heading.isNone && Block.isFileBlock ['@', '\x7d']) = false :=
    Bool.and_false _
  rw [Assembly.docBlock, hfile]
  rfl

/-- The tokens of a group add it, with its rows, to the closed ones. -/
theorem foldl_tokens {g : GroupSource} (h : g.Valid) (p : Position) {a : Assembly}
    (hbrief : a.brief = none) (hcurrent : a.current = none) :
    (g.tokens p).foldl Assembly.add a = { a with closed := a.closed ++ [g.group p] } := by
  have hopen : a.add ⟨p, .docBlock (unlines g.plainHeader)⟩ = _ := docBlock_header h p hcurrent
  have hrows := @foldl_rowTokens g.rows h.rows (positionAfter p g.headerText)
    { a with current := some { g.group p with rows := [] }, brief := none }
    { g.group p with rows := [] } rfl rfl
  have hend (b : Assembly) (q : Position) : b.add ⟨q, .docBlock ['@', '\x7d']⟩ = b.closeGroup :=
    docBlock_end b q
  rw [tokens, List.foldl_cons, List.foldl_append, hopen, hrows, List.foldl_cons, List.foldl_nil,
    hend, Assembly.closeGroup]
  simp only [group, List.nil_append, Option.toList_some, hbrief, hcurrent]

end GroupSource

namespace Item

def tokens (p : Position) : Item → List Located
  | row r => r.tokens p
  | group g => g.tokens p

/-- The tokens of items whose text begins at a position. -/
def tokensOf (p : Position) : List Item → List Located
  | [] => []
  | i :: is => i.tokens p ++ tokensOf (positionAfter p i.text) is

theorem tokensFrom_items {is : List Item} (h : ∀ i ∈ is, i.Valid) (p : Position) :
    tokensFrom p true (is.flatMap text) = tokensOf p is := by
  induction is generalizing p with
  | nil =>
    rw [List.flatMap_nil, tokensFrom]
    rfl
  | cons i is ih =>
    have hi := h i List.mem_cons_self
    rw [List.flatMap_cons, tokensOf, ← ih fun j hj => h j (List.mem_cons_of_mem i hj)]
    cases i with
    | row r => exact RowSource.tokensFrom_text hi p _
    | group g => exact GroupSource.tokensFrom_text hi p _

/-- Between items no group is open and no brief waits. -/
theorem foldl_tokensOf {is : List Item} (h : ∀ i ∈ is, i.Valid) (p : Position) {a : Assembly}
    (hbrief : a.brief = none) (hcurrent : a.current = none) :
    (tokensOf p is).foldl Assembly.add a = { a with
      closed := a.closed ++ groupsFrom p is
      ungrouped := a.ungrouped ++ ungroupedFrom p is } := by
  induction is generalizing p a with
  | nil => simp [tokensOf, groupsFrom, ungroupedFrom]
  | cons i is ih =>
    have hi := h i List.mem_cons_self
    have ih := @ih fun j hj => h j (List.mem_cons_of_mem i hj)
    rw [tokensOf, List.foldl_append]
    cases i with
    | row r =>
      have hrow : (r.tokens p).foldl Assembly.add a =
          { a with ungrouped := a.ungrouped ++ [r.row none p] } := by
        rw [RowSource.foldl_tokens hi p hbrief, Assembly.addRow, hcurrent]
        rfl
      have hrest := @ih (positionAfter p r.text)
        { a with ungrouped := a.ungrouped ++ [r.row none p] } hbrief hcurrent
      rw [tokens, hrow]
      refine hrest.trans ?_
      simp [groupsFrom, ungroupedFrom]
    | group g =>
      have hrest := @ih (positionAfter p g.text)
        { a with closed := a.closed ++ [g.group p] } hbrief hcurrent
      rw [tokens, GroupSource.foldl_tokens hi p hbrief hcurrent]
      refine hrest.trans ?_
      simp [groupsFrom, ungroupedFrom]

theorem print_eq (is : List Item) : print is = is.flatMap text := List.flatMap_assoc

/-- What is written is read again: the groups and rows in their order and places, and no finding. -/
theorem parse_print (path : String) {is : List Item} (h : ∀ i ∈ is, i.Valid) :
    parse path (.ofList (print is)) = ⟨document path is, []⟩ := by
  have hfold := foldl_tokensOf h .start (a := {}) rfl rfl
  rw [← tokensFrom_items h, ← print_eq] at hfold
  rw [parse, assemble, String.toList_ofList, Definition.tokens, Assembly.run, hfold]
  simp [Assembly.document, Assembly.diagnostics, Assembly.abandonGroup, document]

theorem parse_print_group_row : ∃ is : List Item,
    print is = ("/**\n * @defgroup g T\n * @brief b\n * d\n * @\x7b\n */\n/// @brief r\n" ++
      "DEF_TYPE(\"\\\"\\n\", F(x,y), N, , 0)\n/** @\x7d */\nDEF_TYPE(\"a\", L, N, N, 0)\n").toList ∧
    (∀ i ∈ is, i.Valid) ∧ parse "t_types.def" (.ofList (print is)) = ⟨document "t_types.def" is, []⟩ := by
  let inside : RowSource := ⟨['"', '\n'], ['F', '(', 'x', ',', 'y', ')'], ['N'], [], ['0'], some ['r']⟩
  let outside : RowSource := ⟨['a'], ['L'], ['N'], ['N'], ['0'], none⟩
  let g : GroupSource := ⟨['g'], ['T'], some ['b'], [['d']], [inside]⟩
  have hinside : inside.Valid := by
    refine ⟨fun e he => ?_, fun b hb => ?_⟩
    · simp only [inside, List.mem_cons, List.not_mem_nil, or_false] at he
      rcases he with rfl | rfl | rfl | rfl <;> exact ⟨by decide, by simp [Unquoted], by decide⟩
    · cases hb
      decide
  have houtside : outside.Valid := by
    refine ⟨fun e he => ?_, by simp [outside]⟩
    simp only [outside, List.mem_cons, List.not_mem_nil, or_false] at he
    rcases he with rfl | rfl | rfl | rfl <;> exact ⟨by decide, by simp [Unquoted], by decide⟩
  have hword : ∀ c ∈ ['g'], isWordChar c = true :=
    List.forall_mem_singleton.mpr (by decide +kernel)
  have htext (c : Char) (hc : c ∈ ['T', 'b', 'd']) : IsHeaderText [c] := by
    simp only [List.mem_cons, List.not_mem_nil, or_false] at hc
    rcases hc with rfl | rfl | rfl <;> exact ⟨by decide, by decide, by decide⟩
  have hg : g.Valid := by
    refine ⟨by simp [g], hword, by simp [g], htext 'T' (by decide), ?_, ?_, ?_⟩
    · intro b hb
      cases hb
      exact ⟨htext 'b' (by decide), by decide⟩
    · intro d hd
      rw [List.mem_singleton.mp hd]
      exact ⟨htext 'd' (by decide), by decide, by decide, by decide⟩
    · intro r hr
      rw [List.mem_singleton.mp hr]
      exact hinside
  have hvalid : ∀ i ∈ [group g, row outside], i.Valid := by
    intro i hi
    simp only [List.mem_cons, List.not_mem_nil, or_false] at hi
    rcases hi with rfl | rfl
    · exact hg
    · exact houtside
  exact ⟨[group g, row outside], by decide +kernel, hvalid, parse_print "t_types.def" hvalid⟩

end Item

end NodeAtlas.Definition
