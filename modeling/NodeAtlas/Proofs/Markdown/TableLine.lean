import NodeAtlas.Proofs.Semantic.Rendering

/-!
Lines of tables. A line is divided at its bare bars, those that are not right behind a backslash.
Cells have none, so a line has one more than cells, and each cell shows the text that it was made
from.
-/

namespace NodeAtlas.Markdown

open SemanticExpr (spaced shown shown_escapeCell)

/-! ## Bare bars -/

/-- Each character with the one in front of it. -/
def withLast (last : Option Char) : List Char → List (Option Char × Char)
  | [] => []
  | c :: rest => (last, c) :: withLast (some c) rest

def isBareBar (p : Option Char × Char) : Bool := p.2 = '|' && p.1 ≠ some '\\'

def bareBars (s : List Char) : Nat := (withLast none s).countP isBareBar

/-- What stands before, between and behind the bare bars. -/
def pieces (s : List Char) : List (List Char) :=
  ((withLast none s).splitOnP isBareBar).map (·.map Prod.snd)

/-- The text of a cell: what stands between its two padding spaces, with a bar for a bar with a
backslash. -/
def readCell? (piece : List Char) : Option (List Char) :=
  ((Text.dropStem? [' '] piece).bind (Text.dropTail? [' '])).map shown

/-- No bare bar stands in a text that comes after a character. -/
def Guarded (last : Option Char) (s : List Char) : Prop :=
  ∀ p ∈ withLast last s, isBareBar p = false

theorem withLast_append (last : Option Char) (s t : List Char) :
    withLast last (s ++ t) = withLast last s ++ withLast (s.getLast?.or last) t := by
  induction s generalizing last with
  | nil => rfl
  | cons c s ih => simp [withLast, ih, List.getLast?_cons]

theorem map_snd_withLast (last : Option Char) (s : List Char) :
    (withLast last s).map Prod.snd = s := by
  induction s generalizing last with
  | nil => rfl
  | cons c s ih => simp [withLast, ih]

theorem guarded_cons {last : Option Char} {c : Char} {s : List Char} :
    Guarded last (c :: s) ↔ isBareBar (last, c) = false ∧ Guarded (some c) s :=
  List.forall_mem_cons

theorem guarded_append {last : Option Char} {s t : List Char} :
    Guarded last (s ++ t) ↔ Guarded last s ∧ Guarded (s.getLast?.or last) t := by
  rw [Guarded, withLast_append, List.forall_mem_append]
  rfl

/-! ## Escaped texts -/

theorem escapeCell_append (s t : List Char) :
    escapeCell (s ++ t) = escapeCell s ++ escapeCell t := by
  induction s with
  | nil => rfl
  | cons c s ih =>
    simp only [List.cons_append, escapeCell, ih]
    split
    · rfl
    · split <;> rfl

theorem escapeCell_ne_nil {s : List Char} (h : s ≠ []) : escapeCell s ≠ [] := by
  cases s with
  | nil => exact absurd rfl h
  | cons c s =>
    rw [escapeCell]
    split
    · exact List.cons_ne_nil _ _
    · split <;> exact List.cons_ne_nil _ _

/-- Escapes only put backslashes and spaces into a text, and take only line feeds out. -/
theorem mem_escapeCell_iff {d : Char} (hslash : d ≠ '\\') (hspace : d ≠ ' ') (hfeed : d ≠ '\n')
    (s : List Char) : d ∈ escapeCell s ↔ d ∈ s := by
  induction s with
  | nil => rfl
  | cons c s ih =>
    rw [escapeCell]
    split
    · next hbar => simp [hbar, hslash, ih]
    · split
      · next hc => simp [hc, hspace, hfeed, ih]
      · simp [ih]

theorem lineFeed_not_mem_escapeCell (s : List Char) : '\n' ∉ escapeCell s := by
  induction s with
  | nil => exact List.not_mem_nil
  | cons c s ih =>
    rw [escapeCell]
    split
    · simpa using ih
    · split
      · simpa using ih
      · next hfeed => simpa [Ne.symm hfeed] using ih

/-- Whatever stands in front of an escaped text, its bars have their own backslashes. -/
theorem guarded_escapeCell (last : Option Char) (s : List Char) : Guarded last (escapeCell s) := by
  induction s generalizing last with
  | nil => exact List.forall_mem_nil _
  | cons c s ih =>
    rw [escapeCell]
    split
    · exact guarded_cons.mpr ⟨rfl, guarded_cons.mpr ⟨rfl, ih _⟩⟩
    · next hbar =>
      split
      · exact guarded_cons.mpr ⟨rfl, ih _⟩
      · exact guarded_cons.mpr ⟨by simp [isBareBar, hbar], ih _⟩

/-! ## Lines -/

/-- What stands between two bars for a text. -/
def padded (text : List Char) : List Char := ' ' :: (escapeCell text ++ [' '])

/-- The line of a table with these texts in its cells. -/
def lineOf (texts : List (List Char)) : List Char := '|' :: texts.flatMap (padded · ++ ['|'])

theorem readCell?_padded (text : List Char) : readCell? (padded text) = some (text.map spaced) := by
  have hstem : Text.dropStem? [' '] (padded text) = some (escapeCell text ++ [' ']) :=
    Text.dropStem?_append [' '] _
  have htail : Text.dropTail? [' '] (escapeCell text ++ [' ']) = some (escapeCell text) := by
    simp [Text.dropTail?, List.isPrefixOf?]
  simp [readCell?, hstem, htail, shown_escapeCell]

theorem guarded_padded (text : List Char) : Guarded (some '|') (padded text) := by
  refine guarded_cons.mpr ⟨rfl, guarded_append.mpr ⟨guarded_escapeCell _ _, ?_⟩⟩
  exact List.forall_mem_singleton.mpr rfl

/-- Behind a bar, a cell with the bar that ends it. -/
theorem withLast_padded (text rest : List Char) :
    withLast (some '|') (padded text ++ '|' :: rest) =
      withLast (some '|') (padded text) ++ (some ' ', '|') :: withLast (some '|') rest := by
  simp [withLast_append, withLast, padded]

theorem splitOnP_lineOf (texts : List (List Char)) :
    ((withLast (some '|') (texts.flatMap (padded · ++ ['|']))).splitOnP isBareBar).map
      (·.map Prod.snd) = texts.map padded ++ [[]] := by
  induction texts with
  | nil => rfl
  | cons text texts ih =>
    rw [List.flatMap_cons, List.append_assoc, List.singleton_append, withLast_padded,
      List.splitOnP_append_cons_of_forall_mem (guarded_padded text) _ rfl, List.map_cons,
      map_snd_withLast, ih]
    rfl

theorem pieces_lineOf (texts : List (List Char)) :
    pieces (lineOf texts) = [] :: (texts.map padded ++ [[]]) := by
  have hfirst : isBareBar (none, '|') = true := rfl
  rw [pieces, lineOf, withLast, List.splitOnP_cons_eq_if_modifyHead, if_pos hfirst, List.map_cons,
    splitOnP_lineOf]
  rfl

theorem bareBars_lineOf (texts : List (List Char)) : bareBars (lineOf texts) = texts.length + 1 := by
  have hcells : (withLast (some '|') (texts.flatMap (padded · ++ ['|']))).countP isBareBar =
      texts.length := by
    induction texts with
    | nil => rfl
    | cons text texts ih =>
      have hnone : (withLast (some '|') (padded text)).countP isBareBar = 0 :=
        List.countP_eq_zero.mpr fun p hp => by simp [guarded_padded text p hp]
      rw [List.flatMap_cons, List.append_assoc, List.singleton_append, withLast_padded,
        List.countP_append, hnone, List.countP_cons_of_pos rfl, ih, List.length_cons, Nat.zero_add]
  rw [bareBars, lineOf, withLast, List.countP_cons_of_pos rfl, hcells]

theorem lineFeed_not_mem_lineOf (texts : List (List Char)) : '\n' ∉ lineOf texts := by
  simp [lineOf, padded, lineFeed_not_mem_escapeCell]

theorem mapM_readCell?_padded (texts : List (List Char)) :
    (texts.map padded).mapM readCell? = some (texts.map (·.map spaced)) := by
  induction texts with
  | nil => rfl
  | cons text texts ih => simp [List.mapM_cons, readCell?_padded, ih]

/-! ## Rows -/

/-- What encloses a code span on the left; it is reversed on the right. -/
def fence (raw : List Char) : List Char :=
  if '\x60' ∈ raw then ['\x60', '\x60', ' '] else ['\x60']

/-- The code span of a text, which need not be in a cell. -/
def spanText (raw : List Char) : List Char := fence raw ++ raw ++ (fence raw).reverse

theorem toList_codeSpan (raw : String) :
    (codeSpan raw).toList = escapeCell (spanText raw.toList) := by
  by_cases htick : '\x60' ∈ raw.toList
  · simp [codeSpan, spanText, fence, htick, cell, escapeCell_append, escapeCell]
  · simp [codeSpan, spanText, fence, htick, cell, escapeCell_append, escapeCell]

/-- The texts that the line of a row is made from. -/
def texts (r : Definition.Row) : List (List Char) :=
  [spanText r.rawType.toList, (typeText r.semanticType).toList, r.nameExtraction.toList,
    (r.brief.getD "").toList]

theorem toList_tableLine (r : Definition.Row) : (Page.tableLine r).toList = lineOf (texts r) := by
  simp [Page.tableLine, toList_codeSpan, lineOf, texts, padded, cell]

/-- The line of a row is one line with five bare bars. Nothing stands outside the outer ones, and
between each and the next stands a cell that reads as the text it was made from, with spaces for line
feeds. -/
theorem reads_tableLine (r : Definition.Row) :
    let line := (Page.tableLine r).toList
    '\n' ∉ line ∧ bareBars line = 5 ∧ ∃ cells, pieces line = [] :: (cells ++ [[]]) ∧
      cells.mapM readCell? = some ((texts r).map (·.map spaced)) := by
  intro line
  have hline : line = lineOf (texts r) := toList_tableLine r
  rw [hline]
  exact ⟨lineFeed_not_mem_lineOf _, bareBars_lineOf _, _, pieces_lineOf _,
    mapM_readCell?_padded _⟩

end NodeAtlas.Markdown
