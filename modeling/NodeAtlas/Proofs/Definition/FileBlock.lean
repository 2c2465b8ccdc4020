import NodeAtlas.Proofs.Definition.Comment
import NodeAtlas.Proofs.Definition.Filing
import NodeAtlas.Proofs.Definition.Recovery

/-!
The file block. Its three sections are read back line by line as they are written, and once they are
read nothing that follows changes them.
-/

namespace NodeAtlas.Definition

open Text

/-- What a file block is written from. A section has a first line and may have more. -/
structure FileSource where
  file : List Char
  brief : List Char
  moreBrief : List (List Char)
  details : List Char
  moreDetails : List (List Char)
  language : List Char
  characteristics : List Char
  moreCharacteristics : List (List Char)
  see : List Char

/-- A line that something stands on, and at its beginning. -/
def OpensSection (l : List Char) : Prop := l ≠ [] ∧ ∀ c ∈ l.head?, isBlank c = false

namespace FileSource

def fileLine (s : FileSource) : List Char := "@file ".toList ++ s.file

def headingLine (s : FileSource) : List Char :=
  "## ".toList ++ s.language ++ " Language Characteristics".toList

def seeLine (s : FileSource) : List Char := "@see ".toList ++ s.see

/-- From the heading of the characteristics on. -/
def lastLines (s : FileSource) : List (List Char) :=
  s.headingLine :: (s.characteristics :: s.moreCharacteristics ++ [[]] ++ [s.seeLine])

def detailsLines (s : FileSource) : List (List Char) :=
  ("@details ".toList ++ s.details) :: (s.moreDetails ++ [[]] ++ s.lastLines)

/-- The lines of the block, without what decorates them. Empty lines stand between the sections. -/
def lines (s : FileSource) : List (List Char) :=
  s.fileLine :: ("@brief ".toList ++ s.brief) :: (s.moreBrief ++ [] :: s.detailsLines)

def heading (s : FileSource) : Heading :=
  ⟨.ofList (unlines (s.brief :: s.moreBrief)), .ofList (unlines (s.details :: s.moreDetails)),
    .ofList (unlines (s.characteristics :: s.moreCharacteristics))⟩

structure Valid (s : FileSource) : Prop where
  plain : ∀ l ∈ s.lines, Comment.IsPlain l
  brief : OpensSection s.brief
  moreBrief : ∀ l ∈ s.moreBrief, trim l ≠ [] ∧ l.head? ≠ some '@'
  details : OpensSection s.details
  moreDetails : ∀ l ∈ s.moreDetails, l.head? ≠ some '@' ∧ ¬ ['#', '#'] <+: l
  detailsEnd : ∀ l ∈ s.moreDetails.getLast?, trim l ≠ []
  characteristics : OpensSection s.characteristics
  unreferred : ∀ l ∈ s.characteristics :: s.moreCharacteristics, ¬ "@see".toList <+: l
  characteristicsEnd : ∀ l ∈ s.moreCharacteristics.getLast?, trim l ≠ []

end FileSource

/-! ## Sections -/

namespace Block

/-- A section goes on to the first line that does not continue it. -/
theorem readHeading_brief (h : Heading) (text : List Char) {more rest : List (List Char)}
    (hmore : ∀ l ∈ more, continuesBrief l = true)
    (hrest : ∀ l ∈ rest.head?, continuesBrief l = false) :
    readHeading h (("@brief".toList ++ text) :: (more ++ rest)) =
      readHeading { h with brief := sectionText [trim text] more } rest := by
  rw [readHeading, dropStem?_append]
  simp only [takeWhile_append_stop hmore hrest, dropWhile_append_stop hmore hrest]

theorem readHeading_details (h : Heading) (text : List Char) {more rest : List (List Char)}
    (hmore : ∀ l ∈ more, continuesDetails l = true)
    (hrest : ∀ l ∈ rest.head?, continuesDetails l = false) :
    readHeading h (("@details".toList ++ text) :: (more ++ rest)) =
      readHeading { h with details := sectionText [trim text] more } rest := by
  have hbrief : dropStem? "@brief".toList ("@details".toList ++ text) = none := rfl
  rw [readHeading, hbrief]
  simp only [dropStem?_append, takeWhile_append_stop hmore hrest,
    dropWhile_append_stop hmore hrest]

theorem readHeading_characteristics (h : Heading) {line : List Char} {more rest : List (List Char)}
    (hline : isCharacteristicsHeading line = true) (hhash : line.head? = some '#')
    (hmore : ∀ l ∈ more, continuesCharacteristics l = true)
    (hrest : ∀ l ∈ rest.head?, continuesCharacteristics l = false) :
    readHeading h (line :: (more ++ rest)) =
      readHeading { h with characteristics := sectionText [] more } rest := by
  have hbrief : dropStem? "@brief".toList line = none := by
    rw [dropStem?_eq_none_iff]
    rintro ⟨rest, rfl⟩
    cases hhash
  have hdetails : dropStem? "@details".toList line = none := by
    rw [dropStem?_eq_none_iff]
    rintro ⟨rest, rfl⟩
    cases hhash
  rw [readHeading, hbrief, hdetails]
  simp only [hline, if_true, takeWhile_append_stop hmore hrest, dropWhile_append_stop hmore hrest]

/-- Other lines outside sections are passed over. -/
theorem readHeading_other (h : Heading) {line : List Char} (rest : List (List Char))
    (hbrief : dropStem? "@brief".toList line = none)
    (hdetails : dropStem? "@details".toList line = none)
    (hline : isCharacteristicsHeading line = false) :
    readHeading h (line :: rest) = readHeading h rest := by
  rw [readHeading, hbrief, hdetails]
  simp [hline]

theorem beforeLast?_append (front : List Char) {tail gap : List Char} (hne : tail ≠ [])
    (htail : ∀ c ∈ tail.getLast?, isBlank c = false) (hgap : ∀ c ∈ gap, isBlank c = true) :
    beforeLast? tail (front ++ tail ++ gap) = some front := by
  have hlast : ∀ c ∈ (front ++ tail).getLast?, isBlank c = false := by
    rwa [List.getLast?_append_of_ne_nil _ hne]
  have hstem : tail.reverse.isPrefixOf? (tail.reverse ++ front.reverse) = some front.reverse :=
    dropStem?_append tail.reverse front.reverse
  rw [beforeLast?, trimEnd_append hgap hlast, dropTail?, List.reverse_append, hstem]
  simp

/-- The heading of the characteristics has its two last words, each behind a blank. -/
theorem isCharacteristicsHeading_of {line rest front name : List Char}
    (hline : dropStem? ['#', '#'] line = some rest)
    (hrest : beforeLast? "Characteristics".toList rest = some front)
    (hfront : front.getLast?.any isBlank = true)
    (hname : beforeLast? "Language".toList front = some name) (hlen : 2 ≤ name.length)
    (hgap : name.getLast?.any isBlank = true) : isCharacteristicsHeading line = true := by
  rw [isCharacteristicsHeading, hline]
  simp only [hrest, hfront, hname, hgap, hlen, decide_true, Bool.and_self]

/-- The text of a section, with or without an empty line behind it. -/
theorem sectionText_eq {ls first more : List (List Char)} (hls : Trimmed (unlines ls))
    (hne : unlines ls ≠ []) (h : first ++ more = ls ∨ first ++ more = ls ++ [[]]) :
    sectionText first more = .ofList (unlines ls) := by
  rw [sectionText]
  rcases h with h | h
  · rw [h, trim_of_trimmed hls]
  · have hcons : ls ≠ [] := fun hnil => hne (by rw [hnil]; rfl)
    have htrim := trim_append (v := []) (w := ['\n']) (by simp) (by simp [isBlank]) hls hne
    rw [h, unlines_concat_nil hcons]
    exact congrArg String.ofList htrim

end Block

namespace FileSource

variable {s : FileSource}

theorem isCharacteristicsHeading_headingLine (s : FileSource) :
    Block.isCharacteristicsHeading s.headingLine = true := by
  have hgap (t : List Char) : (t ++ [' ']).getLast?.any isBlank = true := by
    rw [List.getLast?_concat]
    rfl
  have hblank : ∀ c ∈ [' '], isBlank c = true := List.forall_mem_singleton.mpr rfl
  let name := ' ' :: s.language ++ [' ']
  have hline : dropStem? ['#', '#'] s.headingLine =
      some (name ++ "Language".toList ++ [' '] ++ "Characteristics".toList ++ []) := by
    rw [dropStem?_eq_some_iff, headingLine]
    simp [name]
  have hlen : 2 ≤ name.length := by simp [name]
  exact Block.isCharacteristicsHeading_of hline
    (Block.beforeLast?_append _ (by decide) (notBlank_of_all (by decide)) (List.forall_mem_nil _))
    (hgap _) (Block.beforeLast?_append name (by decide) (notBlank_of_all (by decide)) hblank) hlen
    (hgap _)

/-! ## The whole block -/

/-- A section that reads as it stands. -/
structure IsSection (first : List Char) (more : List (List Char)) : Prop where
  trimmed : trim first = first
  text : Trimmed (unlines (first :: more))
  ne_nil : unlines (first :: more) ≠ []

theorem isSection {first : List Char} {more : List (List Char)} (hfirst : OpensSection first)
    (hsolid : ∀ l ∈ first :: more, ∀ c ∈ l.getLast?, isBlank c = false)
    (hend : ∀ l ∈ more.getLast?, trim l ≠ []) : IsSection first more := by
  refine ⟨trim_of_trimmed ⟨hfirst.2, hsolid first List.mem_cons_self⟩, ?_, ?_⟩
  · apply trimmed_unlines hfirst.1 hfirst.2
    intro l hl
    refine ⟨?_, hsolid l (List.mem_of_getLast? hl)⟩
    rintro rfl
    rw [List.getLast?_cons] at hl
    cases hmore : more.getLast? with
    | none =>
      rw [hmore] at hl
      exact hfirst.1 (Option.some.inj hl)
    | some last =>
      rw [hmore] at hl
      obtain rfl : last = [] := Option.some.inj hl
      exact hend [] hmore rfl
  · intro hnil
    have hhead := head?_unlines hfirst.1 more
    rw [hnil] at hhead
    exact hfirst.1 (List.head?_eq_none_iff.mp hhead.symm)

/-- The lines of a section have no blank behind them, and its first one none behind its tag. -/
theorem Valid.solid (h : s.Valid) (tag : List Char) {first : List Char} {more : List (List Char)}
    (hopens : OpensSection first) (hfirst : tag ++ first ∈ s.lines)
    (hmore : ∀ l ∈ more, l ∈ s.lines) :
    ∀ l ∈ first :: more, ∀ c ∈ l.getLast?, isBlank c = false := by
  refine List.forall_mem_cons.mpr ⟨?_, fun l hl => (h.plain l (hmore l hl)).solid⟩
  have htagged := (h.plain _ hfirst).solid
  rwa [List.getLast?_append_of_ne_nil _ hopens.1] at htagged

theorem Valid.brief_section (h : s.Valid) : IsSection s.brief s.moreBrief :=
  isSection h.brief
    (h.solid "@brief ".toList h.brief (by simp [lines]) (by simp +contextual [lines]))
    fun l hl => (h.moreBrief l (List.mem_of_getLast? hl)).1

theorem Valid.details_section (h : s.Valid) : IsSection s.details s.moreDetails :=
  isSection h.details
    (h.solid "@details ".toList h.details (by simp [lines, detailsLines])
      (by simp +contextual [lines, detailsLines]))
    h.detailsEnd

theorem Valid.characteristics_section (h : s.Valid) :
    IsSection s.characteristics s.moreCharacteristics :=
  isSection h.characteristics
    (h.solid [] h.characteristics (by simp [lines, detailsLines, lastLines])
      (by simp +contextual [lines, detailsLines, lastLines]))
    h.characteristicsEnd

/-- What is read from the heading of the characteristics on. -/
theorem readHeading_lastLines (h : s.Valid) (b : Heading) :
    Block.readHeading b s.lastLines = { b with
      characteristics := .ofList (unlines (s.characteristics :: s.moreCharacteristics)) } := by
  have hmore : ∀ l ∈ s.characteristics :: s.moreCharacteristics ++ [[]],
      Block.continuesCharacteristics l = true := by
    intro l hl
    rw [Block.continuesCharacteristics, Option.isNone_iff_eq_none, dropStem?_eq_none_iff]
    rcases List.mem_append.mp hl with hl | hl
    · exact h.unreferred l hl
    · rw [List.mem_singleton.mp hl]
      decide +kernel
  have hstop : ∀ l ∈ [s.seeLine].head?, Block.continuesCharacteristics l = false := by
    intro l hl
    cases hl
    rfl
  have hsection := h.characteristics_section
  have htext : Block.sectionText [] (s.characteristics :: s.moreCharacteristics ++ [[]]) =
      .ofList (unlines (s.characteristics :: s.moreCharacteristics)) :=
    Block.sectionText_eq hsection.text hsection.ne_nil (.inr rfl)
  rw [lastLines, Block.readHeading_characteristics b (isCharacteristicsHeading_headingLine s) rfl
    hmore hstop, htext, Block.readHeading_other _ _ rfl rfl rfl, Block.readHeading]

theorem readHeading_detailsLines (h : s.Valid) (b : Heading) :
    Block.readHeading b s.detailsLines = { b with
      details := .ofList (unlines (s.details :: s.moreDetails))
      characteristics := .ofList (unlines (s.characteristics :: s.moreCharacteristics)) } := by
  have hmore : ∀ l ∈ s.moreDetails ++ [[]], Block.continuesDetails l = true := by
    intro l hl
    rcases List.mem_append.mp hl with hl | hl
    · obtain ⟨htag, hhash⟩ := h.moreDetails l hl
      simp [Block.continuesDetails, htag, dropStem?_eq_none_iff.mpr hhash]
    · rw [List.mem_singleton.mp hl]
      decide
  have hstop : ∀ l ∈ s.lastLines.head?, Block.continuesDetails l = false := by
    intro l hl
    cases hl
    rfl
  have hsection := h.details_section
  have htext : Block.sectionText [s.details] (s.moreDetails ++ [[]]) =
      .ofList (unlines (s.details :: s.moreDetails)) :=
    Block.sectionText_eq hsection.text hsection.ne_nil (.inr rfl)
  have htag : "@details ".toList ++ s.details = "@details".toList ++ ' ' :: s.details := rfl
  rw [detailsLines, htag, Block.readHeading_details b _ hmore hstop, trim_space hsection.trimmed,
    htext, readHeading_lastLines h]

/-- The three sections are read one after another, and the lines between them are passed over. -/
theorem readHeading_lines (h : s.Valid) : Block.readHeading {} s.lines = s.heading := by
  have hmore : ∀ l ∈ s.moreBrief, Block.continuesBrief l = true := by
    intro l hl
    obtain ⟨hblank, htag⟩ := h.moreBrief l hl
    simp [Block.continuesBrief, hblank, htag]
  have hstop : ∀ l ∈ ([] :: s.detailsLines).head?, Block.continuesBrief l = false := by
    intro l hl
    cases hl
    rfl
  have hsection := h.brief_section
  have htext : Block.sectionText [s.brief] s.moreBrief = .ofList (unlines (s.brief :: s.moreBrief)) :=
    Block.sectionText_eq hsection.text hsection.ne_nil (.inl rfl)
  have htag : "@brief ".toList ++ s.brief = "@brief".toList ++ ' ' :: s.brief := rfl
  rw [lines, Block.readHeading_other _ _ rfl rfl rfl, htag,
    Block.readHeading_brief _ _ hmore hstop, trim_space hsection.trimmed, htext,
    Block.readHeading_other _ _ rfl rfl rfl, readHeading_detailsLines h]
  rfl

/-! ## The block in its file -/

/-- The last line is not empty. -/
theorem exists_moreLines (s : FileSource) : ∃ more, s.lines = s.fileLine :: (more ++ [s.seeLine]) := by
  refine ⟨("@brief ".toList ++ s.brief) :: (s.moreBrief ++ [] :: ("@details ".toList ++ s.details) ::
    (s.moreDetails ++ [[]] ++ s.headingLine ::
      (s.characteristics :: s.moreCharacteristics ++ [[]]))), ?_⟩
  simp [lines, detailsLines, lastLines]

theorem lines_text (h : s.Valid) : Text.lines (unlines s.lines) = s.lines := by
  obtain ⟨more, hmore⟩ := exists_moreLines s
  have hplain := h.plain
  rw [hmore] at hplain ⊢
  rw [← List.cons_append] at hplain ⊢
  obtain ⟨hfront, hsee⟩ := List.forall_mem_append.mp hplain
  exact lines_unlines (fun l hl => (hfront l hl).isLine) (List.cons_ne_nil _ _)
    (hsee _ List.mem_cons_self).feed

theorem section_lines (h : s.Valid) : Trimmed (unlines s.lines) ∧ unlines s.lines ≠ [] := by
  obtain ⟨more, hmore⟩ := exists_moreLines s
  have hopen : OpensSection s.fileLine := ⟨List.cons_ne_nil _ _, fun c hc => by cases hc; rfl⟩
  have hend : ∀ l ∈ (more ++ [s.seeLine]).getLast?, trim l ≠ [] := by
    intro l hl
    rw [List.getLast?_concat] at hl
    cases hl
    have hlast := (h.plain s.seeLine (by simp [hmore])).solid
    rw [trim_of_trimmed ⟨fun c hc => by cases hc; rfl, hlast⟩]
    exact List.cons_ne_nil _ _
  have hsection := isSection hopen (hmore ▸ fun l hl => (h.plain l hl).solid) hend
  rw [hmore]
  exact ⟨hsection.text, hsection.ne_nil⟩

theorem isFileBlock_text (h : s.Valid) : Block.isFileBlock (unlines s.lines) = true := by
  rw [Block.isFileBlock, lines_text h, lines, List.any_cons]
  rfl

theorem heading_text (h : s.Valid) : Block.heading (unlines s.lines) = s.heading := by
  rw [Block.heading, lines_text h, readHeading_lines h]

end FileSource

/-! ## The first file block -/

namespace Assembly

/-- A heading that is there stays. -/
theorem heading_add {a : Assembly} {h : Heading} (ha : a.heading = some h) (l : Located) :
    (a.add l).heading = some h := by
  obtain ⟨p, t⟩ := l
  cases t with
  | docBlock text =>
    have hlater : (a.heading.isNone && Block.isFileBlock text) = false := by
      rw [ha]
      rfl
    show (a.docBlock p text).heading = some h
    rw [docBlock, hlater, if_neg Bool.false_ne_true]
    split
    · exact (heading_abandonGroup a).trans ha
    split
    · exact ha
    split <;> exact ha
  | docLine text => exact (heading_docLine a p text).trans ha
  | row args => exact (heading_row a p args).trans ha
  | malformed text => exact ha

theorem heading_foldl {a : Assembly} {h : Heading} (ha : a.heading = some h) (ts : List Located) :
    (ts.foldl add a).heading = some h := by
  induction ts generalizing a with
  | nil => exact ha
  | cons l ts ih => exact ih (heading_add ha l)

/-- The first file block gives the heading and changes nothing else. -/
theorem add_fileBlock {before : List Located} (hbefore : ∀ l ∈ before, l.isFileBlock = false)
    (p : Position) {text : List Char} (htext : Block.isFileBlock text = true) :
    (before.foldl add {}).add ⟨p, .docBlock text⟩ =
      { before.foldl add {} with heading := some (Block.heading text) } := by
  have hnone : (before.foldl add {}).heading.isSome = false := by
    rw [(files_foldl before).2, List.any_eq_false]
    simpa using hbefore
  have hfirst : ((before.foldl add {}).heading.isNone && Block.isFileBlock text) = true := by
    rw [htext, Bool.and_true, ← Option.not_isSome, hnone]
    rfl
  show (before.foldl add {}).docBlock p text = _
  rw [docBlock, if_pos hfirst]

end Assembly

/-- The first file block of a file gives its heading, line by line as the block has it. It changes
neither groups nor rows nor the brief that waits, and nothing behind it changes the heading. -/
theorem heading_parse {s : FileSource} (h : s.Valid) {ws : List (List Char)}
    (hws : List.Forall₂ Comment.Decorates ws s.lines) {path text : String} {before : List Located}
    {p : Position} {fresh : Bool} {rest : List Char}
    (hread : tokens text.toList =
      before ++ tokensFrom p fresh (blockText (Comment.body ws) ++ rest))
    (hfirst : ∀ l ∈ before, l.isFileBlock = false) :
    let block := blockText (Comment.body ws)
    let l : Located := ⟨p, .docBlock (unlines s.lines)⟩
    tokens text.toList =
        before ++ l :: tokensFrom (positionAfter p block) (freshAfter fresh block) rest ∧
      l.isFileBlock = true ∧
      (before.foldl Assembly.add {}).add l =
        { before.foldl Assembly.add {} with heading := some s.heading } ∧
      (parse path text).document.heading = s.heading := by
  intro block l
  obtain ⟨htrimmed, hne⟩ := FileSource.section_lines h
  have hfile := FileSource.isFileBlock_text h
  have hchunk := Comment.chunk_written hws h.plain htrimmed hne fresh rest
  have hblock : block ≠ [] := List.cons_ne_nil _ _
  have htokens : tokens text.toList =
      before ++ l :: tokensFrom (positionAfter p block) (freshAfter fresh block) rest := by
    rw [hread, tokensFrom_append hblock hchunk]
    rfl
  have hadd := Assembly.add_fileBlock hfirst p hfile
  rw [FileSource.heading_text h] at hadd
  refine ⟨htokens, hfile, hadd, ?_⟩
  have hheading : (Assembly.run (tokens text.toList)).heading = some s.heading := by
    rw [Assembly.run, Assembly.heading_abandonGroup, htokens, List.foldl_append, List.foldl_cons,
      hadd]
    exact Assembly.heading_foldl rfl _
  show (Assembly.run (tokens text.toList)).heading.getD {} = s.heading
  rw [hheading]
  rfl

/-- A block with empty and indented lines in its sections, and with tags in the last of them. -/
def tinyFile : FileSource where
  file := "t_types.def".toList
  brief := "Types".toList
  moreBrief := ["  of a ## grammar".toList]
  details := "Few".toList
  moreDetails := [[], "  @brief ones".toList]
  language := "Tiny".toList
  characteristics := "- Small".toList
  moreCharacteristics := [[], "@file".toList, "  - Flat".toList]
  see := "grammar".toList

def tinyLines : List (List Char) :=
  tinyFile.lines.map fun l => if l = [] then [' ', '*'] else [' ', '*', ' '] ++ l

/-- The block between a brief that waits and another block with the tag of a file. -/
def tinyText : String :=
  .ofList ("/// @brief Waits".toList ++ '\n' :: (blockText (Comment.body tinyLines) ++
    "\n/** @file other\n * @brief Other\n */\n".toList))

theorem tinyFile_valid : tinyFile.Valid where
  plain := by
    have hall : ∀ l ∈ tinyFile.lines, '\n' ∉ l ∧ ¬ ['*', '/'] <:+: l ∧
        (l.getLast?.all fun c => !isBlank c) = true := by
      decide +kernel
    exact fun l hl => ⟨(hall l hl).1, (hall l hl).2.1, notBlank_of_all (hall l hl).2.2⟩
  brief := ⟨by decide +kernel, notBlank_of_all (by decide +kernel)⟩
  moreBrief := by decide +kernel
  details := ⟨by decide +kernel, notBlank_of_all (by decide +kernel)⟩
  moreDetails := by decide +kernel
  detailsEnd := by decide +kernel
  characteristics := ⟨by decide +kernel, notBlank_of_all (by decide +kernel)⟩
  unreferred := by decide +kernel
  characteristicsEnd := by decide +kernel

theorem decorates_tinyLines : List.Forall₂ Comment.Decorates tinyLines tinyFile.lines := by
  rw [tinyLines, List.forall₂_map_left_iff, List.forall₂_same]
  intro l _
  by_cases hl : l = []
  · rw [if_pos hl]
    exact .inr ⟨hl, rfl⟩
  · rw [if_neg hl]
    exact .inl rfl

theorem heading_parse_tinyFile :
    let before : List Located := [⟨⟨1, 0⟩, .docLine "@brief Waits".toList⟩]
    let rest := "\n/** @file other\n * @brief Other\n */\n".toList
    tokens tinyText.toList = before ++
        tokensFrom ⟨2, 0⟩ true (blockText (Comment.body tinyLines) ++ rest) ∧
      (∀ l ∈ before, l.isFileBlock = false) ∧
      (before.foldl Assembly.add {}).brief.isSome = true ∧
      (parse "t_types.def" tinyText).document.heading = ⟨"Types\n  of a ## grammar",
        "Few\n\n  @brief ones", "- Small\n\n@file\n  - Flat"⟩ := by
  intro before rest
  have hread : tokens tinyText.toList = before ++
      tokensFrom ⟨2, 0⟩ true (blockText (Comment.body tinyLines) ++ rest) := by
    have hchunk := @chunk_docLine " @brief Waits".toList (by decide) (by decide)
      (blockText (Comment.body tinyLines) ++ rest)
    have hline := tokensFrom_chunk (List.cons_ne_nil _ _) hchunk .start
    exact (congrArg tokens String.toList_ofList).trans hline
  have hfirst : ∀ l ∈ before, l.isFileBlock = false := List.forall_mem_singleton.mpr rfl
  have hheading : (parse "t_types.def" tinyText).document.heading = tinyFile.heading :=
    (heading_parse tinyFile_valid decorates_tinyLines hread hfirst).2.2.2
  refine ⟨hread, hfirst, by decide +kernel, hheading.trans ?_⟩
  decide +kernel

end NodeAtlas.Definition
