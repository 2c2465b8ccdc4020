import NodeAtlas.Definition.Document
import NodeAtlas.Text.Blank
import NodeAtlas.Text.Lines
import NodeAtlas.Text.Search
import NodeAtlas.Text.Word

/-! Reading the texts of doc blocks: the file block, group headers and briefs. -/

namespace NodeAtlas.Definition.Block

open Text

/-- Whether a block describes the file. -/
def isFileBlock (text : List Char) : Bool :=
  (lines text).any (dropStem? "@file".toList · |>.isSome)

/-- What stands before an ending after which only blanks follow. -/
def beforeLast? (tail s : List Char) : Option (List Char) := dropTail? tail (trimEnd s)

/-- Whether a line is the heading of the characteristics: two hashes, a name, and two words set off
by blanks. -/
def isCharacteristicsHeading (line : List Char) : Bool :=
  match dropStem? ['#', '#'] line with
  | none => false
  | some rest =>
    match beforeLast? "Characteristics".toList rest with
    | none => false
    | some front =>
      front.getLast?.any isBlank &&
        match beforeLast? "Language".toList front with
        | none => false
        | some name => 2 ≤ name.length && name.getLast?.any isBlank

/-- Whether a line of a brief goes on: it is neither blank nor a tag. -/
def continuesBrief (line : List Char) : Bool := trim line ≠ [] && line.head? ≠ some '@'

def continuesDetails (line : List Char) : Bool :=
  line.head? ≠ some '@' && (dropStem? ['#', '#'] line).isNone

def continuesCharacteristics (line : List Char) : Bool :=
  (dropStem? "@see".toList line).isNone

/-- A section: its first line and the lines that go on, as one trimmed text. -/
def sectionText (first : List (List Char)) (more : List (List Char)) : String :=
  .ofList (trim (unlines (first ++ more)))

/-- Collects the sections of a file block. A later section replaces an earlier one of its kind. -/
def readHeading (h : Heading) (ls : List (List Char)) : Heading :=
  match ls with
  | [] => h
  | line :: rest =>
    match dropStem? "@brief".toList line with
    | some text =>
      readHeading { h with brief := sectionText [trim text] (rest.takeWhile continuesBrief) }
        (rest.dropWhile continuesBrief)
    | none =>
      match dropStem? "@details".toList line with
      | some text =>
        readHeading { h with details := sectionText [trim text] (rest.takeWhile continuesDetails) }
          (rest.dropWhile continuesDetails)
      | none =>
        if isCharacteristicsHeading line then
          readHeading
            { h with characteristics := sectionText [] (rest.takeWhile continuesCharacteristics) }
            (rest.dropWhile continuesCharacteristics)
        else readHeading h rest
termination_by ls.length
decreasing_by
  all_goals
    simp only [List.length_cons]
    first
    | omega
    | exact Nat.lt_succ_of_le (List.dropWhile_sublist _).length_le

def heading (text : List Char) : Heading := readHeading {} (lines text)

/-- The name and title at the beginning of a text that starts with a group tag. Blanks, line ends
too, separate them; a title runs to the end of its line. -/
def groupTag? (s : List Char) : Option (List Char × List Char) := do
  let rest ← dropStem? "@defgroup".toList s
  let afterTag := rest.dropWhile isBlank
  let name := afterTag.takeWhile isWordChar
  let afterName := afterTag.dropWhile isWordChar
  let title := afterName.dropWhile isBlank
  if rest.head?.any isBlank && name ≠ [] && afterName.head?.any isBlank && title ≠ [] then
    some (name, trim (title.takeWhile (· ≠ '\n')))
  else none

/-- The first group tag with a name and a title. -/
def firstGroup? : List Char → Option (List Char × List Char)
  | [] => none
  | c :: rest =>
    match groupTag? (c :: rest) with
    | some found => some found
    | none => firstGroup? rest

/-- The brief and the description lines of a group header, up to the opening mark. -/
def groupLines (brief : List Char) : List (List Char) → List Char × List (List Char)
  | [] => (brief, [])
  | line :: rest =>
    let text := trim line
    if occursIn ['@', '\x7b'] text then (brief, [])
    else
      match dropStem? "@brief".toList text with
      | some b => groupLines (trim b) rest
      | none =>
        if text ≠ [] && text.head? ≠ some '@' then
          let (b, description) := groupLines brief rest
          (b, text :: description)
        else groupLines brief rest

/-- The group that a header opens. -/
def group (name title text : List Char) (p : Position) : Group :=
  let body := ((lines text).dropWhile fun l => !occursIn "@defgroup".toList l).drop 1
  let (brief, description) := groupLines [] body
  ⟨.ofList name, .ofList title, .ofList brief, .ofList ([' '].intercalate description), p, []⟩

/-- The lines that a brief goes on over. -/
def briefLines : List (List Char) → List (List Char)
  | [] => []
  | line :: rest =>
    let text := trim line
    if text = [] || text.head? = some '@' then [] else text :: briefLines rest

/-- The brief of a block: the rest of the first line with the tag, and the lines that go on. -/
def brief? (text : List Char) : Option (List Char) :=
  match (lines text).dropWhile fun l => !occursIn "@brief".toList l with
  | [] => none
  | line :: rest =>
    let first := ((cut? "@brief".toList line).map fun p => trim p.2).getD []
    some (trim ([' '].intercalate (first :: briefLines rest)))

end NodeAtlas.Definition.Block
