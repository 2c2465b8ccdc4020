import NodeAtlas.Text.Number

/-!
Tokens of YAML texts. Indentation becomes start and end tokens, and a colon makes a key of what
stands before it on its line.
-/

namespace NodeAtlas.Yaml

inductive Style where
  | plain | quoted | literal | folded
  deriving DecidableEq, Repr

inductive Token where
  | version (major minor : Nat)
  /-- Declares what a handle stands for in the tags behind it. -/
  | tagHandle (handle stem : String)
  | documentStart | documentEnd
  | sequenceStart | mappingStart | blockEnd
  | flowSequenceStart | flowSequenceEnd | flowMappingStart | flowMappingEnd
  | entry | comma | key | value
  | alias (name : String)
  | anchor (name : String)
  | tag (handle suffix : String)
  | scalar (text : String) (style : Style)
  deriving DecidableEq, Repr

/-- A place where a key may have started. -/
structure KeyStart where
  possible : Bool := false
  required : Bool := false
  tokenNumber : Nat := 0
  line : Nat := 0
  column : Nat := 0
  index : Nat := 0

structure Scanner where
  rest : List Char
  line : Nat := 0
  column : Nat := 0
  index : Nat := 0
  flowDepth : Nat := 0
  indent : Int := -1
  indents : List Int := []
  keyAllowed : Bool := true
  /-- The possible key of the current flow level, and those of the levels around it. -/
  keyStart : KeyStart := {}
  outerKeys : List KeyStart := []
  tokens : Array Token := #[]

abbrev Scan := StateT Scanner Option

def isBreak (c : Char) : Bool :=
  c = '\n' || c = '\r' || c = '\x85' || c = '\u2028' || c = '\u2029'

def isSpace (c : Char) : Bool := c = ' ' || c = '\t'

/-- White space, or the end of the text. -/
def isGapOrEnd : Option Char → Bool
  | none => true
  | some c => isSpace c || isBreak c

def isNameChar (c : Char) : Bool := c.isAlphanum || c = '_' || c = '-'

/-- Characters that may stand in a text at all. -/
def isPrintable (c : Char) : Bool :=
  c = '\t' || c = '\n' || c = '\r' || c = '\x85' || (0x20 ≤ c.toNat && c.toNat ≤ 0x7E) ||
    (0xA0 ≤ c.toNat && c.toNat ≤ 0xFFFD) || 0x10000 ≤ c.toNat

namespace Scan

def refuse {α : Type} : Scan α := fun _ => none

def peekAt (n : Nat) : Scan (Option Char) := do return (← get).rest[n]?

def peek : Scan (Option Char) := peekAt 0

def skip (n : Nat) : Scan Unit :=
  modify fun s =>
    { s with rest := s.rest.drop n, column := s.column + n, index := s.index + n }

/-- Takes the characters that pass a test, none of which is a line break. -/
def takeWhile (p : Char → Bool) : Scan (List Char) := do
  let taken := (← get).rest.takeWhile p
  skip taken.length
  return taken

/-- Takes a line break as the text it stands for. -/
def takeBreak : Scan (List Char) := do
  let s ← get
  let go (n : Nat) (text : List Char) : Scan (List Char) := do
    set { s with rest := s.rest.drop n, line := s.line + 1, column := 0, index := s.index + n }
    return text
  match s.rest with
  | '\r' :: '\n' :: _ => go 2 ['\n']
  | c :: _ =>
    if c = '\u2028' || c = '\u2029' then go 1 [c]
    else if isBreak c then go 1 ['\n']
    else return []
  | [] => return []

def emit (t : Token) : Scan Unit := modify fun s => { s with tokens := s.tokens.push t }

def allowKey (allowed : Bool) : Scan Unit := modify fun s => { s with keyAllowed := allowed }

/-- Whether a document marker stands at the beginning of a line here. -/
def atMarker (marker : List Char) : Scan Bool := do
  let s ← get
  return s.column = 0 && marker.isPrefixOf s.rest && isGapOrEnd s.rest[3]?

def atAnyMarker : Scan Bool := do
  return (← atMarker ['-', '-', '-']) || (← atMarker ['.', '.', '.'])

/-! Keys and indentation -/

/-- Gives up a possible key; one that is required must not be given up. -/
def dropKey : Scan Unit := do
  let k := (← get).keyStart
  if k.possible && k.required then refuse
  modify fun s => { s with keyStart := { s.keyStart with possible := false } }

/-- Remembers that a key may start here. In block context, a key is required at the current
indentation. -/
def noteKey : Scan Unit := do
  let s ← get
  if s.keyAllowed then
    dropKey
    let required := s.flowDepth = 0 && s.indent = s.column
    modify fun s =>
      { s with keyStart := ⟨true, required, s.tokens.size, s.line, s.column, s.index⟩ }

/-- Opens a block at a column beyond the current one, with its start token before token `number`. -/
def indentTo (column : Nat) (number : Nat) (start : Token) : Scan Unit :=
  modify fun s =>
    if s.flowDepth = 0 && s.indent < (column : Int) then
      { s with
        indent := column
        indents := s.indent :: s.indents
        tokens := s.tokens.extract 0 number ++ #[start] ++ s.tokens.extract number s.tokens.size }
    else s

def closeBlocks (column : Int) : List Int → Scan Unit
  | [] => return
  | outer :: more => do
    if column < (← get).indent then
      emit .blockEnd
      modify fun s => { s with indent := outer, indents := more }
      closeBlocks column more

/-- Ends the blocks that lie beyond a column. -/
def dedentTo (column : Int) : Scan Unit := do
  let s ← get
  if s.flowDepth = 0 then closeBlocks column s.indents

/-! White space -/

/-- Skips white space, comments and line breaks up to the next token. -/
def toNextToken : Nat → Scan Unit
  | 0 => return
  | fuel + 1 => do
    let s ← get
    let tabs := s.flowDepth ≠ 0 || !s.keyAllowed
    let _ ← takeWhile fun c => c = ' ' || (tabs && c = '\t')
    if (← peek) = some '#' then
      let _ ← takeWhile fun c => !isBreak c
    if (← peek).any isBreak then
      let _ ← takeBreak
      if s.flowDepth = 0 then allowKey true
      toNextToken fuel

/-- White space inside a scalar: blanks, or line breaks with what surrounds them. -/
structure Gap where
  blanks : List Char := []
  broken : Bool := false
  first : List Char := []
  more : List Char := []

/-- A single line break becomes a space. -/
def Gap.text (g : Gap) : List Char :=
  if !g.broken then g.blanks
  else if g.first = ['\n'] then if g.more = [] then [' '] else g.more
  else g.first ++ g.more

/-- Takes white space; a tab must not indent a line less than `indent`. -/
def takeGap (indent : Int) : Nat → Gap → Scan Gap
  | 0, g => return g
  | fuel + 1, g => do
    match ← peek with
    | none => return g
    | some c =>
      if isSpace c then
        if g.broken && c = '\t' && (← get).column < indent then refuse
        skip 1
        takeGap indent fuel (if g.broken then g else { g with blanks := g.blanks ++ [c] })
      else if isBreak c then
        let text ← takeBreak
        takeGap indent fuel
          (if g.broken then { g with more := g.more ++ text }
          else { g with blanks := [], broken := true, first := text })
      else return g

/-! Scalars -/

def isFlowMark (c : Char) : Bool :=
  c = ',' || c = '[' || c = ']' || c = '\x7b' || c = '\x7d'

/-- A run of plain characters: up to white space, a colon before white space, or a flow mark in
flow context, where a colon must not touch a flow mark. -/
def plainRun (flow : Bool) : List Char → Option (List Char)
  | [] => some []
  | c :: rest =>
    if isGapOrEnd (some c) then some []
    else if flow && c = ':' && rest.head?.any fun n => isFlowMark n || n = '?' then none
    else if (c = ':' && isGapOrEnd rest.head?) || (flow && isFlowMark c) then some []
    else (plainRun flow rest).map (c :: ·)

/-- Goes on with a plain scalar after some text and the gap behind it. -/
def plainFrom : Nat → List Char → Gap → Scan (List Char)
  | 0, text, _ => return text
  | fuel + 1, text, g => do
    let s ← get
    if (← atAnyMarker) || s.rest.head? = some '#' then return text
    match plainRun (s.flowDepth ≠ 0) s.rest with
    | none => refuse
    | some run =>
      skip run.length
      let text := if run = [] then text else text ++ g.text ++ run
      if (← peek).any fun c => isSpace c || isBreak c then
        let kept := if run = [] then g else {}
        let g ← takeGap (s.indent + 1) ((← get).rest.length) kept
        if g.broken then allowKey true
        if s.flowDepth = 0 && (← get).column < s.indent + 1 then return text
        plainFrom fuel text g
      else return text

def hexValue? (digits : List Char) : Option Nat := Text.readDigits? 16 Text.hexDigit? digits

/-- The character of a code that is one. -/
def charOfCode? (n : Nat) : Option Char := if n.isValidChar then some (Char.ofNat n) else none

/-- The character that an escape stands for, when it has no digits. -/
def escaped? : Char → Option Char
  | '0' => some '\x00'
  | 'a' => some '\x07'
  | 'b' => some '\x08'
  | 't' | '\t' => some '\t'
  | 'n' => some '\n'
  | 'v' => some '\x0b'
  | 'f' => some '\x0c'
  | 'r' => some '\r'
  | 'e' => some '\x1b'
  | ' ' => some ' '
  | '"' => some '"'
  | '/' => some '/'
  | '\\' => some '\\'
  | 'N' => some '\x85'
  | '_' => some '\xa0'
  | 'L' => some '\u2028'
  | 'P' => some '\u2029'
  | _ => none

def digitCount : Char → Nat
  | 'x' => 2
  | 'u' => 4
  | 'U' => 8
  | _ => 0

/-- Takes an escape sequence behind its backslash. -/
def takeEscape : Scan Char := do
  match ← peek with
  | none => refuse
  | some c =>
    skip 1
    let n := digitCount c
    if n = 0 then
      match escaped? c with
      | some e => return e
      | none => refuse
    else
      let digits := (← get).rest.take n
      if digits.length < n then refuse
      match (hexValue? digits).bind charOfCode? with
      | some e =>
        skip n
        return e
      | none => refuse

/-- The characters of a quoted scalar up to white space or the closing quote. An escaped line
break counts as a gap without text. -/
def quotedRun (single : Bool) : Nat → Scan (List Char × Bool)
  | 0 => return ([], false)
  | fuel + 1 => do
    let further (c : Char) : Scan (List Char × Bool) := do
      let (text, continued) ← quotedRun single fuel
      return (c :: text, continued)
    match ← peek with
    | none => return ([], false)
    | some c =>
      if isGapOrEnd (some c) then return ([], false)
      else if single && c = '\'' && (← peekAt 1) = some '\'' then
        skip 2
        further '\''
      else if c = (if single then '\'' else '"') then return ([], false)
      else if !single && c = '\\' then
        skip 1
        if (← peek).any isBreak then
          let _ ← takeBreak
          return ([], true)
        else further (← takeEscape)
      else
        skip 1
        further c

/-- Goes on with a quoted scalar up to its closing quote. -/
def quotedFrom (single : Bool) : Nat → List Char → Scan (List Char)
  | 0, _ => refuse
  | fuel + 1, text => do
    if (← atAnyMarker) || (← peek).isNone then refuse
    let (run, continued) ← quotedRun single ((← get).rest.length)
    if (← peek) = some (if single then '\'' else '"') then
      skip 1
      return text ++ run
    else
      let g ← takeGap 0 ((← get).rest.length) { broken := continued }
      quotedFrom single fuel (text ++ run ++ g.text)

/-- How a block scalar ends: without, with one, or with all of its last line breaks. -/
inductive Chomp where
  | strip | clip | keep
  deriving DecidableEq

def chomp? : Option Char → Option Chomp
  | some '+' => some .keep
  | some '-' => some .strip
  | _ => none

def indentDigit? (c : Option Char) : Option Nat :=
  c.bind fun c => if '0' ≤ c && c ≤ '9' then some (c.toNat - '0'.toNat) else none

/-- The chomping and indentation marks of a block scalar, in either order. -/
def takeBlockHeader : Scan (Chomp × Option Nat) := do
  let digit : Scan (Option Nat) := do
    match indentDigit? (← peek) with
    | some 0 => refuse
    | some n =>
      skip 1
      return some n
    | none => return none
  match chomp? (← peek) with
  | some c =>
    skip 1
    return (c, ← digit)
  | none =>
    let n ← digit
    let next ← peek
    match n.bind fun _ => chomp? next with
    | some c =>
      skip 1
      return (c, n)
    | none => return (.clip, n)

/-- Takes indentation and empty lines. Without a given indentation the widest counts. -/
def takeIndentation (indent : Option Nat) : Nat → Nat → List Char → Scan (List Char × Nat)
  | 0, widest, breaks => return (breaks, widest)
  | fuel + 1, widest, breaks => do
    let s ← get
    let room := indent.map fun n => n - s.column
    let spaces := (s.rest.takeWhile (· = ' ')).length
    skip (room.elim spaces (min spaces))
    let column := (← get).column
    if (← peek) = some '\t' && indent.all (column < ·) then refuse
    let widest := max widest column
    if (← peek).any isBreak then
      let text ← takeBreak
      takeIndentation indent fuel widest (breaks ++ text)
    else return (breaks, widest)

/-- The lines of a block scalar: the text so far, the line break behind its last line, the empty
lines after that, and whether that line starts with a blank. -/
def blockLines (folded : Bool) (indent : Nat) :
    Nat → List Char → List Char → List Char → Bool → Scan (List Char × List Char × List Char)
  | 0, text, last, empty, _ => return (text, last, empty)
  | fuel + 1, text, last, empty, wasBlank => do
    let s ← get
    if s.column ≠ indent || s.rest = [] then return (text, last, empty)
    let isBlank := s.rest.head?.any isSpace
    let joint :=
      if folded && last = ['\n'] && !wasBlank && !isBlank then
        if empty = [] then [' '] else []
      else last
    let line ← takeWhile fun c => !isBreak c
    let next ← takeBreak
    let (breaks, _) ← takeIndentation (some indent) ((← get).rest.length + 1) 0 []
    blockLines folded indent fuel (text ++ joint ++ empty ++ line) next breaks isBlank

def blockScalar (folded : Bool) : Scan (List Char) := do
  let base := (← get).indent
  skip 1
  let (chomp, digit) ← takeBlockHeader
  let _ ← takeWhile isSpace
  if (← peek) = some '#' then
    let _ ← takeWhile fun c => !isBreak c
  if (← peek).any fun c => !isBreak c then refuse
  let _ ← takeBreak
  let given := digit.map fun n => if 0 ≤ base then base.toNat + n else n
  let (empty, widest) ← takeIndentation given ((← get).rest.length + 1) 0 []
  let indent := given.getD (max 1 (max widest (base + 1).toNat))
  let (text, last, rest) ←
    blockLines folded indent ((← get).rest.length + 1) [] [] empty false
  return match chomp with
    | .strip => text
    | .clip => text ++ last
    | .keep => text ++ last ++ rest

/-! Properties and directives -/

def takeName : Scan String := do
  skip 1
  let name ← takeWhile isNameChar
  let next ← peek
  let ends := isGapOrEnd next || next.any fun c => "?:,]\x7d%@\x60".toList.contains c
  if name = [] || !ends then refuse
  return .ofList name

def isUriChar (verbatim : Bool) (c : Char) : Bool :=
  isNameChar c || ";/?:@&=+$.%!~*'()".toList.contains c ||
    (verbatim && (c = ',' || c = '[' || c = ']'))

/-- The octets of a tag, where a percent sign comes before two hexadecimal digits. -/
def octets? : List Char → Option (List UInt8)
  | [] => some []
  | '%' :: a :: b :: rest => do
    let n ← hexValue? [a, b]
    return UInt8.ofNat n :: (← octets? rest)
  | '%' :: _ => none
  | c :: rest => (octets? rest).map (UInt8.ofNat c.toNat :: ·)

/-- Takes a part of a tag, which is not empty behind some text. -/
def takeUri (verbatim : Bool) (head : List Char) : Scan String := do
  let uri := head ++ (← takeWhile (isUriChar verbatim))
  match (octets? uri).bind fun bytes => String.fromUTF8? ⟨bytes.toArray⟩ with
  | some s => if s = "" then refuse else return s
  | none => refuse

/-- A tag in angle brackets, with a handle between exclamation marks, or with one mark. -/
def takeTag : Scan Token := do
  skip 1
  let token ←
    if (← peek) = some '<' then do
      skip 1
      let uri ← takeUri true []
      if (← peek) ≠ some '>' then refuse
      skip 1
      pure (Token.tag "" uri)
    else do
      let name ← takeWhile isNameChar
      if (← peek) = some '!' then
        skip 1
        pure (Token.tag (.ofList ('!' :: name ++ ['!'])) (← takeUri false []))
      else if name = [] && !(← peek).any (isUriChar false) then pure (Token.tag "" "!")
      else pure (Token.tag "!" (← takeUri false name))
  let next ← peek
  if isGapOrEnd next || ((← get).flowDepth ≠ 0 && next = some ',') then return token
  refuse

def takeNumber : Scan Nat := do
  let digits ← takeWhile fun c => '0' ≤ c && c ≤ '9'
  if digits.length > 9 then refuse
  match Text.readDigits? 10 Text.decimalDigit? digits with
  | some n => return n
  | none => refuse

def takeDirective : Scan Token := do
  skip 1
  let name ← takeWhile isNameChar
  if name = [] || !isGapOrEnd (← peek) then refuse
  let _ ← takeWhile isSpace
  let token ←
    if name = "YAML".toList then do
      let major ← takeNumber
      if (← peek) ≠ some '.' then refuse
      skip 1
      pure (Token.version major (← takeNumber))
    else if name = "TAG".toList then do
      if (← peek) ≠ some '!' then refuse
      skip 1
      let handle ← takeWhile isNameChar
      let closed := (← peek) = some '!'
      if !closed && handle ≠ [] then refuse
      if closed then skip 1
      if !(← peek).any isSpace then refuse
      let _ ← takeWhile isSpace
      let uri ← takeUri true []
      if !isGapOrEnd (← peek) then refuse
      pure (Token.tagHandle (.ofList ('!' :: handle ++ if closed then ['!'] else [])) uri)
    else refuse
  let _ ← takeWhile isSpace
  if (← peek) = some '#' then
    let _ ← takeWhile fun c => !isBreak c
  if (← peek).any fun c => !isBreak c then refuse
  let _ ← takeBreak
  return token

/-! Tokens -/

/-- Ends every block before a directive, a marker or the end. -/
def leaveBlocks : Scan Unit := do
  dedentTo (-1)
  dropKey
  allowKey false

def openFlow (t : Token) : Scan Unit := do
  noteKey
  modify fun s =>
    { s with
      outerKeys := s.keyStart :: s.outerKeys, keyStart := {}, flowDepth := s.flowDepth + 1 }
  allowKey true
  skip 1
  emit t

def closeFlow (t : Token) : Scan Unit := do
  dropKey
  modify fun s =>
    match s.outerKeys with
    | [] => s
    | k :: more => { s with keyStart := k, outerKeys := more, flowDepth := s.flowDepth - 1 }
  allowKey false
  skip 1
  emit t

def blockEntry : Scan Unit := do
  let s ← get
  if s.flowDepth = 0 then
    if !s.keyAllowed then refuse
    indentTo s.column s.tokens.size .sequenceStart
  dropKey
  allowKey true
  skip 1
  emit .entry

def explicitKey : Scan Unit := do
  let s ← get
  if s.flowDepth = 0 then
    if !s.keyAllowed then refuse
    indentTo s.column s.tokens.size .mappingStart
  dropKey
  allowKey (s.flowDepth = 0)
  skip 1
  emit .key

/-- A key is limited to its line and to 1024 characters. -/
def isStale (k : KeyStart) (s : Scanner) : Bool := k.line < s.line || k.index + 1024 < s.index

/-- A colon: what may have been a key is one now. -/
def mappingValue : Scan Unit := do
  let s ← get
  let k := s.keyStart
  if k.possible && isStale k s then dropKey
  if k.possible && !isStale k s then
    modify fun s =>
      { s with
        tokens := s.tokens.extract 0 k.tokenNumber ++ #[.key] ++
          s.tokens.extract k.tokenNumber s.tokens.size
        keyStart := { k with possible := false } }
    indentTo k.column k.tokenNumber .mappingStart
    allowKey false
  else
    if s.flowDepth = 0 then
      if !s.keyAllowed then refuse
      indentTo s.column s.tokens.size .mappingStart
    allowKey (s.flowDepth = 0)
  skip 1
  emit .value

/-- Whether a plain scalar can start with a character, given the next one. -/
def startsPlain (flow : Bool) (c : Char) (next : Option Char) : Bool :=
  !(isGapOrEnd (some c) || "-?:,[]\x7b\x7d#&*!|>'\"%@\x60".toList.contains c) ||
    (c = '-' && !next.any isSpace && !isGapOrEnd next) ||
    (!flow && (c = '?' || c = ':') && !isGapOrEnd next)

/-- Takes the token that starts with a character. -/
def takeToken (c : Char) : Scan Unit := do
  let s ← get
  let flow := s.flowDepth ≠ 0
  let next := s.rest[1]?
  if s.column = 0 && c = '%' then
    leaveBlocks
    emit (← takeDirective)
  else if ← atMarker ['-', '-', '-'] then
    leaveBlocks
    skip 3
    emit .documentStart
  else if ← atMarker ['.', '.', '.'] then
    leaveBlocks
    skip 3
    emit .documentEnd
  else if c = '[' then openFlow .flowSequenceStart
  else if c = '\x7b' then openFlow .flowMappingStart
  else if c = ']' then closeFlow .flowSequenceEnd
  else if c = '\x7d' then closeFlow .flowMappingEnd
  else if c = ',' then
    dropKey
    allowKey true
    skip 1
    emit .comma
  else if c = '-' && isGapOrEnd next then blockEntry
  else if c = '?' && (flow || isGapOrEnd next) then explicitKey
  else if c = ':' && (flow || isGapOrEnd next) then mappingValue
  else if c = '*' || c = '&' then
    noteKey
    allowKey false
    let name ← takeName
    emit (if c = '*' then .alias name else .anchor name)
  else if c = '!' then
    noteKey
    allowKey false
    emit (← takeTag)
  else if (c = '|' || c = '>') && !flow then
    dropKey
    allowKey true
    let text ← blockScalar (c = '>')
    emit (.scalar (.ofList text) (if c = '>' then .folded else .literal))
  else if c = '\'' || c = '"' then
    noteKey
    allowKey false
    skip 1
    let text ← quotedFrom (c = '\'') (s.rest.length + 1) []
    emit (.scalar (.ofList text) .quoted)
  else if startsPlain flow c next then
    noteKey
    allowKey false
    let text ← plainFrom (s.rest.length + 1) [] {}
    emit (.scalar (.ofList text) .plain)
  else refuse

def takeTokens : Nat → Scan Unit
  | 0 => refuse
  | fuel + 1 => do
    toNextToken ((← get).rest.length + 1)
    dedentTo (← get).column
    match ← peek with
    | none => leaveBlocks
    | some c =>
      takeToken c
      takeTokens fuel

end Scan

/-- The tokens of a text, if it has only printable characters and complete tokens. -/
def tokens? (text : List Char) : Option (List Token) :=
  let body := match text with
    | '\ufeff' :: rest => rest
    | s => s
  if body.all isPrintable then
    (Scan.takeTokens (body.length + 2) |>.run { rest := body }).map (·.2.tokens.toList)
  else none

end NodeAtlas.Yaml
