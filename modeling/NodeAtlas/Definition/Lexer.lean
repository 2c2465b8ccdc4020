import NodeAtlas.Definition.Comment
import NodeAtlas.Definition.Literal
import NodeAtlas.Position
import NodeAtlas.Text.Search

/-!
Tokens of definition files: doc comments and row invocations. Other comments, directives, literals
and stray code are passed over. The text is divided into chunks, each with at most one token.
-/

namespace NodeAtlas.Definition

inductive Token where
  /-- A block comment, without its decoration. -/
  | docBlock (text : List Char)
  /-- A line comment, trimmed. -/
  | docLine (text : List Char)
  /-- The trimmed arguments of a row. -/
  | row (args : List (List Char))
  /-- A row that is not closed, from behind its name on. -/
  | malformed (text : List Char)
  deriving DecidableEq, Repr

structure Located where
  position : Position
  token : Token
  deriving DecidableEq, Repr

/-- The beginning of a text that belongs together: how long it is and what it means. -/
structure Chunk where
  token : Option Token
  length : Nat

def isWordStart (c : Char) : Bool := ('a' ≤ c && c ≤ 'z') || ('A' ≤ c && c ≤ 'Z') || c = '_'

def isWordPart (c : Char) : Bool := isWordStart c || ('0' ≤ c && c ≤ '9')

def restOfLine (s : List Char) : List Char := s.takeWhile (· ≠ '\n')

/-- The body of a block comment, and its length with the closing mark. An open comment runs to the
end. -/
def blockBody (s : List Char) : List Char × Nat :=
  match Text.cut? ['*', '/'] s with
  | some (body, _) => (body, body.length + 2)
  | none => (s, s.length)

/-- A block comment is a doc comment when its mark has two stars and does not close at once. -/
def blockComment : List Char → Chunk
  | '/' :: '*' :: '*' :: '/' :: _ => ⟨none, 4⟩
  | '/' :: '*' :: '*' :: rest =>
    let (body, n) := blockBody rest
    ⟨some (.docBlock (Comment.plainText body)), n + 3⟩
  | _ :: _ :: rest => ⟨none, (blockBody rest).2 + 2⟩
  | s => ⟨none, s.length⟩

/-- A line comment is a doc comment when its mark has exactly three slashes. -/
def lineComment (s : List Char) : Chunk :=
  let line := restOfLine s
  match line with
  | '/' :: '/' :: '/' :: '/' :: _ => ⟨none, line.length⟩
  | '/' :: '/' :: '/' :: text => ⟨some (.docLine (Text.trim text)), line.length⟩
  | _ => ⟨none, line.length⟩

/-- The length of a directive, which a backslash before a line feed continues. -/
def directiveLength : List Char → Nat
  | [] => 0
  | '\\' :: '\n' :: rest => directiveLength rest + 2
  | c :: rest => if c = '\n' then 0 else directiveLength rest + 1

/-- The length of a literal with its quotes, and whether it is closed. One that a line feed breaks
off takes the line after it too. -/
def literalLength : List Char → Nat × Bool
  | [] => (0, false)
  | quote :: rest =>
    let (body, closed) := Literal.body quote rest
    if closed then (body.length + 1, true)
    else (body.length + 1 + (restOfLine (rest.drop body.length)).length, false)

/-- Adds a text in front of the first argument. -/
def prepend (s : List Char) : List (List Char) → List (List Char)
  | [] => [s]
  | arg :: args => (s ++ arg) :: args

/-- The arguments up to the closing parenthesis, and the length of all that. Only commas outside
inner parentheses separate arguments. -/
def arguments (depth : Nat) (s : List Char) : Option (List (List Char)) × Nat :=
  match _h : s with
  | [] => (none, 0)
  | c :: rest =>
    if c = '"' ∨ c = '\'' then
      let (n, closed) := literalLength s
      if closed then
        let (args, m) := arguments depth (rest.drop (n - 1))
        (args.map (prepend (s.take n)), n + m)
      else (none, n)
    else if c = '(' then
      let (args, m) := arguments (depth + 1) rest
      (args.map (prepend [c]), m + 1)
    else if c = ')' then
      match depth with
      | 0 => (some [[]], 1)
      | depth + 1 =>
        let (args, m) := arguments depth rest
        (args.map (prepend [c]), m + 1)
    else if c = ',' ∧ depth = 0 then
      let (args, m) := arguments 0 rest
      (args.map ([] :: ·), m + 1)
    else
      let (args, m) := arguments depth rest
      (args.map (prepend [c]), m + 1)
termination_by s.length
decreasing_by all_goals subst _h; simp; try omega

/-- What follows the name of a row; without an opening parenthesis it is a mere mention. -/
def invocation (s : List Char) : Chunk :=
  let gap := (s.takeWhile Text.isGap).length
  match s.drop gap with
  | '(' :: rest =>
    let (args, n) := arguments 0 rest
    let length := gap + 1 + n
    match args with
    | some args => ⟨some (.row (args.map Text.trim)), length⟩
    | none => ⟨some (.malformed (s.take length)), length⟩
  | _ => ⟨none, 0⟩

def rowName : List Char := "DEF_TYPE".toList

def word (s : List Char) : Chunk :=
  let name := s.takeWhile isWordPart
  if name = rowName then
    let call := invocation (s.drop name.length)
    ⟨call.token, name.length + call.length⟩
  else ⟨none, name.length⟩

/-- The next chunk of a text that is not empty. A directive has to be the first on its line. -/
def chunk (fresh : Bool) : List Char → Chunk
  | '/' :: '*' :: rest => blockComment ('/' :: '*' :: rest)
  | '/' :: '/' :: rest => lineComment ('/' :: '/' :: rest)
  | c :: rest =>
    if c = '#' && fresh then ⟨none, directiveLength (c :: rest)⟩
    else if c = '"' || c = '\'' then ⟨none, (literalLength (c :: rest)).1⟩
    else if isWordStart c then word (c :: rest)
    else ⟨none, 1⟩
  | [] => ⟨none, 0⟩

/-- Whether only gaps stand before the next character on its line. -/
def freshAfter (fresh : Bool) (s : List Char) : Bool :=
  s.foldl (fun f c => c = '\n' || (f && Text.isGap c)) fresh

def positionAfter (p : Position) (s : List Char) : Position :=
  s.foldl (fun p c => if c = '\n' then ⟨p.line + 1, 0⟩ else ⟨p.line, p.column + 1⟩) p

/-- The tokens of a text that starts at a position. -/
def tokensFrom (p : Position) (fresh : Bool) (s : List Char) : List Located :=
  if _h : s = [] then []
  else
    let k := chunk fresh s
    let n := max 1 k.length
    let more := tokensFrom (positionAfter p (s.take n)) (freshAfter fresh (s.take n)) (s.drop n)
    match k.token with
    | some token => ⟨p, token⟩ :: more
    | none => more
termination_by s.length
decreasing_by
  have := List.length_pos_iff.mpr _h
  simp only [List.length_drop]
  omega

def tokens (s : List Char) : List Located := tokensFrom .start true s

end NodeAtlas.Definition
