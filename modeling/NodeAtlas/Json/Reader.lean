import NodeAtlas.Json.Tree
import NodeAtlas.Text.Blank
import NodeAtlas.Text.Search

/-!
Reading JSON with comments. Every text is read: what does not fit the grammar becomes an error
node, and reading goes on at the next separator or closing bracket. Containers inside
`maxNesting` others become one error node each.
-/

namespace NodeAtlas.Json

def maxNesting : Nat := 256

/-- What is left of a text and the byte offset at which it starts. -/
structure Cursor where
  offset : Nat
  rest : List Char

namespace Cursor

/-- Moves over the first character. -/
def next (s : Cursor) : Cursor :=
  match s.rest with
  | [] => s
  | c :: rest => ⟨s.offset + c.utf8Size, rest⟩

/-- Moves over the characters up to the first that fails the test. -/
def skip (s : Cursor) (p : Char → Bool) : Cursor :=
  ⟨s.offset + Text.byteLength (s.rest.takeWhile p), s.rest.dropWhile p⟩

/-- Moves over so many characters. -/
def forward (s : Cursor) (n : Nat) : Cursor :=
  ⟨s.offset + Text.byteLength (s.rest.take n), s.rest.drop n⟩

theorem length_next_lt {s : Cursor} (h : s.rest ≠ []) :
    s.next.rest.length < s.rest.length := by
  unfold next
  split <;> simp_all

theorem length_skip_le (s : Cursor) (p : Char → Bool) :
    (s.skip p).rest.length ≤ s.rest.length :=
  (List.dropWhile_sublist p).length_le

theorem length_skip_lt {s : Cursor} {p : Char → Bool} {c : Char} {rest : List Char}
    (h : s.rest = c :: rest) (hp : p c = true) : (s.skip p).rest.length < s.rest.length := by
  simp only [skip, h, List.dropWhile_cons_of_pos hp, List.length_cons]
  exact Nat.lt_succ_of_le (List.dropWhile_sublist p).length_le

theorem length_forward (s : Cursor) (n : Nat) :
    (s.forward n).rest.length = s.rest.length - n := by
  simp [forward]

end Cursor

/-- A node without children from one cursor to another. -/
def leaf (k : NodeKind) (s t : Cursor) : Tree := .node k s.offset t.offset []

/-- A node for the next character. -/
def token (c : Char) (s : Cursor) : Tree := leaf (.token c) s s.next

def isAsciiLetter (c : Char) : Bool := ('a' ≤ c && c ≤ 'z') || ('A' ≤ c && c ≤ 'Z')

def isAsciiDigit (c : Char) : Bool := '0' ≤ c && c ≤ '9'

def isHexDigit (c : Char) : Bool :=
  isAsciiDigit c || ('a' ≤ c && c ≤ 'f') || ('A' ≤ c && c ≤ 'F')

def isQuoteOrNumber (c : Char) : Bool := c = '"' || c = '-' || isAsciiDigit c

def startsValue (c : Char) : Bool :=
  c = '\x7b' || c = '[' || isQuoteOrNumber c || isAsciiLetter c

/-- The number of characters of a block comment; an open one runs to the end. -/
def commentLength (rest : List Char) : Nat :=
  match Text.cut? ['*', '/'] (rest.drop 2) with
  | some (body, _) => body.length + 4
  | none => rest.length

/-- Skips white space and collects comments. -/
def trivia (s : Cursor) : List Tree × Cursor :=
  match _h : s.rest with
  | [] => ([], s)
  | '/' :: '/' :: _ =>
    let t := s.skip (· ≠ '\n')
    let (more, u) := trivia t
    (leaf .comment s t :: more, u)
  | '/' :: '*' :: _ =>
    let t := s.forward (commentLength s.rest)
    let (more, u) := trivia t
    (leaf .comment s t :: more, u)
  | c :: _ => if Text.isGap c then trivia s.next else ([], s)
termination_by s.rest.length
decreasing_by
  · exact Cursor.length_skip_lt _h (by decide)
  · simp only [Cursor.length_forward, _h]
    unfold commentLength
    split <;> (simp; try omega)
  · exact Cursor.length_next_lt (by simp [_h])

/-- An error node over one character and all up to one that stops it. -/
def errorUntil (stops : Char → Bool) (s : Cursor) : Tree × Cursor :=
  let t := s.next.skip fun c => !stops c
  (leaf .error s t, t)

def word (s : Cursor) : Tree × Cursor :=
  let p := fun c => isAsciiLetter c || isAsciiDigit c || c = '_'
  let t := s.skip p
  let k := match String.ofList (s.rest.takeWhile p) with
    | "true" => NodeKind.true
    | "false" => .false
    | "null" => .null
    | _ => .error
  (leaf k s t, t)

/-- Moves over digits, of which there must be one. -/
def digits (s : Cursor) : Bool × Cursor :=
  ((s.rest.head?.map isAsciiDigit).getD false, s.skip isAsciiDigit)

/-- Moves over a character if it is next. -/
def optional (c : Char) (s : Cursor) : Cursor := if s.rest.head? = some c then s.next else s

/-- A fraction or exponent may follow only a part that is well formed. -/
def fraction (valid : Bool) (s : Cursor) : Bool × Cursor :=
  if valid && s.rest.head? = some '.' then digits s.next else (valid, s)

def exponent (valid : Bool) (s : Cursor) : Bool × Cursor :=
  if valid && (s.rest.head? = some 'e' || s.rest.head? = some 'E') then
    let t := s.next
    digits (if t.rest.head? = some '+' || t.rest.head? = some '-' then t.next else t)
  else (valid, s)

def number (s : Cursor) : Tree × Cursor :=
  let (whole, t) := digits (optional '-' s)
  let (frac, u) := fraction whole t
  let (valid, v) := exponent frac u
  (leaf (if valid then .number else .error) s v, v)

/-- The number of characters of an escape sequence, the backslash included. -/
def escapeLength : List Char → Nat
  | _ :: 'u' :: rest => 2 + ((rest.take 4).takeWhile isHexDigit).length
  | _ :: c :: _ => if c = '\n' then 1 else 2
  | _ => 1

theorem escapeLength_pos (s : List Char) : 0 < escapeLength s := by
  unfold escapeLength
  split
  · omega
  · split <;> omega
  · omega

def isStringContent (c : Char) : Bool := c ≠ '"' && c ≠ '\\' && c ≠ '\n'

/-- The parts of a string after its opening quote, and whether it is closed. -/
def stringParts (s : Cursor) : List Tree × Bool × Cursor :=
  match _h : s.rest with
  | [] => ([], false, s)
  | '\n' :: _ => ([], false, s)
  | '"' :: _ => ([token '"' s], true, s.next)
  | '\\' :: _ =>
    let t := s.forward (escapeLength s.rest)
    let (more, r) := stringParts t
    (leaf .escapeSequence s t :: more, r)
  | _ :: _ =>
    let t := s.next.skip isStringContent
    let (more, r) := stringParts t
    (leaf .stringContent s t :: more, r)
termination_by s.rest.length
decreasing_by
  · have := escapeLength_pos s.rest
    simp only [Cursor.length_forward, _h, List.length_cons] at *
    omega
  · have h1 := Cursor.length_skip_le s.next isStringContent
    have h2 := Cursor.length_next_lt (s := s) (by simp [_h])
    omega

/-- A string that its line does not close is an error node. -/
def string (s : Cursor) : Tree × Cursor :=
  let (parts, closed, t) := stringParts s.next
  (.node (if closed then .string else .error) s.offset t.offset (token '"' s :: parts), t)

/-- What is left after the bracket that closes `depth` inner containers and the current one.
Brackets in strings do not count. -/
def skipContainer (depth : Nat) (inString : Bool) : List Char → List Char
  | [] => []
  | c :: rest =>
    if inString then
      if c = '\\' then
        match rest with
        | [] => []
        | _ :: more => skipContainer depth true more
      else skipContainer depth (c ≠ '"') rest
    else if c = '"' then skipContainer depth true rest
    else if c = '\x7b' || c = '[' then skipContainer (depth + 1) false rest
    else if c = '\x7d' || c = ']' then
      match depth with
      | 0 => rest
      | depth + 1 => skipContainer depth false rest
    else skipContainer depth false rest

/-- An error node over a whole container. -/
def tooDeep (s : Cursor) : Tree × Cursor :=
  let rest := skipContainer 0 false (s.rest.drop 1)
  let t := s.forward (s.rest.length - rest.length)
  (leaf .error s t, t)

/-- How a container is written: its brackets, what an item can start with and where reading goes
on after something else. -/
structure Shape where
  kind : NodeKind
  opening : Char
  closing : Char
  startsItem : Char → Bool
  resumes : Char → Bool

/-- Objects hold pairs. -/
def Shape.object : Shape :=
  ⟨.object, '\x7b', '\x7d', isQuoteOrNumber, fun c => c = ',' || c = '\x7d' || c = '"'⟩

/-- Arrays hold values. -/
def Shape.array : Shape :=
  ⟨.array, '[', ']', startsValue, fun c => c = ',' || c = ']' || startsValue c⟩

/-- What follows an item: a comma, the closing bracket, or an error up to one of them. -/
def separator (closing : Char) (s : Cursor) : List Tree × Cursor :=
  match s.rest with
  | [] => ([], s)
  | c :: _ =>
    if c = ',' then ([token ',' s], s.next)
    else if c = closing then ([], s)
    else
      let (e, t) := errorUntil (fun c => c = ',' || c = closing) s
      if t.rest.head? = some ',' then ([e, token ',' t], t.next) else ([e], t)

/-- One round of a container: the nodes it adds, where it ends, and whether it was the last. -/
structure Round where
  nodes : List Tree
  cursor : Cursor
  last : Bool

def round (shape : Shape) (item : Cursor → Tree × Cursor) (s : Cursor) : Round :=
  let (gap, t) := trivia s
  match t.rest with
  | [] => ⟨gap, t, true⟩
  | c :: _ =>
    if c = shape.closing then ⟨gap ++ [token c t], t.next, true⟩
    else if c = ',' then
      let (e, u) := errorUntil (· ≠ ',') t
      ⟨gap ++ [e], u, false⟩
    else if shape.startsItem c then
      let (i, u) := item t
      let (gap', v) := trivia u
      let (sep, w) := separator shape.closing v
      ⟨gap ++ i :: gap' ++ sep, w, false⟩
    else
      let (e, u) := errorUntil shape.resumes t
      ⟨gap ++ [e], u, false⟩

/-- Every round but the last moves on. -/
def items (shape : Shape) (item : Cursor → Tree × Cursor) (s : Cursor) : List Tree × Cursor :=
  let r := round shape item s
  if _h : r.last = false ∧ r.cursor.rest.length < s.rest.length then
    let (more, t) := items shape item r.cursor
    (r.nodes ++ more, t)
  else (r.nodes, r.cursor)
termination_by s.rest.length
decreasing_by exact _h.2

def container (shape : Shape) (item : Cursor → Tree × Cursor) (s : Cursor) : Tree × Cursor :=
  let (nodes, t) := items shape item s.next
  (.node shape.kind s.offset t.offset (token shape.opening s :: nodes), t)

def key (s : Cursor) : Tree × Cursor :=
  if s.rest.head? = some '"' then string s else number s

/-- A key, a colon and a value; an error node when the colon or the value is missing. -/
def pair (value : Cursor → Tree × Cursor) (s : Cursor) : Tree × Cursor :=
  let (k, t) := key s
  let (gap, u) := trivia t
  if u.rest.head? = some ':' then
    let (gap', v) := trivia u.next
    let front := k :: gap ++ token ':' u :: gap'
    match v.rest with
    | c :: _ =>
      if startsValue c then
        let (x, w) := value v
        (.node .pair s.offset w.offset (front ++ [x]), w)
      else (.node .error s.offset v.offset front, v)
    | [] => (.node .error s.offset v.offset front, v)
  else (.node .error s.offset u.offset (k :: gap), u)

def scalar (s : Cursor) : Tree × Cursor :=
  match s.rest with
  | c :: _ =>
    if c = '"' then string s
    else if c = '-' || isAsciiDigit c then number s
    else if isAsciiLetter c then word s
    else errorUntil (fun c => c = ',' || c = '\x7d' || c = ']') s
  | [] => errorUntil (fun c => c = ',' || c = '\x7d' || c = ']') s

/-- A value with room for so many levels of containers. -/
def value : Nat → Cursor → Tree × Cursor
  | 0, s =>
    if s.rest.head? = some '\x7b' || s.rest.head? = some '[' then tooDeep s else scalar s
  | room + 1, s =>
    if s.rest.head? = some '\x7b' then container .object (pair (value room)) s
    else if s.rest.head? = some '[' then container .array (value room) s
    else scalar s

/-- The values of a text and the errors between them. -/
def documentItems (s : Cursor) : List Tree :=
  let (gap, t) := trivia s
  match t.rest with
  | [] => gap
  | c :: _ =>
    let (x, u) := if startsValue c then value maxNesting t
      else errorUntil (fun c => Text.isGap c || startsValue c) t
    if _h : u.rest.length < s.rest.length then gap ++ x :: documentItems u else gap ++ [x]
termination_by s.rest.length

def read (text : List Char) : Tree :=
  .node .document 0 (Text.byteLength text) (documentItems ⟨0, text⟩)

/-- The syntax tree of a text. -/
def parse (text : List Char) : SyntaxTree := (read text).place none ⟨text, #[]⟩

end NodeAtlas.Json
