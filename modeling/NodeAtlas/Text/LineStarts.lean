import NodeAtlas.Position

/-!
Lines of a text in its UTF-8 encoding. The line of an offset is found by bisection among the offsets at
which lines start, and its column by counting the characters that begin in between.
-/

namespace NodeAtlas

namespace Text

def utf8 (text : List Char) : List UInt8 := text.flatMap String.utf8EncodeChar

/-- A byte that does not start a character. -/
def isContinuation (b : UInt8) : Bool := b &&& 0xC0 == 0x80

/-- The offsets behind line feeds, of which one at the end opens no line. -/
def startsFrom (offset : Nat) : List UInt8 → List Nat
  | [] => []
  | b :: rest =>
    if b = 10 ∧ rest ≠ [] then (offset + 1) :: startsFrom (offset + 1) rest
    else startsFrom (offset + 1) rest

def lineStarts (bs : List UInt8) : Array Nat := (0 :: startsFrom 0 bs).toArray

/-- Where an ascending array has a number between two places, or else where it would have to be put
in. -/
def bisect (xs : Array Nat) (x lo hi : Nat) (h : hi ≤ xs.size) : Except Nat Nat :=
  if _ : lo < hi then
    let mid := (lo + hi) / 2
    have hmid : mid < xs.size := by omega
    match compare xs[mid] x with
    | .eq => .ok mid
    | .lt => bisect xs x (mid + 1) hi h
    | .gt => bisect xs x lo mid (Nat.le_of_lt hmid)
  else .error lo
termination_by hi - lo

/-- The last line that starts at an offset or before it. -/
def lineIndex (starts : Array Nat) (offset : Nat) : Nat :=
  match bisect starts offset 0 starts.size (Nat.le_refl _) with
  | .ok i => i
  | .error i => i - 1

end Text

/-- A text with its bytes and the offsets at which its lines start. -/
structure SourceText where
  text : List Char
  bytes : Array UInt8
  starts : Array Nat
  bytes_eq : bytes = (Text.utf8 text).toArray
  starts_eq : starts = Text.lineStarts (Text.utf8 text)

namespace SourceText

def ofText (text : List Char) : SourceText :=
  let bs := Text.utf8 text
  ⟨text, bs.toArray, Text.lineStarts bs, rfl, rfl⟩

instance : Coe (List Char) SourceText := ⟨ofText⟩

/-- The number of lines, of which an empty text has one. -/
def lineCount (s : SourceText) : Nat := s.starts.size

/-- The position of a byte offset; an offset beyond the end counts as the end. -/
def position (s : SourceText) (offset : Nat) : Position :=
  let stop := min offset s.bytes.size
  let line := Text.lineIndex s.starts stop
  ⟨line + 1, (s.bytes.extract (s.starts.getD line 0) stop).countP fun b => !Text.isContinuation b⟩

end SourceText

namespace Position

def ofOffset (text : List Char) (offset : Nat) : Position := (SourceText.ofText text).position offset

def lineCount (text : List Char) : Nat := (SourceText.ofText text).lineCount

end Position

end NodeAtlas
