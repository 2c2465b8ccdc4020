/-!
Glob patterns: `?`, `*`, `**` between slashes, classes in brackets and alternatives in braces. A
backslash takes away the meaning of the next character.
-/

namespace NodeAtlas.Glob

/-- An element of a pattern. -/
inductive Token where
  | literal (c : Char)
  | anyByte
  /-- A star: any bytes. -/
  | star
  /-- Two stars and a slash in front: nothing, or directories. -/
  | leading
  /-- A slash and two stars at the end: whatever is below. -/
  | trailing
  /-- Two stars between slashes: a slash, or directories between slashes. -/
  | middle
  | oneOf (negated : Bool) (ranges : List (Char × Char))
  | alternatives (branches : List (List Token))

/-- How a class ends. -/
inductive ClassEnd where
  | closed (ranges : List (Char × Char)) (rest : List Char)
  | unclosed
  | reversedRange

/-- Lets the newest range end at a character, if it does not end before it starts. -/
def extendRange (c : Char) : List (Char × Char) → Option (List (Char × Char))
  | [] => some [(c, c)]
  | (a, _) :: more => if c < a then none else some ((a, c) :: more)

/-- Reads a class, newest range first. `first` holds for its first character, and `dash` after a
hyphen that a range may need. -/
def readClass (first dash : Bool) (ranges : List (Char × Char)) : List Char → ClassEnd
  | [] => .unclosed
  | c :: rest =>
    if c = ']' && !first then
      .closed (if dash then ('-', '-') :: ranges else ranges).reverse rest
    else if c = '-' && !first && !dash then readClass false true ranges rest
    else if dash then
      match extendRange c ranges with
      | some extended => readClass false false extended rest
      | none => .reversedRange
    else readClass false false ((c, c) :: ranges) rest

/-- An alternation that is being read: its finished branches and the current one, newest first. -/
structure Frame where
  finished : List (List Token) := []
  current : List Token := []

/-- A pattern that is being read: the innermost frame and those around it. -/
structure Draft where
  frame : Frame := {}
  outer : List Frame := []
  previous : Option Char := none
  /-- Once a class is found to be open, a bracket stands for itself. -/
  literalBrackets : Bool := false

namespace Draft

def push (d : Draft) (t : Token) : Draft :=
  { d with frame := { d.frame with current := t :: d.frame.current } }

def after (d : Draft) (c : Char) : Draft := { d with previous := some c }

def openAlternatives (d : Draft) : Draft := { d with frame := {}, outer := d.frame :: d.outer }

def nextBranch (d : Draft) : Draft :=
  { d with frame := ⟨d.frame.current.reverse :: d.frame.finished, []⟩ }

def closeAlternatives? (d : Draft) : Option Draft :=
  match d.outer with
  | [] => none
  | f :: outer =>
    let branches := (d.frame.current.reverse :: d.frame.finished).reverse
    some ({ d with frame := f, outer := outer }.push (.alternatives branches))

/-- Replaces the slash before two stars, unless two stars are there already. -/
def replaceLast (d : Draft) (t : Token) : Draft :=
  match d.frame.current with
  | [] => d.push t
  | .leading :: _ => d
  | .trailing :: _ => d
  | _ :: more => { d with frame := { d.frame with current := t :: more } }

/-- Two stars in a row, of which the text after them is given; also tells whether they take the
next slash. -/
def doubleStar (d : Draft) (rest : List Char) : Draft × Bool :=
  let plain := (d.push .star).push .star
  let atSlash := rest.head? = some '/'
  if d.frame.current.isEmpty then
    if rest.isEmpty || atSlash then (d.push .leading, atSlash) else (plain, false)
  else if d.previous = some '/' ||
      (!d.outer.isEmpty && (d.previous = some ',' || d.previous = some '\x7b')) then
    if rest.isEmpty then (d.replaceLast .trailing, false)
    else if !d.outer.isEmpty && (rest.head? = some ',' || rest.head? = some '\x7d') then
      (d.replaceLast .trailing, false)
    else if atSlash then (d.replaceLast .middle, true)
    else (plain, false)
  else (plain, false)

end Draft

/-- Reads a pattern of at most `fuel` characters. With `lenient`, an open class is text. -/
def readWith (lenient : Bool) : Nat → Draft → List Char → Option Draft
  | 0, d, _ => some d
  | _, d, [] => some d
  | fuel + 1, d, c :: rest =>
    match c with
    | '?' => readWith lenient fuel ((d.push .anyByte).after c) rest
    | '*' =>
      match rest with
      | '*' :: more =>
        let (d', takesSlash) := d.doubleStar more
        if takesSlash then readWith lenient fuel (d'.after '/') (more.drop 1)
        else readWith lenient fuel (d'.after '*') more
      | _ => readWith lenient fuel ((d.push .star).after c) rest
    | '[' =>
      if d.literalBrackets then readWith lenient fuel ((d.push (.literal c)).after c) rest
      else
        let negated := rest.head? = some '!' || rest.head? = some '^'
        match readClass true false [] (if negated then rest.drop 1 else rest) with
        | .closed ranges more =>
          readWith lenient fuel ((d.push (.oneOf negated ranges)).after ']') more
        | .unclosed =>
          if lenient then
            readWith lenient fuel
              (({ d with literalBrackets := true }.push (.literal c)).after c) rest
          else none
        | .reversedRange => none
    | '\x7b' => readWith lenient fuel (d.openAlternatives.after c) rest
    | '\x7d' =>
      match d.closeAlternatives? with
      | some d' => readWith lenient fuel (d'.after c) rest
      | none => none
    | ',' =>
      let d' := if d.outer.isEmpty then d.push (.literal c) else d.nextBranch
      readWith lenient fuel (d'.after c) rest
    | '\\' =>
      match rest with
      | [] => none
      | e :: more => readWith lenient fuel ((d.push (.literal e)).after e) more
    | c => readWith lenient fuel ((d.push (.literal c)).after c) rest

/-- The tokens of a pattern whose classes, braces and escapes are complete. -/
def tokens? (lenient : Bool) (pattern : List Char) : Option (List Token) :=
  match readWith lenient pattern.length {} pattern with
  | some d => if d.outer.isEmpty then some d.frame.current.reverse else none
  | none => none

end NodeAtlas.Glob
