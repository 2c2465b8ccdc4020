import NodeAtlas.Glob.Pattern

/-!
Matching of patterns byte by byte. A token maps a text to what can be left of it, and a pattern
matches when nothing can be left.
-/

namespace NodeAtlas.Glob

abbrev Bytes := List UInt8

def utf8 (c : Char) : Bytes := (String.singleton c).toUTF8.toList

def slash : UInt8 := 47

/-- The given text and every later part of it. -/
def suffixes : Bytes → List Bytes
  | [] => [[]]
  | b :: rest => (b :: rest) :: suffixes rest

/-- What follows each slash. -/
def afterSlashes : Bytes → List Bytes
  | [] => []
  | b :: rest => if b = slash then rest :: afterSlashes rest else afterSlashes rest

/-- What a star can leave: with `strict`, it does not take a slash. -/
def afterStar (strict : Bool) : Bytes → List Bytes
  | [] => [[]]
  | b :: rest =>
    if strict && b = slash then [b :: rest] else (b :: rest) :: afterStar strict rest

/-- A range of characters as ranges of bytes: the bytes of the ends side by side, of which the
inner two span a range. -/
def byteRanges (r : Char × Char) : List (UInt8 × UInt8) :=
  let single (bs : Bytes) := bs.map fun b => (b, b)
  if r.1 = r.2 then single (utf8 r.1)
  else
    let low := utf8 r.1
    let high := utf8 r.2
    single low.dropLast ++ [(low.getLastD 0, high.headD 0)] ++ single (high.drop 1)

def inClass (ranges : List (Char × Char)) (b : UInt8) : Bool :=
  (ranges.flatMap byteRanges).any fun r => r.1 ≤ b && b ≤ r.2

mutual

/-- Whether a token can only match the empty text for want of branches. -/
def isVoid : Token → Bool
  | .alternatives branches => areVoid branches
  | _ => false

def areVoid : List (List Token) → Bool
  | [] => true
  | b :: bs => isVoidBranch b && areVoid bs

def isVoidBranch : List Token → Bool
  | [] => true
  | t :: ts => isVoid t && isVoidBranch ts

end

mutual

/-- What a token can leave of a text. -/
def leaves (strict : Bool) (s : Bytes) : Token → List Bytes
  | .literal c => (List.isPrefixOf? (utf8 c) s).toList
  | .anyByte =>
    match s with
    | [] => []
    | b :: rest => if strict && b = slash then [] else [rest]
  | .star => afterStar strict s
  | .leading => s :: afterSlashes s
  | .trailing =>
    match s with
    | [] => []
    | b :: rest => if b = slash then suffixes rest else []
  | .middle =>
    match s with
    | [] => []
    | b :: rest => if b = slash then rest :: afterSlashes rest else []
  | .oneOf negated ranges =>
    match s with
    | [] => []
    | b :: rest => if inClass ranges b != negated then [rest] else []
  | .alternatives branches =>
    if areVoid branches then [s] else (branchLeaves strict s branches).eraseDups

/-- What the branches can leave; empty branches do not count. -/
def branchLeaves (strict : Bool) (s : Bytes) : List (List Token) → List Bytes
  | [] => []
  | b :: bs =>
    (if isVoidBranch b then [] else allLeaves strict [s] b) ++ branchLeaves strict s bs

/-- What tokens in a row can leave of some texts. -/
def allLeaves (strict : Bool) (texts : List Bytes) : List Token → List Bytes
  | [] => texts
  | t :: ts =>
    allLeaves strict ((texts.flatMap fun s => leaves strict s t).eraseDups) ts

end

/-- A pattern; with `strict`, only two stars match a slash. -/
structure Matcher where
  tokens : List Token
  strict : Bool

def Matcher.ofPattern? (strict lenient : Bool) (pattern : List Char) : Option Matcher :=
  (tokens? lenient pattern).map (⟨·, strict⟩)

/-- Two stars alone match everything. -/
def Matcher.accepts (m : Matcher) (path : String) : Bool :=
  match m.tokens with
  | [.leading] => true
  | ts => (allLeaves m.strict [path.toUTF8.toList] ts).contains []

end NodeAtlas.Glob
