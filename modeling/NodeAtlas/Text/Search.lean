/-! Finding, cutting at and removing a fixed pattern. -/

namespace NodeAtlas.Text

/-- The text without the given beginning, if it has it. -/
def dropStem? (stem s : List Char) : Option (List Char) := stem.isPrefixOf? s

/-- The text without the given beginning, or all of it. -/
def dropStem (stem s : List Char) : List Char := (dropStem? stem s).getD s

/-- The text without the given ending, if it has it. -/
def dropTail? (tail s : List Char) : Option (List Char) :=
  (tail.reverse.isPrefixOf? s.reverse).map List.reverse

/-- The text before and after the first occurrence of the pattern. -/
def cut? (pat : List Char) : List Char → Option (List Char × List Char)
  | [] => if pat = [] then some ([], []) else none
  | c :: rest =>
    match dropStem? pat (c :: rest) with
    | some after => some ([], after)
    | none => (cut? pat rest).map fun p => (c :: p.1, p.2)

def occursIn (pat s : List Char) : Bool := (cut? pat s).isSome

/-- Goes on after `skip` characters; `pat` must not be empty. -/
def eraseFrom (pat : List Char) : Nat → List Char → List Char
  | _, [] => []
  | skip + 1, _ :: rest => eraseFrom pat skip rest
  | 0, c :: rest =>
    if pat.isPrefixOf (c :: rest) then eraseFrom pat (pat.length - 1) rest
    else c :: eraseFrom pat 0 rest

/-- Removes the pattern wherever it is found from left to right. -/
def eraseAll (pat s : List Char) : List Char := eraseFrom pat 0 s

end NodeAtlas.Text
