import NodeAtlas.Text.CaseTable
import NodeAtlas.Text.CodeRange

/-!
Full Unicode case mapping. Only the lower-case form of a capital sigma depends on its neighbours.
-/

namespace NodeAtlas.Text

def image (spans : List CaseSpan) (expansions : List (Nat × List Nat)) (c : Char) : List Char :=
  match expansions.lookup c.toNat with
  | some codes => codes.map Char.ofNat
  | none => [Char.ofNat ((spans.findSome? (·.imageOf? c.toNat)).getD c.toNat)]

def upper (c : Char) : List Char := image upperSpans upperExpansions c

def lower (c : Char) : List Char := image lowerSpans lowerExpansions c

def uppercase (s : List Char) : List Char := s.flatMap upper

def isCased (c : Char) : Bool := inRanges casedRanges c

def isCaseIgnorable (c : Char) : Bool := inRanges caseIgnorableRanges c

/-- The first character that is not ignorable is cased. -/
def startsCased (s : List Char) : Bool :=
  ((s.dropWhile isCaseIgnorable).head?.map isCased).getD false

/-- A capital sigma is final after a cased character when no cased character follows. -/
def lowercaseAfter (before : List Char) : List Char → List Char
  | [] => []
  | c :: rest =>
    let mapped := if c = 'Σ' then
        [if startsCased before && !startsCased rest then 'ς' else 'σ']
      else lower c
    mapped ++ lowercaseAfter (c :: before) rest

def lowercase (s : List Char) : List Char := lowercaseAfter [] s

end NodeAtlas.Text
