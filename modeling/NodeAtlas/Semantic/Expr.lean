import NodeAtlas.Semantic.Refinement
import NodeAtlas.Text.Number

/-!
Semantic type expressions: terms separated by bars, each in any number of parentheses. One term
names the base, at most one other names a refinement of it.
-/

namespace NodeAtlas.SemanticExpr

inductive Failure where
  | unknownType (term : String)
  | missingBase
  | multipleBases (term : String)
  | unknownRefinement (term : String)
  | multipleRefinements (term : String)
  | notApplicable (refinement : String) (base : SemanticType)
  deriving DecidableEq, Repr

/-- Whether the refinement is at fault and not the base. -/
def Failure.concernsRefinement : Failure → Bool
  | unknownRefinement _ | multipleRefinements _ | notApplicable _ _ => true
  | _ => false

def Failure.message : Failure → String
  | unknownType t => s!"unknown semantic type \x60{t}\x60"
  | missingBase => "no base semantic type in expression"
  | multipleBases t => s!"second base semantic type \x60{t}\x60"
  | unknownRefinement r => s!"unknown refinement \x60{r}\x60"
  | multipleRefinements r => s!"second refinement \x60{r}\x60"
  | notApplicable r b => s!"refinement \x60{r}\x60 does not apply to \x60{b.name}\x60"

/-- The inside of a text that starts with an opening and ends with a closing parenthesis. -/
def inside? : List Char → Option (List Char)
  | '(' :: rest =>
    match rest.reverse with
    | ')' :: front => some front.reverse
    | _ => none
  | _ => none

theorem length_of_inside? {s t : List Char} (h : inside? s = some t) : t.length < s.length := by
  unfold inside? at h
  split at h
  · rename_i rest
    split at h
    · rename_i front hr
      have := congrArg List.length hr
      simp only [List.length_reverse, List.length_cons] at this
      cases h
      simp only [List.length_reverse, List.length_cons]
      omega
    · cases h
  · cases h

theorem length_trim_le (s : List Char) : (Text.trim s).length ≤ s.length := by
  simp only [Text.trim, Text.trimEnd, Text.trimStart, List.length_reverse]
  have h1 := (List.dropWhile_sublist (l := (s.dropWhile Text.isBlank).reverse)
    Text.isBlank).length_le
  have h2 := (List.dropWhile_sublist (l := s) Text.isBlank).length_le
  simp only [List.length_reverse] at h1
  omega

/-- Trims, and strips parentheses that enclose the whole text, as often as it can. -/
def stripParens (s : List Char) : List Char :=
  match _h : inside? (Text.trim s) with
  | some t => stripParens t
  | none => Text.trim s
termination_by s.length
decreasing_by
  have := length_of_inside? _h
  have := length_trim_le s
  omega

/-- A term without its namespace. -/
def bare (term : List Char) : List Char :=
  match Text.dropStem? "ASTSemanticType::".toList term with
  | some rest => rest
  | none => Text.dropStem "SemanticTypes::".toList term

/-- A base is named or given as a byte. -/
def baseOf? (s : List Char) : Option SemanticType :=
  match SemanticType.ofName? (.ofList s) with
  | some t => some t
  | none => (Text.byteLiteral? s).map SemanticType.ofCode

/-- What one term contributes. -/
inductive Term where
  | base (t : SemanticType)
  | refinement (r : Refinement)

/-- A term with two colons that is no base has to be a refinement. -/
def Term.read (term : List Char) : Except Failure Term :=
  match baseOf? (bare term) with
  | some t => .ok (.base t)
  | none =>
    if Text.occursIn "::".toList (bare term) then
      match Refinement.ofPath? (bare term) with
      | some r => .ok (.refinement r)
      | none => .error (.unknownRefinement (.ofList term))
    else .error (.unknownType (.ofList term))

/-- The base and the refinement found so far. -/
structure Found where
  base : Option SemanticType := none
  refinement : Option Refinement := none

def Found.add (f : Found) (term : List Char) : Except Failure Found := do
  match ← Term.read term with
  | .base t =>
    if f.base.isSome then .error (.multipleBases (.ofList term)) else .ok { f with base := some t }
  | .refinement r =>
    if f.refinement.isSome then .error (.multipleRefinements (.ofList term))
    else .ok { f with refinement := some r }

def Found.resolve (f : Found) : Except Failure SemanticType :=
  match f.base, f.refinement with
  | none, _ => .error .missingBase
  | some t, none => .ok t
  | some t, some r =>
    if r.group.scope.accepts t then .ok (t.refine r.bits)
    else .error (.notApplicable r.path t.base)

def terms (s : List Char) : List (List Char) := ((stripParens s).splitOn '|').map stripParens

/-- Terms are taken from left to right, and the first fault is reported. -/
def read (s : List Char) : Except Failure SemanticType := do
  let found ← (terms s).foldlM Found.add {}
  found.resolve

def parse (text : String) : Except Failure SemanticType := read text.toList

end NodeAtlas.SemanticExpr
