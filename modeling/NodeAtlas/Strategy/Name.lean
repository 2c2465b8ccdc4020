import NodeAtlas.Text.Blank
import NodeAtlas.Text.Search

/-! Ways to derive a readable name from a matched node. -/

namespace NodeAtlas

inductive NameStrategy where
  | none | nodeText | firstChild | findIdentifier | findProperty | findAssignmentTarget
  | findQualifiedIdentifier | findInDeclarator | findCallTarget | custom
  deriving DecidableEq, Repr

namespace NameStrategy

def all : List NameStrategy :=
  [none, nodeText, firstChild, findIdentifier, findProperty, findAssignmentTarget,
    findQualifiedIdentifier, findInDeclarator, findCallTarget, custom]

def code (s : NameStrategy) : Nat := s.ctorIdx

def label : NameStrategy → String
  | none => "NONE"
  | nodeText => "NODE_TEXT"
  | firstChild => "FIRST_CHILD"
  | findIdentifier => "FIND_IDENTIFIER"
  | findProperty => "FIND_PROPERTY"
  | findAssignmentTarget => "FIND_ASSIGNMENT_TARGET"
  | findQualifiedIdentifier => "FIND_QUALIFIED_IDENTIFIER"
  | findInDeclarator => "FIND_IN_DECLARATOR"
  | findCallTarget => "FIND_CALL_TARGET"
  | custom => "CUSTOM"

/-- Whether the tree itself gives the name: it does not for `none` and `custom`. -/
def readsTree (s : NameStrategy) : Bool := s ≠ none && s ≠ custom

/-- Reads a label, trimmed and after an optional namespace. -/
def read? (s : List Char) : Option NameStrategy :=
  let bare := Text.dropStem "ExtractionStrategy::".toList (Text.trim s)
  all.find? (·.label == .ofList bare)

def parse? (text : String) : Option NameStrategy := read? text.toList

end NameStrategy

end NodeAtlas
