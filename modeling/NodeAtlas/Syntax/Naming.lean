import NodeAtlas.Strategy.Name
import NodeAtlas.Syntax.Walk
import NodeAtlas.Text.Alphabetic
import NodeAtlas.Text.Blank
import NodeAtlas.Text.Search

/-! Names of nodes, as the strategies find them in the tree. -/

namespace NodeAtlas.SyntaxTree

/-- The text of the first child of one of these kinds, or nothing. -/
def childText (t : SyntaxTree) (kinds : List String) (id : Nat) : List Char :=
  ((t.findChild? kinds id).map t.textOf).getD []

/-- The text inside a pair of double quotes, or the text itself. -/
def unquote (s : List Char) : List Char :=
  match s with
  | '"' :: rest =>
    match rest.reverse with
    | '"' :: front => front.reverse
    | _ => s
  | _ => s

def identifierName (t : SyntaxTree) (id : Nat) : List Char :=
  match t.childText ["identifier"] id with
  | [] => t.childText ["qualified_identifier"] id
  | name => name

def propertyName (t : SyntaxTree) (propertyKinds : List String) (id : Nat) : List Char :=
  match t.findChild? propertyKinds id with
  | some c => if t.kind c = "string" then unquote (t.textOf c) else t.textOf c
  | none => []

/-- The identifier that an assignment or declarator around the node starts with. -/
def assignmentTarget (t : SyntaxTree) (id : Nat) : List Char :=
  match t.parent id with
  | none => []
  | some p =>
    if t.kind p = "binary_operator" || Text.occursIn "declarator".toList (t.kind p).toList then
      match t.children p with
      | first :: _ => if t.kind first = "identifier" then t.textOf first else []
      | [] => []
    else []

/-- The last identifier among the children of a qualified node, or the text of the node. -/
def lastSegment (t : SyntaxTree) (id : Nat) : List Char :=
  match (t.children id).reverse.find? fun c => t.kind c = "identifier" with
  | some c => t.textOf c
  | none => t.textOf id

def qualifiedKinds : List String :=
  ["qualified_identifier", "scoped_identifier", "nested_identifier", "property_identifier"]

def qualifiedContainers : List String :=
  ["function_declarator", "method_declarator", "declarator", "class_body", "interface_body"]

/-- A qualified child, of the kinds in order; else what a container holds, at most `depth` levels
down; else an identifier. -/
def qualifiedNameWithin (t : SyntaxTree) : Nat → Nat → List Char
  | 0, _ => []
  | depth + 1, id =>
    match qualifiedKinds.findSome? fun k => t.findChild? [k] id with
    | some q => t.lastSegment q
    | none =>
      let inner := qualifiedContainers.findSome? fun k =>
        (t.findChild? [k] id).bind fun c =>
          match t.qualifiedNameWithin depth c with
          | [] => none
          | name => some name
      inner.getD (t.childText ["identifier"] id)

def qualifiedName (t : SyntaxTree) (id : Nat) : List Char := t.qualifiedNameWithin t.size id

def declaratorKinds : List String :=
  ["function_declarator", "method_declarator", "declarator", "procedure_declarator",
    "init_declarator"]

/-- What separates the name of a function from the type in front of it. -/
def isNameBoundary (c : Char) : Bool := Text.isBlank c || c = ':' || c = '*' || c = '&'

/-- The name before the first opening parenthesis. -/
def nameBeforeParen (s : List Char) : List Char :=
  if s.contains '(' then
    let before := Text.trimEnd (s.takeWhile (· ≠ '('))
    let name := (before.reverse.takeWhile fun c => !isNameBoundary c).reverse
    match name with
    | c :: _ => if Text.isAlphabetic c || c = '_' || c = '~' then name else []
    | [] => []
  else []

def declaratorName (t : SyntaxTree) (id : Nat) : List Char :=
  let inner := declaratorKinds.findSome? fun k =>
    (t.findChild? [k] id).bind fun d =>
      match t.qualifiedName d with
      | [] => none
      | name => some name
  match inner with
  | some name => name
  | none =>
    match t.childText ["identifier"] id with
    | [] => nameBeforeParen (t.textOf id)
    | name => name

def memberKinds : List String :=
  ["member_expression", "field_expression", "attribute", "selector_expression",
    "navigation_expression", "scoped_identifier"]

/-- The called identifier, or the last part of the called member. -/
def callTarget (t : SyntaxTree) (id : Nat) : List Char :=
  match (t.children id).find? t.named with
  | none => []
  | some callee =>
    let last := if memberKinds.contains (t.kind callee) then
        (t.children callee).reverse.find? t.named
      else none
    if t.kind callee = "identifier" then t.textOf callee
    else
      match last with
      | some c => t.textOf c
      | none => t.childText ["identifier"] id

/-- The name of a node; `custom` is for a language to answer. -/
def extractName (t : SyntaxTree) (propertyKinds : List String) (id : Nat) :
    NameStrategy → List Char
  | .none | .custom => []
  | .nodeText => t.textOf id
  | .firstChild => ((t.children id).head?.map t.textOf).getD []
  | .findIdentifier => t.identifierName id
  | .findProperty => t.propertyName propertyKinds id
  | .findAssignmentTarget => t.assignmentTarget id
  | .findQualifiedIdentifier => t.qualifiedName id
  | .findInDeclarator => t.declaratorName id
  | .findCallTarget => t.callTarget id

end NodeAtlas.SyntaxTree
