import NodeAtlas.Definition.Document
import NodeAtlas.Definition.Finding
import NodeAtlas.NodeFlags
import NodeAtlas.Strategy.Name
import NodeAtlas.Strategy.Native

/-! Checks of a document: rows one by one, then repeated node types, then empty groups. -/

namespace NodeAtlas.Definition

namespace Row

/-- The defect of the semantic type expression, if it has one. -/
def semanticTypeFinding (r : Row) : List Finding :=
  match SemanticExpr.parse r.semanticType with
  | .ok _ => []
  | .error cause => [.semanticType r.rawType cause]

def nameFinding (r : Row) : List Finding :=
  if (NameStrategy.parse? r.nameExtraction).isNone then [.nameExtraction r.nameExtraction] else []

def nativeFinding (r : Row) : List Finding :=
  if (NativeStrategy.parse? r.nativeExtraction).isNone then
    [.nativeExtraction r.nativeExtraction]
  else []

def flagsFinding (r : Row) : List Finding :=
  if (NodeFlags.parse? r.flags).isNone then [.flags r.flags] else []

def briefFinding (r : Row) : List Finding :=
  if r.brief.getD "" = "" then [.missingDescription r.rawType] else []

def findings (r : Row) : List Finding :=
  r.semanticTypeFinding ++ r.nameFinding ++ r.nativeFinding ++ r.flagsFinding ++ r.briefFinding

/-- How a row repeats the first row of its node type: in the same category or in another one. -/
def repeats (first r : Row) : Finding :=
  if first.group = r.group then .duplicate r.rawType first.position.line
  else .shadowed r.rawType first.group first.position.line

end Row

namespace Document

/-- The rows that repeat the node type of an earlier one, with what is found at them. -/
def repeatFindings (earlier : List Row) : List Row → List (Position × Finding)
  | [] => []
  | r :: rest =>
    match earlier.find? (·.rawType == r.rawType) with
    | some first => (r.position, Row.repeats first r) :: repeatFindings earlier rest
    | none => repeatFindings (earlier ++ [r]) rest

def emptyGroupFindings (d : Document) : List (Position × Finding) :=
  (d.groups.filter (·.rows.isEmpty)).map fun g => (g.position, .emptyGroup g.name)

def findings (d : Document) : List (Position × Finding) :=
  d.rows.flatMap (fun r => r.findings.map (r.position, ·)) ++ repeatFindings [] d.rows ++
    d.emptyGroupFindings

/-- The diagnostics of a document in source order. -/
def validate (d : Document) : List Diagnostic :=
  Diagnostic.sort (d.findings.map fun f => f.2.diagnostic d.path f.1)

end Document

/-- How many rows the parts of a document have. -/
structure Stats where
  groups : List (String × Nat)
  ungrouped : Nat
  total : Nat

def Stats.of (d : Document) : Stats :=
  let groups := d.groups.map fun g => (g.title, g.rows.length)
  ⟨groups, d.ungrouped.length, Definition.total (groups.map (·.2)) + d.ungrouped.length⟩

end NodeAtlas.Definition
