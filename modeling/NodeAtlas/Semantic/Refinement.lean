import NodeAtlas.Semantic.Type
import NodeAtlas.Text.Blank
import NodeAtlas.Text.Search

/-! Named refinements of semantic types, four values to a group. -/

namespace NodeAtlas

/-- The base types that a group refines. -/
inductive Scope where
  | type (t : SemanticType)
  | kind (k : Kind)
  | any

def Scope.accepts : Scope → SemanticType → Bool
  | type t, s => s.base = t
  | kind k, s => s.kind = k
  | any, _ => true

structure RefinementGroup where
  name : String
  scope : Scope
  values : Vector String 4

namespace RefinementGroup

def all : List RefinementGroup := [
  ⟨"Function", .type Kind.definition.first, #v["REGULAR", "LAMBDA", "CONSTRUCTOR", "ASYNC"]⟩,
  ⟨"Number", .type Kind.literal.first, #v["INTEGER", "FLOAT", "SCIENTIFIC", "COMPLEX"]⟩,
  ⟨"Structured", .type Kind.literal.fourth, #v["GENERIC", "SEQUENCE", "MAPPING", "SET"]⟩,
  ⟨"Arithmetic", .type Kind.operator.first, #v["BINARY", "UNARY", "BITWISE", "RANGE"]⟩,
  ⟨"Conditional", .type Kind.flowControl.first, #v["BINARY", "MULTIWAY", "GUARD", "TERNARY"]⟩,
  ⟨"Loop", .type Kind.flowControl.second, #v["COUNTER", "ITERATOR", "CONDITIONAL", "INFINITE"]⟩,
  ⟨"Organization", .kind .organization,
    #v["SEQUENTIAL", "COLLECTION", "MAPPING", "HIERARCHICAL"]⟩,
  ⟨"Variable", .type Kind.definition.second, #v["MUTABLE", "IMMUTABLE", "PARAMETER", "FIELD"]⟩,
  ⟨"Call", .type Kind.computation.first, #v["FUNCTION", "METHOD", "CONSTRUCTOR", "MACRO"]⟩,
  ⟨"Import", .type Kind.external.first, #v["MODULE", "SELECTIVE", "WILDCARD", "RELATIVE"]⟩,
  ⟨"String", .type Kind.literal.second, #v["LITERAL", "TEMPLATE", "REGEX", "RAW"]⟩,
  ⟨"Comparison", .type Kind.operator.third, #v["EQUALITY", "RELATIONAL", "MEMBERSHIP", "PATTERN"]⟩,
  ⟨"Assignment", .type Kind.operator.fourth, #v["SIMPLE", "COMPOUND", "DESTRUCTURE", "AUGMENTED"]⟩,
  ⟨"Class", .type Kind.definition.third, #v["REGULAR", "ABSTRACT", "GENERIC", "ENUM"]⟩,
  ⟨"Jump", .type Kind.flowControl.third, #v["RETURN", "BREAK", "CONTINUE", "GOTO"]⟩,
  ⟨"Identifier", .type Kind.name.second, #v["VARIABLE", "FUNCTION", "TYPE", "LABEL"]⟩,
  ⟨"Query", .type Kind.transform.first, #v["SIMPLE", "NESTED", "FILTERED", "GROUPED"]⟩,
  ⟨"Aggregation", .type Kind.transform.fourth, #v["SIMPLE", "CONDITIONAL", "WINDOWED", "GROUPED"]⟩,
  ⟨"Iteration", .type Kind.transform.second, #v["MAP", "FILTER", "REDUCE", "FLAT"]⟩,
  ⟨"Join", .kind .transform, #v["INNER", "LEFT", "RIGHT", "OUTER"]⟩,
  ⟨"Generic", .any, #v["UNSPECIFIED", "RESERVED1", "RESERVED2", "RESERVED3"]⟩]

def find? (name : String) : Option RefinementGroup := all.find? (·.name == name)

/-- The position of a value in its group. -/
def bits? (g : RefinementGroup) (value : String) : Option (Fin 4) :=
  slots.find? fun i => g.values[i] == value

end RefinementGroup

/-- A value of a group; its position is what the byte stores. -/
structure Refinement where
  group : RefinementGroup
  bits : Fin 4

namespace Refinement

def name (r : Refinement) : String := r.group.values[r.bits]

/-- The group and the value name, as diagnostics show them. -/
def path (r : Refinement) : String := r.group.name ++ "::" ++ r.name

def lookup? (group value : String) : Option Refinement := do
  let g ← RefinementGroup.find? group
  let bits ← g.bits? value
  return ⟨g, bits⟩

/-- Reads a group and a value joined by two colons, after an optional namespace. -/
def ofPath? (s : List Char) : Option Refinement := do
  let path := Text.dropStem "SemanticRefinements::".toList (Text.trim s)
  let (group, value) ← Text.cut? "::".toList path
  lookup? (.ofList (Text.trim group)) (.ofList (Text.trim value))

end Refinement

end NodeAtlas
