import NodeAtlas.Semantic.Kind

/-!
Semantic types: a kind, a slot within the kind and a refinement, packed into one byte as
`kkkk ss rr`. Names and summaries belong to the base, the type without its refinement.
-/

namespace NodeAtlas

structure SemanticType where
  kind : Kind
  slot : Fin 4
  refinement : Fin 4 := 0
  deriving DecidableEq, Repr

/-- The names of the four base types of a kind. -/
def Kind.typeNames : Kind → Vector String 4
  | .literal => #v["LITERAL_NUMBER", "LITERAL_STRING", "LITERAL_ATOMIC", "LITERAL_STRUCTURED"]
  | .name => #v["NAME_KEYWORD", "NAME_IDENTIFIER", "NAME_QUALIFIED", "NAME_SCOPED"]
  | .pattern => #v["PATTERN_DESTRUCTURE", "PATTERN_MATCH", "PATTERN_TEMPLATE", "PATTERN_GUARD"]
  | .type => #v["TYPE_PRIMITIVE", "TYPE_COMPOSITE", "TYPE_REFERENCE", "TYPE_GENERIC"]
  | .operator => #v["OPERATOR_ARITHMETIC", "OPERATOR_LOGICAL", "OPERATOR_COMPARISON",
      "OPERATOR_ASSIGNMENT"]
  | .computation => #v["COMPUTATION_CALL", "COMPUTATION_ACCESS", "COMPUTATION_EXPRESSION",
      "COMPUTATION_LAMBDA"]
  | .transform => #v["TRANSFORM_QUERY", "TRANSFORM_ITERATION", "TRANSFORM_PROJECTION",
      "TRANSFORM_AGGREGATION"]
  | .definition => #v["DEFINITION_FUNCTION", "DEFINITION_VARIABLE", "DEFINITION_CLASS",
      "DEFINITION_MODULE"]
  | .execution => #v["EXECUTION_STATEMENT", "EXECUTION_DECLARATION", "EXECUTION_INVOCATION",
      "EXECUTION_MUTATION"]
  | .flowControl => #v["FLOW_CONDITIONAL", "FLOW_LOOP", "FLOW_JUMP", "FLOW_SYNC"]
  | .errorHandling => #v["ERROR_TRY", "ERROR_CATCH", "ERROR_THROW", "ERROR_FINALLY"]
  | .organization => #v["ORGANIZATION_BLOCK", "ORGANIZATION_LIST", "ORGANIZATION_SECTION",
      "ORGANIZATION_CONTAINER"]
  | .metadata => #v["METADATA_COMMENT", "METADATA_ANNOTATION", "METADATA_DIRECTIVE",
      "METADATA_DEBUG"]
  | .external => #v["EXTERNAL_IMPORT", "EXTERNAL_EXPORT", "EXTERNAL_FOREIGN", "EXTERNAL_EMBED"]
  | .parserSpecific => #v["PARSER_PUNCTUATION", "PARSER_DELIMITER", "PARSER_SYNTAX",
      "PARSER_CONSTRUCT"]
  | .reserved => #v["RESERVED_FUTURE1", "RESERVED_FUTURE2", "RESERVED_FUTURE3",
      "RESERVED_FUTURE4"]

/-- One-line summaries of the four base types of a kind. -/
def Kind.typeSummaries : Kind → Vector String 4
  | .literal => #v["integers, floats, decimals", "strings, chars, text",
      "true, false, null, None, undefined", "arrays, objects, composite literals"]
  | .name => #v["language keywords", "simple identifiers", "qualified names (obj.prop)",
      "scoped references (::, this, super)"]
  | .pattern => #v["destructuring patterns", "pattern matching constructs", "template patterns",
      "guards and conditions"]
  | .type => #v["basic types (int, string, etc)", "structs, unions, tuples",
      "pointers, references", "generic/template types"]
  | .operator => #v["+, -, *, /, %, bitwise and shift operators", "&&, ||, !, and, or, not, ? :",
      "==, !=, <, >, <=, >=, is, in", "=, +=, -=, :=, etc."]
  | .computation => #v["function calls", "member access, indexing", "complex expressions",
      "lambdas, anonymous functions"]
  | .transform => #v["SQL queries, LINQ", "map, filter, reduce", "select, extract operations",
      "group by, aggregate operations"]
  | .definition => #v["function definitions", "variable/constant definitions",
      "class/struct definitions", "modules, namespaces"]
  | .execution => #v["expression statements", "variable declarations", "function/method calls",
      "assignments, scope modifications"]
  | .flowControl => #v["if, switch, match", "for, while, do-while",
      "break, continue, return, goto", "async, await, synchronized, yield"]
  | .errorHandling => #v["try blocks", "catch, except blocks", "throw, raise statements",
      "finally, ensure blocks"]
  | .organization => #v["code blocks, scopes", "argument lists, parameter lists",
      "sections, regions", "files, modules, packages"]
  | .metadata => #v["comments, documentation", "decorators, attributes",
      "preprocessor directives", "debug information, source maps"]
  | .external => #v["import statements", "export statements", "foreign function interface",
      "embedded content (HTML, CSS, SQL)"]
  | .parserSpecific => #v["language-specific punctuation", "delimiters, separators",
      "syntax elements", "unique language constructs"]
  | .reserved => #v["reserved for future use", "reserved for future use",
      "reserved for future use", "reserved for future use"]

/-- The slots in order. -/
def slots : List (Fin 4) := [0, 1, 2, 3]

namespace Kind

def first (k : Kind) : SemanticType := ⟨k, 0, 0⟩

def second (k : Kind) : SemanticType := ⟨k, 1, 0⟩

def third (k : Kind) : SemanticType := ⟨k, 2, 0⟩

def fourth (k : Kind) : SemanticType := ⟨k, 3, 0⟩

end Kind

/-- The four base types of a kind, in slot order. -/
def Kind.types (k : Kind) : List SemanticType := [k.first, k.second, k.third, k.fourth]

namespace SemanticType

def code (t : SemanticType) : UInt8 :=
  UInt8.ofNat (16 * t.kind.index + 4 * t.slot.val + t.refinement.val)

/-- Every byte is a semantic type. -/
def ofCode (c : UInt8) : SemanticType :=
  ⟨.ofIndex (c.toNat / 16), Fin.ofNat 4 (c.toNat / 4), Fin.ofNat 4 c.toNat⟩

def superKind (t : SemanticType) : SuperKind := t.kind.superKind

def base (t : SemanticType) : SemanticType := { t with refinement := 0 }

def refine (t : SemanticType) (r : Fin 4) : SemanticType := { t with refinement := r }

def name (t : SemanticType) : String := t.kind.typeNames[t.slot]

def summary (t : SemanticType) : String := t.kind.typeSummaries[t.slot]

/-- The 64 base types in code order. -/
def all : List SemanticType := Kind.all.flatMap Kind.types

/-- The base type of a name, which is case-sensitive. -/
def ofName? (text : String) : Option SemanticType := all.find? (·.name == text)

/-- What is said of a name that no base type has. -/
def unknownName (text : String) : String := s!"unknown semantic type: {text}"

def isCall (t : SemanticType) : Bool :=
  t.base = Kind.computation.first || t.base = Kind.execution.third

/-- Types an indexer typically offers as search targets. -/
def searchable : List SemanticType :=
  Kind.definition.types ++
    [Kind.computation.first, Kind.execution.third, Kind.name.second, Kind.name.third,
      Kind.external.first, Kind.external.second, Kind.metadata.first]

/-- The properties that hold of a type, as words. -/
def traits (t : SemanticType) : List String :=
  let when (p : Bool) (word : String) : List String := if p then [word] else []
  when (t.kind = .definition) "definition" ++ when t.isCall "call" ++
    when (t.kind = .flowControl) "control_flow" ++ when (t.kind = .name) "identifier" ++
    when (t.kind = .literal) "literal" ++ when (t.kind = .operator) "operator" ++
    when (t.kind = .type) "type" ++ when (t.kind = .external) "external" ++
    when (t.kind = .errorHandling) "error" ++ when (t.kind = .metadata) "metadata"

theorem ofCode_code (t : SemanticType) : ofCode t.code = t := by
  obtain ⟨k, s, r⟩ := t
  revert s r
  cases k <;> decide

end SemanticType

end NodeAtlas
