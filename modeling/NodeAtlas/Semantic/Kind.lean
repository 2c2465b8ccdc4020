/-! The two upper levels of the taxonomy: four super kinds of four kinds each. -/

namespace NodeAtlas

inductive SuperKind where
  | dataStructure | computation | controlEffects | metaExternal
  deriving DecidableEq, Repr

namespace SuperKind

def all : List SuperKind := [dataStructure, computation, controlEffects, metaExternal]

def name : SuperKind → String
  | dataStructure => "DATA_STRUCTURE"
  | computation => "COMPUTATION"
  | controlEffects => "CONTROL_EFFECTS"
  | metaExternal => "META_EXTERNAL"

def index : SuperKind → Nat
  | dataStructure => 0
  | computation => 1
  | controlEffects => 2
  | metaExternal => 3

def ofIndex : Nat → SuperKind
  | 0 => dataStructure
  | 1 => computation
  | 2 => controlEffects
  | _ => metaExternal

/-- Bits 6 and 7 of the byte. -/
def code (s : SuperKind) : UInt8 := UInt8.ofNat (64 * s.index)

def ofName? (text : String) : Option SuperKind := all.find? (·.name == text)

end SuperKind

inductive Kind where
  | literal | name | pattern | type
  | operator | computation | transform | definition
  | execution | flowControl | errorHandling | organization
  | metadata | external | parserSpecific | reserved
  deriving DecidableEq, Repr

namespace Kind

def all : List Kind :=
  [literal, name, pattern, type, operator, computation, transform, definition, execution,
    flowControl, errorHandling, organization, metadata, external, parserSpecific, reserved]

def label : Kind → String
  | literal => "LITERAL"
  | name => "NAME"
  | pattern => "PATTERN"
  | type => "TYPE"
  | operator => "OPERATOR"
  | computation => "COMPUTATION_NODE"
  | transform => "TRANSFORM"
  | definition => "DEFINITION"
  | execution => "EXECUTION"
  | flowControl => "FLOW_CONTROL"
  | errorHandling => "ERROR_HANDLING"
  | organization => "ORGANIZATION"
  | metadata => "METADATA"
  | external => "EXTERNAL"
  | parserSpecific => "PARSER_SPECIFIC"
  | reserved => "RESERVED"

def index (k : Kind) : Nat := k.ctorIdx

def ofIndex (n : Nat) : Kind := all.getD n reserved

/-- Bits 4 to 7 of the byte. -/
def code (k : Kind) : UInt8 := UInt8.ofNat (16 * k.index)

def superKind (k : Kind) : SuperKind := .ofIndex (k.index / 4)

def ofName? (text : String) : Option Kind := all.find? (·.label == text)

end Kind

end NodeAtlas
