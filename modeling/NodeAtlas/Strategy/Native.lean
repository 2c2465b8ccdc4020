import NodeAtlas.Text.Blank
import NodeAtlas.Text.Search

/-! Patterns of native context that a row may ask for. -/

namespace NodeAtlas

inductive NativeStrategy where
  | none | functionWithParams | functionWithDecorators | arrowFunction | asyncFunction
  | classWithInheritance | classWithMethods | variableWithType | genericFunction
  | methodDefinition | constructorDefinition | interfaceDefinition | enumDefinition
  | importStatement | exportStatement | functionCall | custom
  deriving DecidableEq, Repr

namespace NativeStrategy

def all : List NativeStrategy :=
  [none, functionWithParams, functionWithDecorators, arrowFunction, asyncFunction,
    classWithInheritance, classWithMethods, variableWithType, genericFunction, methodDefinition,
    constructorDefinition, interfaceDefinition, enumDefinition, importStatement, exportStatement,
    functionCall, custom]

/-- Codes count from 0; `custom` has the last byte to itself. -/
def code : NativeStrategy → Nat
  | custom => 255
  | s => s.ctorIdx

def label : NativeStrategy → String
  | none => "NONE"
  | functionWithParams => "FUNCTION_WITH_PARAMS"
  | functionWithDecorators => "FUNCTION_WITH_DECORATORS"
  | arrowFunction => "ARROW_FUNCTION"
  | asyncFunction => "ASYNC_FUNCTION"
  | classWithInheritance => "CLASS_WITH_INHERITANCE"
  | classWithMethods => "CLASS_WITH_METHODS"
  | variableWithType => "VARIABLE_WITH_TYPE"
  | genericFunction => "GENERIC_FUNCTION"
  | methodDefinition => "METHOD_DEFINITION"
  | constructorDefinition => "CONSTRUCTOR_DEFINITION"
  | interfaceDefinition => "INTERFACE_DEFINITION"
  | enumDefinition => "ENUM_DEFINITION"
  | importStatement => "IMPORT_STATEMENT"
  | exportStatement => "EXPORT_STATEMENT"
  | functionCall => "FUNCTION_CALL"
  | custom => "CUSTOM"

/-- Reads a label, trimmed and after an optional namespace. -/
def read? (s : List Char) : Option NativeStrategy :=
  let bare := Text.dropStem "NativeExtractionStrategy::".toList (Text.trim s)
  all.find? (·.label == .ofList bare)

def parse? (text : String) : Option NativeStrategy := read? text.toList

end NativeStrategy

end NodeAtlas
