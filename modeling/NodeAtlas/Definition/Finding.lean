import NodeAtlas.Diagnostic
import NodeAtlas.Semantic.Expr

/-! What can be wrong with a definition file. -/

namespace NodeAtlas.Definition

inductive Finding where
  | unterminatedRow
  | argumentCount (n : Nat)
  | rawTypeNotLiteral (arg : String)
  | unclosedGroup (name : String)
  | semanticType (rawType : String) (cause : SemanticExpr.Failure)
  | nameExtraction (text : String)
  | nativeExtraction (text : String)
  | flags (text : String)
  | missingDescription (rawType : String)
  | duplicate (rawType : String) (firstLine : Nat)
  | shadowed (rawType : String) (firstGroup : Option String) (firstLine : Nat)
  | emptyGroup (name : String)
  deriving DecidableEq, Repr

namespace Finding

def check : Finding → String
  | unterminatedRow | argumentCount _ | rawTypeNotLiteral _ => "Def/Syntax"
  | unclosedGroup _ => "Def/UnclosedGroup"
  | semanticType _ cause =>
    if cause.concernsRefinement then "Def/InvalidRefinement" else "Def/UnknownSemanticType"
  | nameExtraction _ => "Def/UnknownNameExtraction"
  | nativeExtraction _ => "Def/UnknownNativeExtraction"
  | flags _ => "Def/UnknownFlag"
  | missingDescription _ => "Def/MissingDescription"
  | duplicate _ _ => "Def/DuplicateNodeType"
  | shadowed _ _ _ => "Def/ShadowedNodeType"
  | emptyGroup _ => "Def/EmptyGroup"

def severity : Finding → Severity
  | unclosedGroup _ | shadowed _ _ _ | emptyGroup _ => .warning
  | missingDescription _ => .convention
  | _ => .error

def placeOf : Option String → String
  | some g => s!"group \x60{g}\x60"
  | none => "ungrouped rows"

def message : Finding → String
  | unterminatedRow => "unterminated \x60DEF_TYPE(\x60 invocation"
  | argumentCount n => s!"\x60DEF_TYPE\x60 takes 5 arguments, found {n}"
  | rawTypeNotLiteral arg =>
    s!"first \x60DEF_TYPE\x60 argument must be a string literal, found \x60{arg}\x60"
  | unclosedGroup name => s!"group \x60{name}\x60 is never closed with \x60@\x7d\x60"
  | semanticType raw cause => s!"\x60{raw}\x60: {cause.message}"
  | nameExtraction text => s!"unknown name extraction \x60{text}\x60"
  | nativeExtraction text => s!"unknown native extraction \x60{text}\x60"
  | flags text => s!"cannot parse flags \x60{text}\x60"
  | missingDescription raw => s!"\x60{raw}\x60 has no @brief description"
  | duplicate raw line => s!"\x60{raw}\x60 already defined in this category at line {line}"
  | shadowed raw group line =>
    s!"\x60{raw}\x60 is shadowed by the definition in {placeOf group} at line {line}"
  | emptyGroup name => s!"group \x60{name}\x60 has no DEF_TYPE rows"

def diagnostic (f : Finding) (path : String) (p : Position) : Diagnostic :=
  ⟨path, p, f.severity, f.check, f.message⟩

end Finding

end NodeAtlas.Definition
