import NodeAtlas.Diagnostic
import NodeAtlas.Json.Value

/-! Reports of diagnostics: for people, as JSON, and as workflow annotations. -/

namespace NodeAtlas

inductive ReportFormat where
  | text | json | github
  deriving DecidableEq, Repr

namespace ReportFormat

/-- Any other name means text. -/
def ofName : String → ReportFormat
  | "json" => json
  | "github" => github
  | _ => text

end ReportFormat

namespace Diagnostic

def line (d : Diagnostic) : String :=
  s!"{d.path}:{d.position.line}:{d.position.column}: {d.severity.letter}: {d.check}: {d.message}"

/-- The level of an annotation. -/
def level (d : Diagnostic) : String :=
  match d.severity with
  | .convention => "notice"
  | .warning => "warning"
  | .error => "error"

def annotation (d : Diagnostic) : String :=
  s!"::{d.level} file={d.path},line={d.position.line},col={d.position.column}::" ++
    s!"{d.check}: {d.message}"

def toJson (d : Diagnostic) : Json.Value :=
  .object [("path", .text d.path), ("line", .number d.position.line),
    ("column", .number d.position.column), ("severity", .text (.singleton d.severity.letter)),
    ("check_name", .text d.check), ("message", .text d.message)]

end Diagnostic

namespace Report

/-- A number and a noun, which is plural unless the number is one. -/
def counted (n : Nat) (noun : String) : String := s!"{n} {noun}" ++ if n = 1 then "" else "s"

def endLines (ls : List String) : String := .join (ls.map (· ++ "\n"))

def text (ds : List Diagnostic) (files : Nat) : String :=
  endLines (ds.map Diagnostic.line ++
    ["", counted files "file" ++ " checked, " ++ counted ds.length "diagnostic" ++ " found"])

def json (ds : List Diagnostic) (files : Nat) : String :=
  Json.Value.pretty (.object
    [("metadata", .object
      [("files_checked", .number files), ("diagnostic_count", .number ds.length)]),
    ("diagnostics", .array (ds.map Diagnostic.toJson))]) ++ "\n"

def github (ds : List Diagnostic) : String := endLines (ds.map Diagnostic.annotation)

/-- The report on diagnostics found in so many files. -/
def render (f : ReportFormat) (ds : List Diagnostic) (files : Nat) : String :=
  match f with
  | .text => text ds files
  | .json => json ds files
  | .github => github ds

end Report

end NodeAtlas
