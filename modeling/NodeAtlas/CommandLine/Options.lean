import NodeAtlas.CommandLine.Arguments
import NodeAtlas.Report

/-! The options of the program. -/

namespace NodeAtlas

structure Options where
  /-- Definition files and directories of them; without any, the directory in the settings. -/
  paths : List String := []
  config : Option String := none
  output : Option String := none
  format : ReportFormat := .text
  /-- Compare the files with what would be written. -/
  check : Bool := false
  /-- Report diagnostics only. -/
  validate : Bool := false
  noIndex : Bool := false
  /-- Print what would be written. -/
  stdout : Bool := false
  /-- The lowest severity with which a run fails. -/
  failLevel : Severity := .error
  listTypes : Bool := false
  /-- The source file to be printed as a tree. -/
  parse : Option String := none
  language : Option String := none
  debug : Bool := false
  deriving DecidableEq, Repr

namespace Options

open CommandLine

def path (s : String) : Bool := s ≠ ""

def formats : List String := ["text", "json", "github"]

def failLevels : List String := ["convention", "warning", "error", "C", "W", "E"]

def grammar : Grammar where
  switches := [
    { long := "config", short := some 'c', role := .value path },
    { long := "output", short := some 'o', role := .value path },
    { long := "format", short := some 'f', role := .value formats.contains },
    { long := "check" },
    { long := "validate" },
    { long := "no-index" },
    { long := "stdout" },
    { long := "fail-level", role := .value failLevels.contains },
    { long := "list-types" },
    { long := "parse", role := .value path },
    { long := "language", role := .value fun _ => true },
    { long := "debug" },
    { long := "help", short := some 'h', role := .help },
    { long := "version", short := some 'V', role := .version }]
  positional := some path

/-- Pairs of switches that cannot be given together. -/
def conflicts : List (String × String) :=
  [("check", "validate"), ("check", "stdout"), ("validate", "stdout")]

def ofGiven (g : Given) : Options where
  paths := g.positionals
  config := g.values.lookup "config"
  output := g.values.lookup "output"
  format := .ofName ((g.values.lookup "format").getD "text")
  check := g.has "check"
  validate := g.has "validate"
  noIndex := g.has "no-index"
  stdout := g.has "stdout"
  failLevel := ((g.values.lookup "fail-level").bind Severity.parse?).getD .error
  listTypes := g.has "list-types"
  parse := g.values.lookup "parse"
  language := g.values.lookup "language"
  debug := g.has "debug"

/-- The options that some arguments stand for. -/
def ofArguments (arguments : List String) : Except UsageError Options := do
  let g ← grammar.parse arguments
  if conflicts.any fun c => g.has c.1 && g.has c.2 then throw .argumentConflict
  if g.has "language" && !g.has "parse" then throw .missingRequiredArgument
  return ofGiven g

end Options

end NodeAtlas
