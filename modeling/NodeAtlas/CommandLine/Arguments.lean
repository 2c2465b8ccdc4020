/-!
Command-line arguments as switches, values of switches and positional values. A value is looked
at only when the next argument shows that it is complete.
-/

namespace NodeAtlas.CommandLine

inductive UsageError where
  | invalidValue | unknownArgument | argumentConflict | missingRequiredArgument | tooManyValues
  | displayHelp | displayVersion
  deriving DecidableEq, Repr

def UsageError.message : UsageError → String
  | invalidValue => "a value is missing or not allowed"
  | unknownArgument => "an argument is not known"
  | argumentConflict => "an argument is given twice or cannot be used with another one"
  | missingRequiredArgument => "an argument needs another one"
  | tooManyValues => "an argument takes no value"
  | displayHelp => "help is asked for"
  | displayVersion => "the version is asked for"

/-- What a switch stands for. -/
inductive Role where
  | flag
  | value (accepts : String → Bool)
  | help
  | version

structure Switch where
  long : String
  short : Option Char := none
  role : Role := .flag

/-- How a switch is written in a summary. -/
def Switch.summary (s : Switch) : String :=
  let short := (s.short.map fun c => s!"-{c}, ").getD ""
  let value := match s.role with
    | .value _ => " <VALUE>"
    | _ => ""
  short ++ "--" ++ s.long ++ value

structure Grammar where
  switches : List Switch
  /-- Which positional values are accepted, if there are any. -/
  positional : Option (String → Bool)

/-- What the arguments say. -/
structure Given where
  flags : List String := []
  values : List (String × String) := []
  positionals : List String := []
  deriving DecidableEq, Repr

namespace Given

def has (g : Given) (long : String) : Bool :=
  g.flags.contains long || (g.values.lookup long).isSome

end Given

/-- Values that have not been looked at. -/
inductive Pending where
  | none
  | value (long : String) (accepts : String → Bool) (text : Option String)
  | positionals (texts : List String)

structure Progress where
  given : Given := {}
  pending : Pending := .none

abbrev Step := Except UsageError Progress

namespace Grammar

/-- A summary with one line for each switch. -/
def summary (grammar : Grammar) (program : String) : String :=
  let values := if grammar.positional.isSome then " [PATHS]..." else ""
  s!"Usage: {program} [OPTIONS]{values}\n\nOptions:\n" ++
    .join (grammar.switches.map fun s => s!"  {s.summary}\n")

def addValue (g : Given) (long : String) (accepts : String → Bool) (text : String) :
    Except UsageError Given :=
  if g.has long then .error .argumentConflict
  else if accepts text then .ok { g with values := g.values ++ [(long, text)] }
  else .error .invalidValue

/-- Looks at the values that are pending. -/
def settle (grammar : Grammar) (p : Progress) : Except UsageError Given :=
  match p.pending with
  | .none => .ok p.given
  | .value long accepts (some text) => addValue p.given long accepts text
  | .value _ _ none => .error .invalidValue
  | .positionals texts =>
    if texts.all (grammar.positional.getD fun _ => false) then
      .ok { p.given with positionals := p.given.positionals ++ texts }
    else .error .invalidValue

/-- A switch without a value behind it. -/
def takeSwitch (grammar : Grammar) (p : Progress) (s : Switch) : Step := do
  let given ← grammar.settle p
  match s.role with
  | .help => throw .displayHelp
  | .version => throw .displayVersion
  | .value accepts => return ⟨given, .value s.long accepts none⟩
  | .flag =>
    if given.has s.long then throw .argumentConflict
    return ⟨{ given with flags := given.flags ++ [s.long] }, .none⟩

/-- A switch with a value attached to it. -/
def takeAttached (grammar : Grammar) (p : Progress) (s : Switch) (text : String) : Step :=
  match s.role with
  | .value accepts => do
    let given ← grammar.settle p
    return ⟨← addValue given s.long accepts text, .none⟩
  | _ => .error .tooManyValues

def takeLong (grammar : Grammar) (p : Progress) (name : List Char) (text : Option (List Char)) :
    Step :=
  match grammar.switches.find? (·.long.toList == name) with
  | none => .error .unknownArgument
  | some s =>
    match text with
    | some t => grammar.takeAttached p s (.ofList t)
    | none => grammar.takeSwitch p s

/-- Short switches in one argument; the rest of it is the value of the first that takes one. -/
def takeShort (grammar : Grammar) (p : Progress) : List Char → Step
  | [] => .ok p
  | c :: rest =>
    match grammar.switches.find? (·.short == some c) with
    | none => .error .unknownArgument
    | some s =>
      match s.role, rest with
      | .value _, '=' :: text => grammar.takeAttached p s (.ofList text)
      | .value _, [] => grammar.takeSwitch p s
      | .value _, text => grammar.takeAttached p s (.ofList text)
      | _, rest => do grammar.takeShort (← grammar.takeSwitch p s) rest

def takePositional (grammar : Grammar) (p : Progress) (text : String) : Step :=
  if grammar.positional.isNone then .error .unknownArgument
  else
    match p.pending with
    | .positionals texts => .ok ⟨p.given, .positionals (texts ++ [text])⟩
    | _ => do return ⟨← grammar.settle p, .positionals [text]⟩

/-- An argument that is not a switch: the value of the switch before it, or a positional one. -/
def takeWord (grammar : Grammar) (p : Progress) (text : String) : Step :=
  match p.pending with
  | .value long accepts none => .ok ⟨p.given, .value long accepts (some text)⟩
  | _ => grammar.takePositional p text

/-- Splits a text at its first equals sign. -/
def splitValue (s : List Char) : List Char × Option (List Char) :=
  match s.span (· ≠ '=') with
  | (name, _ :: text) => (name, some text)
  | (name, []) => (name, none)

def takeArgument (grammar : Grammar) (p : Progress) (text : String) : Step :=
  match text.toList with
  | '-' :: '-' :: long => grammar.takeLong p (splitValue long).1 (splitValue long).2
  | '-' :: c :: rest => grammar.takeShort p (c :: rest)
  | _ => grammar.takeWord p text

/-- Takes arguments in order; two dashes make all behind them positional. -/
def takeAll (grammar : Grammar) (p : Progress) : List String → Step
  | [] => .ok p
  | text :: rest => do
    if text = "--" then rest.foldlM grammar.takePositional p
    else grammar.takeAll (← grammar.takeArgument p text) rest

/-- What some arguments say, if the grammar allows them. -/
def parse (grammar : Grammar) (arguments : List String) : Except UsageError Given := do
  grammar.settle (← grammar.takeAll {} arguments)

end Grammar

end NodeAtlas.CommandLine
