import NodeAtlas.Glob.Match
import NodeAtlas.Language.Names
import NodeAtlas.Text.Blank
import NodeAtlas.Yaml.Node

/-! The settings of a project: where things are, what is left out, and how languages are listed. -/

namespace NodeAtlas

/-- What the settings say of one language. -/
structure LanguageOverride where
  displayName : Option String := none
  category : Option String := none
  deriving DecidableEq, Repr

structure Settings where
  definitionDir : Option String := none
  outputDir : Option String := none
  exclude : List String := []
  index : Option Bool := none
  categoryOrder : List String := []
  /-- Overrides by stem, in the order of the stems. -/
  languages : List (String × LanguageOverride) := []
  deriving DecidableEq, Repr

namespace Settings

def definitions (s : Settings) : String := s.definitionDir.getD "src/language_configs"

def output (s : Settings) : String := s.outputDir.getD "docs/reference/languages"

def hasIndex (s : Settings) : Bool := s.index.getD true

def categories (s : Settings) : List String :=
  if s.categoryOrder = [] then Language.defaultCategoryOrder else s.categoryOrder

def displayName (s : Settings) (stem : String) : String :=
  ((s.languages.lookup stem).bind (·.displayName)).getD (Language.displayName stem)

def category (s : Settings) (stem : String) : String :=
  ((s.languages.lookup stem).bind (·.category)).getD (Language.category stem)

/-- Whether the exclude patterns rule out a file that is named directly. -/
def excludes (s : Settings) (path : String) : Bool :=
  s.exclude.any fun p =>
    (Glob.Matcher.ofPattern? false false p.toList).any (·.accepts path)

/-! Reading. An empty scalar stands for an empty mapping or sequence. -/

def nullTag : String := "tag:yaml.org,2002:null"

def boolTag : String := "tag:yaml.org,2002:bool"

def isNull (s : String) : Bool := ["null", "Null", "NULL", "~"].contains s

def text? : Yaml.Node → Option String
  | .scalar s _ _ => some s
  | _ => none

def bool? : Yaml.Node → Option Bool
  | .scalar s style tag =>
    if style ≠ .plain && !(style = .literal && tag = some boolTag) then none
    else if ["true", "True", "TRUE"].contains s then some true
    else if ["false", "False", "FALSE"].contains s then some false
    else none
  | _ => none

/-- A value that may be missing: empty or null, not quoted, and with no tag but that of null. -/
def optional? {α : Type} (read : Yaml.Node → Option α) (n : Yaml.Node) : Option (Option α) :=
  match n with
  | .scalar s .plain none => if s = "" || isNull s then some none else some <$> read n
  | .scalar s .plain (some tag) =>
    if tag ≠ nullTag then some <$> read n else if isNull s then some none else none
  | _ => some <$> read n

def texts? : Yaml.Node → Option (List String)
  | .scalar "" _ _ => some []
  | .sequence items => items.mapM text?
  | _ => none

def pairs? : Yaml.Node → Option (List (String × Yaml.Node))
  | .scalar "" _ _ => some []
  | .mapping pairs => pairs.mapM fun (k, v) => (text? k).map (·, v)
  | _ => none

/-- The pairs of a record, which has no unknown keys and none twice. -/
def fields? (known : List String) (n : Yaml.Node) : Option (List (String × Yaml.Node)) := do
  let fields ← pairs? n
  let keys := fields.map (·.1)
  if keys.all known.contains && keys.Nodup then some fields else none

/-- The value of a field, or the one it has when it is left out. -/
def field? {α : Type} (fields : List (String × Yaml.Node)) (key : String) (default : α)
    (read : Yaml.Node → Option α) : Option α :=
  match fields.lookup key with
  | some n => read n
  | none => some default

def override? (n : Yaml.Node) : Option LanguageOverride := do
  let fields ← fields? ["display_name", "category"] n
  return {
    displayName := ← field? fields "display_name" none (optional? text?)
    category := ← field? fields "category" none (optional? text?) }

/-- Puts an override in its place; it takes that of the one before it. -/
def insert (stem : String) (o : LanguageOverride) :
    List (String × LanguageOverride) → List (String × LanguageOverride)
  | [] => [(stem, o)]
  | (s, p) :: rest =>
    if stem = s then (stem, o) :: rest
    else if stem < s then (stem, o) :: (s, p) :: rest
    else (s, p) :: insert stem o rest

def languages? (n : Yaml.Node) : Option (List (String × LanguageOverride)) := do
  let pairs ← pairs? n
  let overrides ← pairs.mapM fun (stem, v) => (override? v).map (stem, ·)
  return overrides.foldl (fun all (stem, o) => insert stem o all) []

def ofNode? (n : Yaml.Node) : Option Settings := do
  let fields ← fields?
    ["def_dir", "output_dir", "exclude", "index", "category_order", "languages"] n
  return {
    definitionDir := ← field? fields "def_dir" none (optional? text?)
    outputDir := ← field? fields "output_dir" none (optional? text?)
    exclude := ← field? fields "exclude" [] texts?
    index := ← field? fields "index" none (optional? bool?)
    categoryOrder := ← field? fields "category_order" [] texts?
    languages := ← field? fields "languages" [] languages? }

inductive Failure where
  | malformed
  | excludePattern (pattern : String)
  deriving DecidableEq, Repr

/-- The settings in a text, whose exclude patterns have to be patterns. -/
def parse (text : String) : Except Failure Settings :=
  if (Text.trim text.toList).isEmpty then .ok {}
  else
    match (Yaml.document? text).bind ofNode? with
    | none => .error .malformed
    | some s =>
      match s.exclude.find? fun p => (Glob.Matcher.ofPattern? false false p.toList).isNone with
      | some p => .error (.excludePattern p)
      | none => .ok s

end Settings

end NodeAtlas
