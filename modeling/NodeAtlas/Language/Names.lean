import NodeAtlas.Text.Alphabetic
import NodeAtlas.Text.Case
import NodeAtlas.Text.Search

/-!
Names and categories of languages, found by the stem of a definition file: the language of
`json_types.def` has the stem `json`.
-/

namespace NodeAtlas.Language

structure Known where
  stem : String
  displayName : String
  category : String

def known : List Known := [
  ⟨"javascript", "JavaScript", "Web"⟩,
  ⟨"typescript", "TypeScript", "Web"⟩,
  ⟨"html", "HTML", "Web"⟩,
  ⟨"css", "CSS", "Web"⟩,
  ⟨"c", "C", "Systems"⟩,
  ⟨"cpp", "C++", "Systems"⟩,
  ⟨"go", "Go", "Systems"⟩,
  ⟨"rust", "Rust", "Systems"⟩,
  ⟨"zig", "Zig", "Systems"⟩,
  ⟨"python", "Python", "Scripting"⟩,
  ⟨"ruby", "Ruby", "Scripting"⟩,
  ⟨"php", "PHP", "Scripting"⟩,
  ⟨"lua", "Lua", "Scripting"⟩,
  ⟨"r", "R", "Scripting"⟩,
  ⟨"bash", "Bash", "Scripting"⟩,
  ⟨"java", "Java", "Enterprise & Mobile"⟩,
  ⟨"csharp", "C#", "Enterprise & Mobile"⟩,
  ⟨"kotlin", "Kotlin", "Enterprise & Mobile"⟩,
  ⟨"swift", "Swift", "Enterprise & Mobile"⟩,
  ⟨"dart", "Dart", "Enterprise & Mobile"⟩,
  ⟨"scala", "Scala", "Enterprise & Mobile"⟩,
  ⟨"hcl", "HCL (Terraform)", "Infrastructure"⟩,
  ⟨"json", "JSON", "Infrastructure"⟩,
  ⟨"toml", "TOML", "Infrastructure"⟩,
  ⟨"graphql", "GraphQL", "Infrastructure"⟩,
  ⟨"yaml", "YAML", "Infrastructure"⟩,
  ⟨"markdown", "Markdown", "Documentation"⟩,
  ⟨"sql", "SQL", "Documentation"⟩,
  ⟨"fsharp", "F#", "Functional"⟩,
  ⟨"haskell", "Haskell", "Functional"⟩,
  ⟨"julia", "Julia", "Scientific"⟩]

def otherCategory : String := "Other"

def defaultCategoryOrder : List String :=
  ["Web", "Systems", "Scripting", "Enterprise & Mobile", "Infrastructure", "Documentation",
    "Functional", "Scientific", otherCategory]

def known? (stem : String) : Option Known := known.find? (·.stem == stem)

/-- Letters at the beginning of a word in upper case, the others in lower case. -/
def titleCase (wordStart : Bool) : List Char → List Char
  | [] => []
  | c :: rest =>
    if Text.isAlphabetic c then
      (if wordStart then Text.upper c else Text.lower c) ++ titleCase false rest
    else c :: titleCase true rest

/-- The stem as words: underscores become spaces. -/
def titleName (stem : String) : String :=
  .ofList (titleCase true (stem.toList.map fun c => if c = '_' then ' ' else c))

def displayName (stem : String) : String :=
  ((known? stem).map (·.displayName)).getD (titleName stem)

def category (stem : String) : String := ((known? stem).map (·.category)).getD otherCategory

/-- The stem of a file name: without the extension, then without the ending `_types`. -/
def stemOf (fileName : String) : String :=
  let s := fileName.toList
  let base := (Text.dropTail? ".def".toList s).getD s
  .ofList ((Text.dropTail? "_types".toList base).getD base)

end NodeAtlas.Language
