import NodeAtlas.Json.Language

/-! The languages whose sources can be read. -/

namespace NodeAtlas.Language

def builtin : List Language := [Json.language]

/-- Finds a language by name or alias in any case. -/
def ofName? (text : String) : Option Language :=
  let name := String.ofList (Text.lowercase text.toList)
  builtin.find? fun l => l.name == name || l.aliases.contains name

/-- Finds a language by a file extension in any case, with or without dots in front. -/
def ofExtension? (text : String) : Option Language :=
  let extension := String.ofList (Text.lowercase (text.toList.dropWhile (· = '.')))
  builtin.find? (·.extensions.contains extension)

end NodeAtlas.Language
