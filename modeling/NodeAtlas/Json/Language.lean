import NodeAtlas.Definition.Assembly
import NodeAtlas.Json.Reader
import NodeAtlas.Syntax.FlatRow

/-! JSON as a language: its definition file, its table and its names. -/

namespace NodeAtlas.Json

/-- The lines of the definition file. -/
def definitionLines : List String := [
  "/**",
  " * @file json_types.def",
  " * @brief JSON node type definitions for semantic AST classification",
  " *",
  " * @details Maps tree-sitter-json node types to universal semantic types.",
  " * Each DEF_TYPE row gives the raw grammar node type, its semantic type,",
  " * the name extraction strategy, the native extraction strategy and flags.",
  " *",
  " * ## JSON Language Characteristics",
  " * - Pure data format: no functions, control flow or identifiers",
  " * - Objects map string keys to values; keys become names via FIND_PROPERTY",
  " * - Arrays are ordered sequences of values",
  " * - Scalars are strings, numbers, `true`, `false` and `null`",
  " *",
  " * @see semantic_types.hpp",
  " */",
  "",
  "/**",
  " * @defgroup json_document Document Structure",
  " * @brief Top-level document node",
  " *",
  " * A JSON document holds exactly one value.",
  " * @\x7b",
  " */",
  "",
  "/// @brief Root node of a JSON document",
  "DEF_TYPE(\"document\", DEFINITION_MODULE, NONE, NONE, ASTNodeFlags::IS_CONSTRUCT)",
  "",
  "/** @\x7d */ // end of json_document",
  "",
  "/**",
  " * @defgroup json_objects Object Structure",
  " * @brief Objects and their key-value pairs",
  " *",
  " * Each pair defines a named member; the key string is its name.",
  " * @\x7b",
  " */",
  "",
  "/// @brief Object literal `\x7b ... \x7d`",
  "DEF_TYPE(\"object\", LITERAL_STRUCTURED, NONE, NONE, ASTNodeFlags::IS_CONSTRUCT)",
  "",
  "/// @brief Key-value pair; the name is the unquoted key",
  "DEF_TYPE(\"pair\", DEFINITION_VARIABLE, FIND_PROPERTY, NONE, ASTNodeFlags::IS_CONSTRUCT)",
  "",
  "/** @\x7d */ // end of json_objects",
  "",
  "/**",
  " * @defgroup json_arrays Array Structure",
  " * @brief Ordered value sequences",
  " * @\x7b",
  " */",
  "",
  "/// @brief Array literal `[ ... ]`",
  "DEF_TYPE(\"array\", LITERAL_STRUCTURED, NONE, NONE, ASTNodeFlags::IS_CONSTRUCT)",
  "",
  "/** @\x7d */ // end of json_arrays",
  "",
  "/**",
  " * @defgroup json_values Literals and Values",
  " * @brief Scalar values",
  " *",
  " * Leaf values carry their source text as the name.",
  " * @\x7b",
  " */",
  "",
  "/// @brief String literal including quotes",
  "DEF_TYPE(\"string\", LITERAL_STRING, NODE_TEXT, NONE, 0)",
  "",
  "/// @brief Number literal (integer, fraction or exponent form)",
  "DEF_TYPE(\"number\", LITERAL_NUMBER, NODE_TEXT, NONE, 0)",
  "",
  "/// @brief Boolean true",
  "DEF_TYPE(\"true\", LITERAL_ATOMIC, NODE_TEXT, NONE, 0)",
  "",
  "/// @brief Boolean false",
  "DEF_TYPE(\"false\", LITERAL_ATOMIC, NODE_TEXT, NONE, 0)",
  "",
  "/// @brief Null value",
  "DEF_TYPE(\"null\", LITERAL_ATOMIC, NODE_TEXT, NONE, 0)",
  "",
  "/** @\x7d */ // end of json_values",
  "",
  "/**",
  " * @defgroup json_string_content String Content",
  " * @brief Pieces of a string literal between the quotes",
  " * @\x7b",
  " */",
  "",
  "/// @brief Unescaped characters inside a string",
  "DEF_TYPE(\"string_content\", LITERAL_STRING, NODE_TEXT, NONE, 0)",
  "",
  "/// @brief Escape sequence such as `\\n` or `\\u00e9`",
  "DEF_TYPE(\"escape_sequence\", LITERAL_STRING, NODE_TEXT, NONE, 0)",
  "",
  "/** @\x7d */ // end of json_string_content",
  "",
  "/**",
  " * @defgroup json_punctuation Punctuation",
  " * @brief Delimiters and separators",
  " *",
  " * Anonymous tokens with no name.",
  " * @\x7b",
  " */",
  "",
  "/// @brief Object opening brace",
  "DEF_TYPE(\"\x7b\", PARSER_DELIMITER, NONE, NONE, 0)",
  "",
  "/// @brief Object closing brace",
  "DEF_TYPE(\"\x7d\", PARSER_DELIMITER, NONE, NONE, 0)",
  "",
  "/// @brief Array opening bracket",
  "DEF_TYPE(\"[\", PARSER_DELIMITER, NONE, NONE, 0)",
  "",
  "/// @brief Array closing bracket",
  "DEF_TYPE(\"]\", PARSER_DELIMITER, NONE, NONE, 0)",
  "",
  "/// @brief Element and member separator",
  "DEF_TYPE(\",\", PARSER_PUNCTUATION, NONE, NONE, 0)",
  "",
  "/// @brief Key-value separator",
  "DEF_TYPE(\":\", PARSER_PUNCTUATION, NONE, NONE, 0)",
  "",
  "/** @\x7d */ // end of json_punctuation",
  "",
  "/**",
  " * @defgroup json_errors Parser Error Handling",
  " * @brief Recovery nodes produced for invalid input",
  " * @\x7b",
  " */",
  "",
  "/// @brief Syntax error recovery node",
  "DEF_TYPE(\"ERROR\", PARSER_SYNTAX, NONE, NONE, 0)",
  "",
  "/** @\x7d */ // end of json_errors"]

def definitionText : String := .join (definitionLines.map (· ++ "\n"))

def definition : Definition.Parsed := Definition.parse "json_types.def" definitionText

/-- The resolved definition file; its rows are all well formed. -/
def table : NodeTable := (NodeTable.ofDocument definition.document).toOption.getD {}

/-- Pairs are named by their keys, which are strings. -/
def language : Language where
  name := "json"
  aliases := ["json", "jsonc"]
  extensions := ["json", "jsonc", "geojson", "jsonl"]
  propertyKinds := ["string"]
  table := table
  parse := parse

end NodeAtlas.Json
