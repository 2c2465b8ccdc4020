import NodeAtlas.Text.Number

/-! JSON values as they are printed: objects keep the order of their fields. -/

namespace NodeAtlas.Json

inductive Value where
  | null
  | number (n : Nat)
  | text (s : String)
  | array (items : List Value)
  | object (fields : List (String × Value))

/-- Quotes, backslashes and control characters are escaped. -/
def escapeChar (c : Char) : List Char :=
  match c with
  | '"' => ['\\', '"']
  | '\\' => ['\\', '\\']
  | '\n' => ['\\', 'n']
  | '\t' => ['\\', 't']
  | '\r' => ['\\', 'r']
  | '\x08' => ['\\', 'b']
  | '\x0c' => ['\\', 'f']
  | c => if c.toNat < 0x20 then '\\' :: 'u' :: Text.hexPadded 4 c.toNat else [c]

def quote (s : String) : String := "\"" ++ .ofList (s.toList.flatMap escapeChar) ++ "\""

namespace Value

def indent (depth : Nat) : String := .ofList (List.replicate (2 * depth) ' ')

/-- Items on lines of their own, two spaces deeper than their brackets; nothing between brackets
without items. -/
def enclose (opening closing : String) (depth : Nat) (items : List String) : String :=
  if items.isEmpty then opening ++ closing
  else opening ++ "\n" ++ ",\n".intercalate (items.map (indent (depth + 1) ++ ·)) ++ "\n" ++
    indent depth ++ closing

mutual

def prettyAt (depth : Nat) : Value → String
  | null => "null"
  | number n => toString n
  | text s => quote s
  | array items => enclose "[" "]" depth (prettyItems (depth + 1) items)
  | object fields => enclose "\x7b" "\x7d" depth (prettyFields (depth + 1) fields)

def prettyItems (depth : Nat) : List Value → List String
  | [] => []
  | v :: rest => prettyAt depth v :: prettyItems depth rest

def prettyFields (depth : Nat) : List (String × Value) → List String
  | [] => []
  | (key, v) :: rest => (quote key ++ ": " ++ prettyAt depth v) :: prettyFields depth rest

end

def pretty (v : Value) : String := prettyAt 0 v

end Value

end NodeAtlas.Json
