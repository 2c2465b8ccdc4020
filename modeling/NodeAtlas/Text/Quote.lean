import NodeAtlas.Text.Hidden

/-! Texts in quotes, with escapes for what would not show. -/

namespace NodeAtlas.Text

def escapeHidden (c : Char) : List Char :=
  match c with
  | '\x00' => ['\\', '0']
  | '\t' => ['\\', 't']
  | '\n' => ['\\', 'n']
  | '\r' => ['\\', 'r']
  | '"' => ['\\', '"']
  | '\\' => ['\\', '\\']
  | c =>
    if isHidden c then ['\\', 'u', '\x7b'] ++ Nat.toDigits 16 c.toNat ++ ['\x7d'] else [c]

def quoted (s : String) : String := "\"" ++ .ofList (s.toList.flatMap escapeHidden) ++ "\""

/-- A list of quoted texts in brackets. -/
def quotedList (ss : List String) : String := "[" ++ ", ".intercalate (ss.map quoted) ++ "]"

end NodeAtlas.Text
