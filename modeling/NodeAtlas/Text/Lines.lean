/-! Lines of a text. -/

namespace NodeAtlas.Text

/-- Lines end at a line feed, with or without a carriage return before it; the last line may be
unended, and nothing follows a final line feed. -/
def lines : List Char → List (List Char)
  | [] => []
  | '\n' :: rest => [] :: lines rest
  | '\r' :: '\n' :: rest => [] :: lines rest
  | c :: rest =>
    match lines rest with
    | [] => [[c]]
    | line :: more => (c :: line) :: more

def unlines (ls : List (List Char)) : List Char := ['\n'].intercalate ls

end NodeAtlas.Text
