/-!
Quoted literals: where one ends, what it stands for and how a text is written as one.
-/

namespace NodeAtlas.Definition.Literal

/-- What a literal takes after its opening quote, and whether a quote closes it. A backslash takes
the next character with it, and a line feed breaks the literal off. -/
def body (quote : Char) : List Char → List Char × Bool
  | [] => ([], false)
  | ['\\'] => (['\\'], false)
  | '\\' :: c :: rest => let (b, closed) := body quote rest; ('\\' :: c :: b, closed)
  | c :: rest =>
    if c = '\n' then ([c], false)
    else if c = quote then ([c], true)
    else let (b, closed) := body quote rest; (c :: b, closed)

/-- The character that a backslash and a letter stand for. -/
def unescape : Char → Char
  | 'n' => '\n'
  | 't' => '\t'
  | 'r' => '\r'
  | '0' => '\x00'
  | c => c

/-- The value of what stands between the quotes; a bare quote or a last backslash has none. -/
def decodeBody? : List Char → Option (List Char)
  | [] => some []
  | ['\\'] => none
  | '\\' :: c :: rest => (decodeBody? rest).map (unescape c :: ·)
  | c :: rest => if c = '"' then none else (decodeBody? rest).map (c :: ·)

/-- The value of a single complete literal. -/
def decode? : List Char → Option (List Char)
  | '"' :: rest =>
    match rest.reverse with
    | '"' :: front => decodeBody? front.reverse
    | _ => none
  | _ => none

/-- Backslashes, quotes and line feeds are escaped. -/
def escape : List Char → List Char
  | [] => []
  | c :: rest =>
    if c = '\\' then '\\' :: '\\' :: escape rest
    else if c = '"' then '\\' :: '"' :: escape rest
    else if c = '\n' then '\\' :: 'n' :: escape rest
    else c :: escape rest

def encode (s : List Char) : List Char := '"' :: escape s ++ ['"']

end NodeAtlas.Definition.Literal
