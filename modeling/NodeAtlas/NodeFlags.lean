import NodeAtlas.Text.Blank
import NodeAtlas.Text.Number
import NodeAtlas.Text.Search

/-! Independent properties of a node, one bit each; bits 2 to 7 have no name. -/

namespace NodeAtlas

structure NodeFlags where
  bits : UInt8
  deriving DecidableEq, Repr

namespace NodeFlags

def empty : NodeFlags := ⟨0⟩

/-- A language construct and not just a token. -/
def isConstruct : NodeFlags := ⟨1⟩

/-- Has a body: a definition and not just a declaration. -/
def isEmbodied : NodeFlags := ⟨2⟩

def contains (f g : NodeFlags) : Bool := f.bits &&& g.bits == g.bits

def union (f g : NodeFlags) : NodeFlags := ⟨f.bits ||| g.bits⟩

def ofName? : String → Option NodeFlags
  | "IS_CONSTRUCT" | "IS_KEYWORD" | "IS_KEYWORD_IF_LEAF" => some isConstruct
  | "IS_EMBODIED" => some isEmbodied
  | _ => none

/-- Whether a term is meant as a byte: it starts as a hexadecimal literal or has only digits. -/
def isNumeral : List Char → Bool
  | '0' :: 'x' :: _ | '0' :: 'X' :: _ => true
  | s => !s.isEmpty && s.all fun c => '0' ≤ c && c ≤ '9'

def term? (s : List Char) : Option NodeFlags :=
  let bare := Text.dropStem "ASTNodeFlags::".toList (Text.trim s)
  if isNumeral bare then (Text.byteLiteral? bare).map NodeFlags.mk else ofName? (.ofList bare)

/-- The union of the terms between bars. -/
def read? (s : List Char) : Option NodeFlags :=
  (s.splitOn '|').foldlM (fun f term => (term? term).map f.union) empty

def parse? (text : String) : Option NodeFlags := read? text.toList

/-- The names of the named bits, then the remaining bits as one hexadecimal byte. -/
def text (f : NodeFlags) : String :=
  let named := (if f.contains isConstruct then ["IS_CONSTRUCT"] else []) ++
    if f.contains isEmbodied then ["IS_EMBODIED"] else []
  let rest := f.bits &&& 0xFC
  let parts := named ++
    if rest = 0 then [] else ["0x" ++ .ofList (Text.hexPadded 2 rest.toNat)]
  if parts.isEmpty then "0" else " | ".intercalate parts

end NodeFlags

end NodeAtlas
