import NodeAtlas.Syntax.Tree

/-!
The concrete syntax of JSON texts as an inductive type, and its layout as a syntax tree. A node
comes before its children in the arena, so ids count the nodes in pre-order.
-/

namespace NodeAtlas.Json

inductive NodeKind where
  | document | object | pair | array | string | stringContent | escapeSequence | number
  | true | false | null | comment | error
  | token (c : Char)
  deriving DecidableEq, Repr

namespace NodeKind

def label : NodeKind → String
  | document => "document"
  | object => "object"
  | pair => "pair"
  | array => "array"
  | string => "string"
  | stringContent => "string_content"
  | escapeSequence => "escape_sequence"
  | number => "number"
  | true => "true"
  | false => "false"
  | null => "null"
  | comment => "comment"
  | error => "ERROR"
  | token c => .singleton c

def named : NodeKind → Bool
  | token _ => .false
  | _ => .true

/-- Labels tell kinds apart: those of tokens are one character, the others longer. -/
theorem label_eq_iff {j k : NodeKind} : j.label = k.label ↔ j = k := by
  refine ⟨fun h => ?_, congrArg label⟩
  have hlong {k : NodeKind} (hk : k.label.length ≠ 1) (c : Char) (hc : (token c).label = k.label) :
      False := by
    rw [← hc, label, String.length_singleton] at hk
    exact hk rfl
  cases j with
  | token c =>
    cases k with
    | token d => exact congrArg token (by simpa [label] using h)
    | _ => exact (hlong (by decide) c h).elim
  | _ =>
    cases k with
    | token d => exact (hlong (by decide) d h.symm).elim
    | _ => first | rfl | exact absurd h (by decide)

end NodeKind

/-- A node spans the bytes from `start` to `stop`. -/
inductive Tree where
  | node (kind : NodeKind) (start stop : Nat) (children : List Tree)

namespace Tree

def kind : Tree → NodeKind
  | node k _ _ _ => k

def start : Tree → Nat
  | node _ s _ _ => s

def stop : Tree → Nat
  | node _ _ e _ => e

def children : Tree → List Tree
  | node _ _ _ ts => ts

mutual

/-- Appends a node and then its children. -/
def place (parent : Option Nat) (t : SyntaxTree) : Tree → SyntaxTree
  | node k s e ts => placeAll t.size (t.push k.label k.named s e parent) ts

def placeAll (parent : Nat) (t : SyntaxTree) : List Tree → SyntaxTree
  | [] => t
  | u :: us => placeAll parent (place (some parent) t u) us

end

end Tree

end NodeAtlas.Json
