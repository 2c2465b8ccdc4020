import NodeAtlas.Syntax.Tree

/-! Searching and traversing syntax trees. -/

namespace NodeAtlas.SyntaxTree

/-- The first child whose kind is one of `kinds`. -/
def findChild? (t : SyntaxTree) (kinds : List String) (id : Nat) : Option Nat :=
  (t.children id).find? fun c => kinds.contains (t.kind c)

/-- Looks at most `depth` levels below a node, each child before its own descendants. -/
def findWithin? (t : SyntaxTree) (kinds : List String) : Nat → Nat → Option Nat
  | 0, _ => none
  | depth + 1, id => (t.children id).findSome? fun c =>
      if kinds.contains (t.kind c) then some c else t.findWithin? kinds depth c

/-- The first descendant whose kind is one of `kinds`, in pre-order. -/
def findDescendant? (t : SyntaxTree) (kinds : List String) (id : Nat) : Option Nat :=
  t.findWithin? kinds t.size id

/-- Visits the node on top of the stack and puts its children in its place, `steps` times. -/
def visit (t : SyntaxTree) : Nat → List (Nat × Nat) → List (Nat × Nat)
  | 0, _ => []
  | _ + 1, [] => []
  | steps + 1, (id, depth) :: stack =>
    (id, depth) :: t.visit steps ((t.children id).map (·, depth + 1) ++ stack)

/-- The nodes under the root with their depths, each before its children. -/
def preorder (t : SyntaxTree) : List (Nat × Nat) :=
  if t.size = 0 then [] else t.visit t.size [(0, 0)]

/-- The same nodes below a node by recursion on at most `levels` levels. -/
def walk (t : SyntaxTree) : Nat → Nat → Nat → List (Nat × Nat)
  | 0, _, _ => []
  | levels + 1, depth, id =>
    (id, depth) :: (t.children id).flatMap (t.walk levels (depth + 1))

end NodeAtlas.SyntaxTree
