import NodeAtlas.Text.Bytes
import NodeAtlas.Text.LineStarts

/-!
Syntax trees in an arena: a node is known by its place in `nodes`, and node 0 is the root.
-/

namespace NodeAtlas

structure SyntaxNode where
  kind : String
  /-- Named nodes are grammar rules, the others literal tokens. -/
  named : Bool
  start : Nat
  stop : Nat
  parent : Option Nat
  children : List Nat := []
  deriving DecidableEq, Repr

structure SyntaxTree where
  source : SourceText
  nodes : Array SyntaxNode := #[]

namespace SyntaxTree

def text (t : SyntaxTree) : List Char := t.source.text

def size (t : SyntaxTree) : Nat := t.nodes.size

def node? (t : SyntaxTree) (id : Nat) : Option SyntaxNode := t.nodes[id]?

def modify (t : SyntaxTree) (id : Nat) (f : SyntaxNode → SyntaxNode) : SyntaxTree :=
  { t with nodes := t.nodes.modify id f }

/-- Appends a node, which becomes the last child of its parent. -/
def push (t : SyntaxTree) (kind : String) (named : Bool) (start stop : Nat)
    (parent : Option Nat) : SyntaxTree :=
  let added := { t with nodes := t.nodes.push ⟨kind, named, start, stop, parent, []⟩ }
  match parent with
  | none => added
  | some p => added.modify p fun n => { n with children := n.children ++ [t.size] }

def setStop (t : SyntaxTree) (id stop : Nat) : SyntaxTree :=
  t.modify id fun n => { n with stop := stop }

def retag (t : SyntaxTree) (id : Nat) (kind : String) (named : Bool) : SyntaxTree :=
  t.modify id fun n => { n with kind := kind, named := named }

def kind (t : SyntaxTree) (id : Nat) : String := ((t.node? id).map (·.kind)).getD ""

def children (t : SyntaxTree) (id : Nat) : List Nat := ((t.node? id).map (·.children)).getD []

def parent (t : SyntaxTree) (id : Nat) : Option Nat := (t.node? id).bind (·.parent)

def named (t : SyntaxTree) (id : Nat) : Bool := ((t.node? id).map (·.named)).getD false

/-- The text that a node spans, empty when its ends are not character boundaries in order. -/
def textOf (t : SyntaxTree) (id : Nat) : List Char :=
  ((t.node? id).bind fun n => Text.slice? t.text n.start n.stop).getD []

def startOf (t : SyntaxTree) (id : Nat) : Position :=
  t.source.position (((t.node? id).map (·.start)).getD 0)

def stopOf (t : SyntaxTree) (id : Nat) : Position :=
  t.source.position (((t.node? id).map (·.stop)).getD 0)

theorem node?_eq_none {t : SyntaxTree} {id : Nat} (h : t.size ≤ id) : t.node? id = none := by
  simpa [node?, size] using h

theorem lt_size_of_node? {t : SyntaxTree} {id : Nat} {n : SyntaxNode} (h : t.node? id = some n) :
    id < t.size := by
  refine Nat.lt_of_not_le fun hge => ?_
  rw [node?_eq_none hge] at h
  cases h

@[simp] theorem size_push (t : SyntaxTree) (kind : String) (named : Bool) (start stop : Nat)
    (parent : Option Nat) : (t.push kind named start stop parent).size = t.size + 1 := by
  unfold push
  cases parent <;> simp [size, modify]

end SyntaxTree

end NodeAtlas
