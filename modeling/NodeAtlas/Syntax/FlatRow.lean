import NodeAtlas.NodeTable
import NodeAtlas.Syntax.Naming

/-! Trees as tables: one row per node, in pre-order. -/

namespace NodeAtlas

/-- A language as trees and tables see it. -/
structure Language where
  name : String
  aliases : List String
  extensions : List String
  /-- The kinds of child that name a property. -/
  propertyKinds : List String := ["property_identifier"]
  table : NodeTable
  /-- Reads a source; without a reader its tree is empty. -/
  parse : List Char → SyntaxTree := fun source => ⟨source, #[]⟩
  /-- The names of kinds whose strategy is `custom`. -/
  customName : SyntaxTree → Nat → List Char := fun _ _ => []

structure FlatRow where
  nodeId : Nat
  kind : String
  semanticType : String
  name : List Char
  start : Position
  stop : Position
  parentId : Option Nat
  depth : Nat
  childrenCount : Nat
  flags : NodeFlags

namespace Language

def nameOf (l : Language) (t : SyntaxTree) (id : Nat) : List Char :=
  match l.table.get? (t.kind id) with
  | none => []
  | some config =>
    if config.nameStrategy = .custom then l.customName t id
    else t.extractName l.propertyKinds id config.nameStrategy

end Language

namespace SyntaxTree

/-- The place of a node in an order, and 0 for a node that is not in it. -/
def rowOf (order : List (Nat × Nat)) (id : Nat) : Nat :=
  (order.findIdx? (·.1 == id)).getD 0

def flatRow (t : SyntaxTree) (l : Language) (order : List (Nat × Nat)) (row id depth : Nat) :
    FlatRow :=
  ⟨row, t.kind id, l.table.typeName (t.kind id), l.nameOf t id, t.startOf id, t.stopOf id,
    (t.parent id).map (rowOf order), depth, (t.children id).length, l.table.flags (t.kind id)⟩

def flatten (t : SyntaxTree) (l : Language) : List FlatRow :=
  let order := t.preorder
  order.mapIdx fun row entry => t.flatRow l order row entry.1 entry.2

end SyntaxTree

end NodeAtlas
