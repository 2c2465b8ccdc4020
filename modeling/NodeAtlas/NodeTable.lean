import NodeAtlas.Definition.Document
import NodeAtlas.NodeFlags
import NodeAtlas.Semantic.Expr
import NodeAtlas.Strategy.Name
import NodeAtlas.Strategy.Native
import Std.Data.HashMap

/-! What is known of each node kind: the resolved rows of a document, of which the first wins. -/

namespace NodeAtlas

structure NodeConfig where
  semanticType : SemanticType
  nameStrategy : NameStrategy
  nativeStrategy : NativeStrategy
  flags : NodeFlags
  deriving DecidableEq, Repr

/-- Entries in the order in which they were put in, each kind once, and the place of each kind. -/
structure NodeTable where
  entries : List (String × NodeConfig)
  index : Std.HashMap String Nat
  indexed : ∀ kind, index[kind]? = entries.findIdx? (·.1 == kind)

namespace NodeTable

theorem indexed_nil (kind : String) : ({} : Std.HashMap String Nat)[kind]? =
    ([] : List (String × NodeConfig)).findIdx? (·.1 == kind) :=
  Std.HashMap.getElem?_empty

instance : EmptyCollection NodeTable := ⟨[], {}, indexed_nil⟩

def get? (t : NodeTable) (kind : String) : Option NodeConfig :=
  t.index[kind]?.bind fun i => t.entries[i]?.map (·.2)

def contains (t : NodeTable) (kind : String) : Bool := t.index.contains kind

/-- Puts a kind behind the others. -/
def push (t : NodeTable) (kind : String) (config : NodeConfig) (h : t.contains kind = false) :
    NodeTable where
  entries := t.entries ++ [(kind, config)]
  index := t.index.insert kind t.entries.length
  indexed k := by
    rw [Std.HashMap.getElem?_insert, List.findIdx?_append, ← t.indexed]
    split
    · next hk =>
      -- The kind had no place before.
      rw [contains, Std.HashMap.contains_eq_isSome_getElem?, Option.isSome_eq_false_iff,
        Option.isNone_iff_eq_none] at h
      simp [← eq_of_beq hk, h]
    · next hk => simp [hk]

/-- Keeps what is there, and tells whether the kind was new. -/
def insert (t : NodeTable) (kind : String) (config : NodeConfig) : NodeTable × Bool :=
  if h : t.contains kind = false then (t.push kind config h, true) else (t, false)

def size (t : NodeTable) : Nat := t.entries.length

theorem get?_eq (t : NodeTable) (kind : String) :
    t.get? kind = (t.entries.find? (·.1 == kind)).map (·.2) := by
  rw [get?, indexed, List.find?_eq_bind_findIdx?_getElem?]
  cases t.entries.findIdx? (·.1 == kind) <;> rfl

theorem contains_eq (t : NodeTable) (kind : String) : t.contains kind = (t.get? kind).isSome := by
  rw [contains, Std.HashMap.contains_eq_isSome_getElem?, indexed, get?_eq, List.findIdx?_isSome,
    Option.isSome_map, Bool.eq_iff_iff, List.any_eq_true, List.find?_isSome]

theorem insert_snd (t : NodeTable) (kind : String) (config : NodeConfig) :
    (t.insert kind config).2 = !t.contains kind := by
  unfold insert
  split <;> simp_all

theorem entries_insert (t : NodeTable) (kind : String) (config : NodeConfig) :
    (t.insert kind config).1.entries =
      if t.contains kind then t.entries else t.entries ++ [(kind, config)] := by
  unfold insert
  split <;> simp_all [push]

/-- The semantic type name of a known kind, or the kind itself. -/
def typeName (t : NodeTable) (kind : String) : String :=
  ((t.get? kind).map (·.semanticType.name)).getD kind

def flags (t : NodeTable) (kind : String) : NodeFlags :=
  ((t.get? kind).map (·.flags)).getD .empty

inductive Defect where
  | semanticType (cause : SemanticExpr.Failure)
  | nameExtraction (text : String)
  | nativeExtraction (text : String)
  | flags (text : String)
  deriving DecidableEq, Repr

/-- The first row that cannot be resolved. -/
structure Failure where
  path : String
  line : Nat
  rawType : String
  defect : Defect
  deriving DecidableEq, Repr

def Defect.message : Defect → String
  | semanticType cause => cause.message
  | nameExtraction text => s!"unknown name extraction \x60{text}\x60"
  | nativeExtraction text => s!"unknown native extraction \x60{text}\x60"
  | flags text => s!"cannot parse flags \x60{text}\x60"

def Failure.message (f : Failure) : String :=
  s!"{f.path}:{f.line}: \x60{f.rawType}\x60: {f.defect.message}"

def required {α : Type} (found : Option α) (defect : Defect) : Except Defect α :=
  match found with
  | some a => .ok a
  | none => .error defect

/-- Resolves the expressions of a row from left to right. -/
def resolve (r : Definition.Row) : Except Defect NodeConfig := do
  let semanticType ← (SemanticExpr.parse r.semanticType).mapError Defect.semanticType
  let name ← required (NameStrategy.parse? r.nameExtraction) (.nameExtraction r.nameExtraction)
  let native ← required (NativeStrategy.parse? r.nativeExtraction)
    (.nativeExtraction r.nativeExtraction)
  let flags ← required (NodeFlags.parse? r.flags) (.flags r.flags)
  return ⟨semanticType, name, native, flags⟩

def addRow (path : String) (t : NodeTable) (r : Definition.Row) : Except Failure NodeTable :=
  match resolve r with
  | .ok config => .ok (t.insert r.rawType config).1
  | .error defect => .error ⟨path, r.position.line, r.rawType, defect⟩

/-- Resolves the rows in source order. -/
def ofDocument (d : Definition.Document) : Except Failure NodeTable :=
  d.rows.foldlM (addRow d.path) {}

end NodeTable

end NodeAtlas
