import NodeAtlas.Position
import NodeAtlas.Text.Case
import NodeAtlas.Text.Order

/-! Findings at a place of a file. -/

namespace NodeAtlas

inductive Severity where
  | convention | warning | error
  deriving DecidableEq, Repr

namespace Severity

def letter : Severity → Char
  | convention => 'C'
  | warning => 'W'
  | error => 'E'

def rank : Severity → Nat
  | convention => 0
  | warning => 1
  | error => 2

/-- Whether a severity is at or above a level. -/
def reaches (s level : Severity) : Bool := level.rank ≤ s.rank

/-- Reads a name or a letter in any case. -/
def parse? (text : String) : Option Severity :=
  match String.ofList (Text.lowercase text.toList) with
  | "convention" | "c" => some convention
  | "warning" | "w" => some warning
  | "error" | "e" => some error
  | _ => none

end Severity

structure Diagnostic where
  path : String
  position : Position
  severity : Severity
  check : String
  message : String
  deriving DecidableEq, Repr

namespace Diagnostic

/-- Diagnostics are sorted by path, line and column. -/
def le (a b : Diagnostic) : Bool :=
  a.path < b.path || (a.path == b.path && a.position.le b.position)

def sort (ds : List Diagnostic) : List Diagnostic := ds.mergeSort le

theorem le_iff {a b : Diagnostic} :
    a.le b = true ↔ a.path < b.path ∨ a.path = b.path ∧ a.position.le b.position = true := by
  simp [le]

theorem le_trans (a b c : Diagnostic) (h : a.le b = true) (h' : b.le c = true) :
    a.le c = true :=
  Text.orderBy_trans path (fun a b => a.position.le b.position)
    (fun a b c => Position.le_trans a.position b.position c.position) h h'

theorem le_total (a b : Diagnostic) : (a.le b || b.le a) = true :=
  Text.orderBy_total path (fun a b => a.position.le b.position)
    (fun a b => Position.le_total a.position b.position) a b

/-- Sorting keeps the order of diagnostics that are in order. -/
theorem filter_sort {p : Diagnostic → Bool} {ds : List Diagnostic}
    (h : (ds.filter p).Pairwise fun a b => a.le b = true) : (sort ds).filter p = ds.filter p := by
  have hsub : (ds.filter p).Sublist (sort ds) :=
    List.sublist_mergeSort le_trans le_total h List.filter_sublist
  have hkept : (ds.filter p).Sublist ((sort ds).filter p) := by
    simpa using hsub.filter p
  have hlen : ((sort ds).filter p).length = (ds.filter p).length :=
    ((List.mergeSort_perm ds le).filter p).length_eq
  exact (hkept.eq_of_length_le (Nat.le_of_eq hlen)).symm

end Diagnostic

end NodeAtlas
