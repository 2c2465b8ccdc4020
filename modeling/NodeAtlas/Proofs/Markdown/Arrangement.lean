import Mathlib.Data.List.Flatten
import Mathlib.Data.List.Perm.Basic
import Mathlib.Data.String.Basic
import NodeAtlas.Markdown.Index
import NodeAtlas.Text.Order

/-!
How an index is arranged: in sections, one for each category in use. Each entry stands in one of
them, under its own heading, and neither the sections nor their bullets depend on the order in which
the entries are given.
-/

namespace NodeAtlas.Markdown.Index

/-! ## Arranged sections -/

/-- A heading with the entries below it. -/
structure Block where
  heading : String
  entries : List Entry

def Block.lines (b : Block) : List String :=
  ["### " ++ b.heading, ""] ++ b.entries.map bullet ++ [""]

section Firsts

variable {l : List String} {s : String}

end Firsts

/-! ## Headings -/

section Headings

variable (order : List String) (entries : List Entry)

/-- The headings of the configured order that are in use. -/
def ordered : List String := firsts (order.filter (entries.map Entry.heading).contains)

/-- The other headings that are in use. -/
def others : List String :=
  (firsts ((entries.map Entry.heading).filter fun c => !(ordered order entries).contains c)).mergeSort
    fun a b => a ≤ b

variable {order entries} {h : String}

end Headings

/-! ## Entries -/

theorem Entry.le_eq : Entry.le = Text.orderBy Entry.displayName fun a b => a.stem ≤ b.stem := rfl

theorem Entry.le_trans (a b c : Entry) (h : a.le b = true) (h' : b.le c = true) :
    a.le c = true := by
  rw [Entry.le_eq] at *
  exact Text.orderBy_trans _ _ (by simpa using fun a b c => String.le_trans) h h'

theorem Entry.le_total (a b : Entry) : (a.le b || b.le a) = true := by
  rw [Entry.le_eq]
  exact Text.orderBy_total _ _ (by simpa using fun a b => String.le_total _ _) a b

/-- An entry as its bullet shows it. -/
def Entry.bare (e : Entry) : Entry := { e with category := "" }

section Blocks

variable {entries : List Entry}

/-- The block of a heading. -/
def blockOf (entries : List Entry) (h : String) : Block :=
  ⟨h, (entries.filter (·.heading == h)).mergeSort Entry.le⟩

def blocks (order : List String) (entries : List Entry) : List Block :=
  (headings order entries).map (blockOf entries)

variable {entries' : List Entry} (hperm : entries'.Perm entries)

include hperm

end Blocks

end NodeAtlas.Markdown.Index
