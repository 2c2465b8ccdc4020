import NodeAtlas.Json.Language
import NodeAtlas.Proofs.Definition.Repeats

/-!
What the definition file of JSON makes of a kind. All its rows resolve, so its table has the first row
of each kind, and pairs are named by a property.
-/

namespace NodeAtlas

open Definition

namespace NodeTable

theorem resolve_eq_ok {r : Row} {config : NodeConfig} : resolve r = .ok config ↔
    SemanticExpr.parse r.semanticType = .ok config.semanticType ∧
      NameStrategy.parse? r.nameExtraction = some config.nameStrategy ∧
        NativeStrategy.parse? r.nativeExtraction = some config.nativeStrategy ∧
          NodeFlags.parse? r.flags = some config.flags := by
  obtain ⟨semanticType, name, native, flags⟩ := config
  unfold resolve required
  cases SemanticExpr.parse r.semanticType with
  | error e => simp [Except.mapError, bind, Except.bind]
  | ok t =>
    cases NameStrategy.parse? r.nameExtraction <;>
      cases NativeStrategy.parse? r.nativeExtraction <;> cases NodeFlags.parse? r.flags <;>
        simp [Except.mapError, bind, Except.bind, pure, Except.pure]

/-- Briefs and groups do not matter to a table. -/
theorem firstDefect?_map_bare (rows : List Row) :
    (firstDefect? (rows.map Row.bare)).isNone = (firstDefect? rows).isNone := by
  have hdefect (r : Row) : defect? r.bare = defect? r := rfl
  rw [Bool.eq_iff_iff, Option.isNone_iff_eq_none, Option.isNone_iff_eq_none]
  simp only [firstDefect?, List.findSome?_eq_none_iff, List.forall_mem_map, Option.map_eq_none_iff,
    hdefect]

/-- Without a defect there is a table, which has the first row of each kind. -/
theorem exists_ofDocument {path text : String}
    (h : (firstDefect? (parse path text).document.rows).isNone = true) :
    ∃ t, ofDocument (parse path text).document = .ok t ∧
      t.Holds (parse path text).document.rows := by
  cases ht : ofDocument (parse path text).document with
  | error e =>
    have hfirst := foldlM_addRow_error.mp ht
    rw [Option.isNone_iff_eq_none.mp h] at hfirst
    cases hfirst
  | ok t => exact ⟨t, rfl, holds_foldlM (nodup_of_ordered (rows_ordered path text)) ht⟩

end NodeTable

namespace Definition

theorem first?_map_bare (rows : List Row) (kind : String) :
    first? (rows.map Row.bare) kind = (first? rows kind).map Row.bare :=
  List.find?_map

end Definition

namespace Json

/-! ## The characters of the definition file -/

/-- The kinds that the file defines, in its order. -/
def definedKinds : List String := [
  "document", "object", "pair", "array", "string", "number", "true", "false", "null",
  "string_content", "escape_sequence", "\x7b", "\x7d", "[", "]", ",", ":", "ERROR"]

theorem map_ofList_cons {line : List Char} {lines : List (List Char)} {texts : List String}
    (h : lines.map String.ofList = texts) :
    (line :: lines).map String.ofList = String.ofList line :: texts := by
  rw [List.map_cons, h]

/-- What the file says in a table's terms. The lines are taken as their characters, for strings are
slow to take apart. -/
theorem exists_lines : ∃ lines : List (List Char), lines.map String.ofList = definitionLines ∧
    let rows := (tokens (lines.flatMap (· ++ ['\n']))).filterMap (row? none)
    (NodeTable.firstDefect? rows).isNone = true ∧ rows.map (·.rawType) = definedKinds ∧
      (first? rows "pair").bind (NameStrategy.parse? ·.nameExtraction) = some .findProperty := by
  apply Exists.intro
  constructor
  · dsimp only [definitionLines]
    repeat apply map_ofList_cons
    exact List.map_nil
  · decide +kernel

theorem toList_definitionText {lines : List (List Char)}
    (h : lines.map String.ofList = definitionLines) :
    definitionText.toList = lines.flatMap (· ++ ['\n']) := by
  rw [definitionText, ← h, String.toList_join, List.map_map, List.flatMap_map]
  simp

/-! ## The table -/

/-- The file has no defect, so it makes a table of its rows. -/
theorem exists_rows : ∃ rows : List Row, NodeTable.ofDocument definition.document = .ok table ∧
    table.Holds rows ∧ rows.map (·.rawType) = definedKinds ∧
      (first? rows "pair").bind (NameStrategy.parse? ·.nameExtraction) = some .findProperty := by
  obtain ⟨lines, hlines, hdefect, hkinds, hpair⟩ := exists_lines
  have hrows := bare_rows "json_types.def" definitionText
  rw [toList_definitionText hlines] at hrows
  rw [← hrows] at hdefect hkinds hpair
  rw [NodeTable.firstDefect?_map_bare] at hdefect
  obtain ⟨t, ht, hholds⟩ := NodeTable.exists_ofDocument hdefect
  have htable : table = t := by
    rw [table, definition, ht]
    rfl
  rw [List.map_map] at hkinds
  rw [first?_map_bare, Option.bind_map] at hpair
  exact ⟨_, htable ▸ ht, htable ▸ hholds, hkinds, hpair⟩

/-- The table of JSON finds the property that names a pair. -/
theorem nameStrategy_pair :
    (table.get? "pair").map (·.nameStrategy) = some .findProperty := by
  obtain ⟨rows, -, hholds, -, hpair⟩ := exists_rows
  -- The first row of the kind resolves to what the table has.
  obtain ⟨r, hfirst, hname⟩ := Option.bind_eq_some_iff.mp hpair
  have hget := hholds.get? "pair"
  rw [hfirst] at hget
  obtain ⟨config, hconfig, hresolve⟩ := Option.map_eq_some_iff.mp hget
  rw [hconfig, Option.map_some, ← (NodeTable.resolve_eq_ok.mp hresolve.symm).2.1]
  exact hname

/-- The table of JSON has the kinds that the file defines. -/
theorem contains_table_iff {kind : String} :
    table.contains kind = true ↔ kind ∈ definedKinds := by
  obtain ⟨rows, -, hholds, hkinds, -⟩ := exists_rows
  rw [hholds.contains, first?, List.find?_isSome, ← hkinds, List.mem_map]
  simp

end Json

end NodeAtlas
