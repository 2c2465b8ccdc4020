import NodeAtlas.Proofs.Json.Lossless
import NodeAtlas.Proofs.Json.Table
import NodeAtlas.Proofs.Semantic.Vocabulary
import NodeAtlas.Proofs.Syntax.Flattening

/-!
Which nodes the table of JSON classifies. It has the kind of every named node that the reader makes,
except comments: they have the kind itself in the place of a semantic type.
-/

namespace NodeAtlas

namespace SemanticType

/-- The names of the base types. -/
def baseNames : List String := all.map name

theorem name_mem_baseNames (t : SemanticType) : t.name ∈ baseNames :=
  List.mem_map.mpr ⟨t.base, t.base_mem_all, rfl⟩

end SemanticType

namespace NodeTable

/-- Kinds that a table has are shown by the name of a base type. -/
theorem typeName_mem_baseNames {t : NodeTable} {kind : String} (h : t.contains kind = true) :
    t.typeName kind ∈ SemanticType.baseNames := by
  rw [contains_eq] at h
  obtain ⟨config, hconfig⟩ := Option.isSome_iff_exists.mp h
  rw [typeName, hconfig]
  exact config.semanticType.name_mem_baseNames

theorem typeName_of_not_contains {t : NodeTable} {kind : String} (h : t.contains kind = false) :
    t.typeName kind = kind := by
  rw [contains_eq, Option.isSome_eq_false_iff, Option.isNone_iff_eq_none] at h
  rw [typeName, h]
  rfl

end NodeTable

namespace Json

/-! ## Kinds -/

theorem label_mem_definedKinds {k : NodeKind} (h : k.named = true) :
    k.label ∈ definedKinds ↔ k.label ≠ "comment" := by
  cases k with
  | token c => cases h
  | _ => decide

theorem lt_size_of_named {t : SyntaxTree} {id : Nat} (h : t.named id = true) : id < t.size := by
  by_contra hge
  rw [SyntaxTree.named, SyntaxTree.node?_eq_none (Nat.le_of_not_lt hge)] at h
  cases h

/-- A named node has a kind that the file defines unless it is a comment. -/
theorem kind_mem_definedKinds {text : List Char} {id : Nat} (h : (parse text).named id = true) :
    (parse text).kind id ∈ definedKinds ↔ (parse text).kind id ≠ "comment" := by
  have hid := lt_size_of_named h
  have hplace : (read text).Holds (parse text) none 0 := Tree.holds_place _ _
  obtain ⟨v, gp, -, hold⟩ := exists_holds hplace (Tree.size_place _ _) hid
  rw [hold.named_eq] at h
  rw [hold.kind_eq]
  exact label_mem_definedKinds h

theorem baseNames_apart : ∀ kind ∈ definedKinds, kind ∉ SemanticType.baseNames := by
  decide +kernel

/-- How a kind is shown, by whether the file defines it. -/
theorem typeName_table_iff {kind : String} (h : kind ∈ definedKinds ↔ kind ≠ "comment") :
    (table.typeName kind ∈ SemanticType.baseNames ↔ kind ≠ "comment") ∧
      (table.typeName kind = kind ↔ kind = "comment") := by
  by_cases hkind : kind = "comment"
  · subst hkind
    have hnot : table.contains "comment" = false := by
      rw [Bool.eq_false_iff, Ne, contains_table_iff]
      decide
    have hcomment : "comment" ∉ SemanticType.baseNames := by
      decide +kernel
    rw [NodeTable.typeName_of_not_contains hnot]
    simp [hcomment]
  · have hmem := h.mpr hkind
    have hbase := NodeTable.typeName_mem_baseNames (contains_table_iff.mpr hmem)
    have hne : table.typeName kind ≠ kind := fun heq => baseNames_apart kind hmem (heq ▸ hbase)
    simp [hkind, hbase, hne]

/-! ## Rows -/

/-- The row of a node is the one with its id. -/
theorem getElem?_flatten_parse {text : List Char} {l : Language} {id : Nat}
    (hid : id < (parse text).size) : ∃ depth, ((parse text).flatten l)[id]? =
      some ((parse text).flatRow l (parse text).preorder id id depth) := by
  have hpre : (parse text).ids = List.range (read text).count := Tree.map_preorder_place _ _
  have hsize : (parse text).size = (read text).count := Tree.size_place _ _
  have hentry : (parse text).ids[id]? = some id := by
    rw [hpre, List.getElem?_range (hsize ▸ hid)]
  obtain ⟨depth, hdepth⟩ := SyntaxTree.exists_entry hentry
  exact ⟨depth, by rw [SyntaxTree.getElem?_flatten, hdepth]; rfl⟩

/-- Every named node has a row in the flattened tree, and the table has an entry for its kind, so that
the row shows the name of a base type and not the kind, exactly if it is no comment. -/
theorem classified_parse {text : List Char} {id : Nat} (h : (parse text).named id = true) :
    NodeTable.ofDocument definition.document = .ok language.table ∧
      ∃ r, ((parse text).flatten language)[id]? = some r ∧ r.kind = (parse text).kind id ∧
        ((∃ config, language.table.get? r.kind = some config) ↔ r.kind ≠ "comment") ∧
        (r.semanticType ∈ SemanticType.baseNames ↔ r.kind ≠ "comment") ∧
        (r.semanticType = r.kind ↔ r.kind = "comment") := by
  obtain ⟨-, htable, -⟩ := exists_rows
  obtain ⟨depth, hrow⟩ := getElem?_flatten_parse (l := language) (lt_size_of_named h)
  have hkind := kind_mem_definedKinds h
  refine ⟨htable, _, hrow, rfl, ?_, typeName_table_iff hkind⟩
  rw [← Option.isSome_iff_exists, ← NodeTable.contains_eq]
  exact contains_table_iff.trans hkind

/-- An array and a comment. -/
def commentedArray : List Char := ['[', ']', '/', '/']

theorem classified_parse_commentedArray :
    let t := parse commentedArray
    t.named 1 = true ∧ t.named 4 = true ∧
      (∃ r, (t.flatten language)[1]? = some r ∧ r.kind = "array" ∧
        r.semanticType ∈ SemanticType.baseNames) ∧
      ∃ r, (t.flatten language)[4]? = some r ∧ r.kind = "comment" ∧ r.semanticType = r.kind := by
  intro t
  have harray : t.named 1 = true := by decide +kernel
  have hcomment : t.named 4 = true := by decide +kernel
  obtain ⟨-, r, hr, hkind, -, htype, -⟩ := classified_parse harray
  obtain ⟨-, r', hr', hkind', -, -, htype'⟩ := classified_parse hcomment
  have hk : r.kind = "array" := hkind.trans (by decide +kernel)
  have hk' : r'.kind = "comment" := hkind'.trans (by decide +kernel)
  exact ⟨harray, hcomment, ⟨r, hr, hk, htype.mpr (by rw [hk]; decide)⟩, r', hr', hk', htype'.mpr hk'⟩

/-- The comment of a text is a named node whose kind has no entry, and its row shows the kind. -/
theorem comment_unclassified :
    let t := parse ['/', '/']
    t.named 1 = true ∧ t.kind 1 = "comment" ∧ language.table.get? "comment" = none ∧
      ∃ r, (t.flatten language)[1]? = some r ∧ r.semanticType = "comment" ∧
        "comment" ∉ SemanticType.baseNames := by
  intro t
  have hkind : t.kind 1 = "comment" := by decide +kernel
  have hnone : language.table.contains "comment" = false := by
    rw [Bool.eq_false_iff, Ne, language, contains_table_iff]
    decide
  obtain ⟨depth, hrow⟩ := @getElem?_flatten_parse ['/', '/'] language 1 (by decide +kernel)
  refine ⟨by decide +kernel, hkind, ?_, _, hrow, ?_, by decide +kernel⟩
  · rwa [NodeTable.contains_eq, Option.isSome_eq_false_iff, Option.isNone_iff_eq_none] at hnone
  · show language.table.typeName (t.kind 1) = "comment"
    rw [hkind]
    exact NodeTable.typeName_of_not_contains hnone

end Json

end NodeAtlas
