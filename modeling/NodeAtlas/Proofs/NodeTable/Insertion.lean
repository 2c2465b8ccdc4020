import Mathlib.Data.Finset.Card
import Mathlib.Data.List.Induction
import NodeAtlas.NodeTable
import NodeAtlas.Proofs.Outcome

/-!
A table that is made by insertions is an ordered map in which the first insertion of a kind wins, and
its index tells for every kind in it where the entry of that kind is.
-/

namespace NodeAtlas.NodeTable

/-- The table after some insertions into an empty one. -/
def ofList (es : List (String × NodeConfig)) : NodeTable :=
  es.foldl (fun t e => (t.insert e.1 e.2).1) {}

def kinds (t : NodeTable) : List String := t.entries.map Prod.fst

/-- A table is the ordered map of some insertions, of which the first of each kind counts. -/
structure FirstWins (es : List (String × NodeConfig)) (t : NodeTable) : Prop where
  /-- One more insertion succeeds exactly if its kind is new. -/
  insert : ∀ kind config, (t.insert kind config).2 = true ↔ kind ∉ es.map Prod.fst
  get : ∀ kind, t.get? kind = es.lookup kind
  mem : ∀ kind, kind ∈ t.kinds ↔ kind ∈ es.map Prod.fst
  /-- Kinds are listed once and in the order of their first insertions. -/
  order : t.kinds.Pairwise fun a b => (es.map Prod.fst).idxOf a < (es.map Prod.fst).idxOf b
  config : ∀ e ∈ t.entries, t.get? e.1 = some e.2
  size : t.size = (es.map Prod.fst).toFinset.card
  index : ∀ (kind : String) (i : Nat),
    t.index[kind]? = some i ↔ ∃ config, t.entries[i]? = some (kind, config)

/-! ## One insertion -/

theorem contains_iff_mem (t : NodeTable) (kind : String) :
    t.contains kind = true ↔ kind ∈ t.kinds := by
  rw [contains_eq, get?_eq, Option.isSome_map, List.find?_isSome, kinds, List.mem_map]
  simp

theorem kinds_insert (t : NodeTable) (kind : String) (config : NodeConfig) :
    (t.insert kind config).1.kinds = if kind ∈ t.kinds then t.kinds else t.kinds ++ [kind] := by
  rw [kinds, entries_insert]
  simp only [contains_iff_mem]
  split
  · rfl
  · rw [List.map_append]
    rfl

/-- What the table knows already is not changed. -/
theorem get?_insert (t : NodeTable) (kind : String) (config : NodeConfig) (k : String) :
    (t.insert kind config).1.get? k =
      (t.get? k).or (if k = kind then some config else none) := by
  rw [get?_eq, get?_eq, entries_insert]
  split
  · next hkind =>
    -- The kind has an entry, so nothing is looked up for the first time.
    by_cases hk : k = kind
    · rw [contains_eq, get?_eq, Option.isSome_map, Option.isSome_iff_exists] at hkind
      obtain ⟨e, he⟩ := hkind
      rw [hk, he]
      rfl
    · simp [hk]
  · rw [List.find?_append, Option.map_or]
    by_cases hk : k = kind
    · simp [hk]
    · simp [hk, Ne.symm hk]

theorem get?_empty (kind : String) : ({} : NodeTable).get? kind = none := by
  rw [get?_eq]
  rfl

/-! ## Insertions one after another -/

theorem ofList_concat (es : List (String × NodeConfig)) (e : String × NodeConfig) :
    ofList (es ++ [e]) = ((ofList es).insert e.1 e.2).1 := by
  rw [ofList, List.foldl_concat, ofList]

theorem get?_ofList (es : List (String × NodeConfig)) (kind : String) :
    (ofList es).get? kind = es.lookup kind := by
  induction es using List.reverseRecOn with
  | nil => exact get?_empty kind
  | append_singleton es e ih =>
    obtain ⟨k, config⟩ := e
    rw [ofList_concat, get?_insert, ih, List.lookup_append, List.lookup_cons]
    congr 1
    by_cases hk : kind = k
    · simp [hk]
    · simp [hk, beq_eq_false_iff_ne.mpr hk]

theorem mem_kinds_ofList (es : List (String × NodeConfig)) (kind : String) :
    kind ∈ (ofList es).kinds ↔ kind ∈ es.map Prod.fst := by
  rw [← contains_iff_mem, contains_eq, get?_ofList, List.lookup_isSome_iff, List.mem_map]
  refine exists_congr fun e => and_congr_right fun _ => ?_
  rw [beq_iff_eq, eq_comm]

theorem kinds_ordered (es : List (String × NodeConfig)) :
    (ofList es).kinds.Pairwise fun a b =>
      (es.map Prod.fst).idxOf a < (es.map Prod.fst).idxOf b := by
  induction es using List.reverseRecOn with
  | nil => exact List.Pairwise.nil
  | append_singleton es e ih =>
    -- The kinds so far keep their places, and a new one comes behind all of them.
    have hold {a : String} (ha : a ∈ (ofList es).kinds) :
        (es.map Prod.fst ++ [e.1]).idxOf a = (es.map Prod.fst).idxOf a :=
      List.idxOf_append_of_mem ((mem_kinds_ofList es a).mp ha)
    have hfront : (ofList es).kinds.Pairwise fun a b =>
        (es.map Prod.fst ++ [e.1]).idxOf a < (es.map Prod.fst ++ [e.1]).idxOf b := by
      refine ih.imp_of_mem fun ha hb hlt => ?_
      rwa [hold ha, hold hb]
    rw [ofList_concat, kinds_insert, List.map_append, List.map_cons, List.map_nil]
    split
    · exact hfront
    · next hnew =>
      refine List.pairwise_append.mpr ⟨hfront, List.pairwise_singleton _ _, fun a ha b hb => ?_⟩
      rw [mem_kinds_ofList] at hnew
      rw [List.mem_singleton.mp hb, hold ha, List.idxOf_append_of_notMem hnew]
      have hlt := List.idxOf_lt_length_iff.mpr ((mem_kinds_ofList es a).mp ha)
      omega

theorem nodup_kinds (es : List (String × NodeConfig)) : (ofList es).kinds.Nodup := by
  refine (kinds_ordered es).imp fun hlt heq => ?_
  rw [heq] at hlt
  exact Nat.lt_irrefl _ hlt

/-- The index leads to the entry of a kind when no kind has two entries. -/
theorem index_eq_some_iff {t : NodeTable} (h : t.kinds.Nodup) {kind : String} {i : Nat} :
    t.index[kind]? = some i ↔ ∃ config, t.entries[i]? = some (kind, config) := by
  rw [t.indexed, List.findIdx?_eq_some_iff_getElem]
  constructor
  · rintro ⟨hi, hkind, -⟩
    refine ⟨t.entries[i].2, ?_⟩
    rw [List.getElem?_eq_getElem hi, ← eq_of_beq hkind]
  · rintro ⟨config, hentry⟩
    obtain ⟨hi, hget⟩ := List.getElem?_eq_some_iff.mp hentry
    refine ⟨hi, by simp [hget], fun j hji hj => ?_⟩
    have hsame : t.kinds[j]? = t.kinds[i]? := by
      rw [kinds, List.getElem?_map, List.getElem?_map, hentry,
        List.getElem?_eq_getElem (Nat.lt_trans hji hi)]
      simpa using hj
    have hlt : j < t.kinds.length := by
      rw [kinds, List.length_map]
      exact Nat.lt_trans hji hi
    exact Nat.ne_of_lt hji ((List.getElem?_inj hlt h).mp hsame)

theorem get?_of_mem {t : NodeTable} (h : t.kinds.Nodup) {e : String × NodeConfig}
    (he : e ∈ t.entries) : t.get? e.1 = some e.2 := by
  obtain ⟨i, hi⟩ := List.mem_iff_getElem?.mp he
  rw [get?, (index_eq_some_iff h).mpr ⟨e.2, hi⟩, Option.bind_some, hi]
  rfl

/-- Insertions into an empty table make an ordered map in which the first of each kind wins. -/
theorem firstWins_ofList (es : List (String × NodeConfig)) : FirstWins es (ofList es) where
  insert kind config := by
    rw [insert_snd, ← mem_kinds_ofList, ← contains_iff_mem]
    simp
  get := get?_ofList es
  mem := mem_kinds_ofList es
  order := kinds_ordered es
  config _ he := get?_of_mem (nodup_kinds es) he
  size := by
    have hsame : (ofList es).kinds.toFinset = (es.map Prod.fst).toFinset := by
      ext kind
      rw [List.mem_toFinset, List.mem_toFinset, mem_kinds_ofList]
    rw [← hsame, List.toFinset_card_of_nodup (nodup_kinds es), kinds, List.length_map, size]
  index _ _ := index_eq_some_iff (nodup_kinds es)

/-! ## Rows one after another -/

theorem addRow_eq_ok_iff {path : String} {t t' : NodeTable} {r : Definition.Row} :
    addRow path t r = .ok t' ↔
      ∃ config, resolve r = .ok config ∧ t' = (t.insert r.rawType config).1 := by
  rw [addRow]
  cases resolve r with
  | ok config => simp [eq_comm]
  | error defect => simp

theorem resolve_of_foldlM_addRow {path : String} {rows : List Definition.Row} {t t' : NodeTable}
    (h : rows.foldlM (addRow path) t = .ok t') : ∀ r ∈ rows, ∃ config, resolve r = .ok config := by
  induction rows generalizing t with
  | nil => simp
  | cons r rows ih =>
    rw [List.foldlM_cons, bind_eq_ok_iff] at h
    obtain ⟨t₁, hadd, hrest⟩ := h
    obtain ⟨config, hconfig, -⟩ := addRow_eq_ok_iff.mp hadd
    exact List.forall_mem_cons.mpr ⟨⟨config, hconfig⟩, ih hrest⟩

/-- What rows add to a table is what the first row of each kind says. -/
theorem get?_foldlM_addRow {path : String} {rows : List Definition.Row} {t t' : NodeTable}
    (h : rows.foldlM (addRow path) t = .ok t') (kind : String) : t'.get? kind =
      (t.get? kind).or ((rows.find? (·.rawType == kind)).bind fun r => (resolve r).toOption) := by
  induction rows generalizing t with
  | nil =>
    cases h
    simp
  | cons r rows ih =>
    rw [List.foldlM_cons, bind_eq_ok_iff] at h
    obtain ⟨t₁, hadd, hrest⟩ := h
    obtain ⟨config, hconfig, rfl⟩ := addRow_eq_ok_iff.mp hadd
    rw [ih hrest, get?_insert, Option.or_assoc, List.find?_cons]
    congr 1
    by_cases hkind : kind = r.rawType
    · simp [hkind, hconfig, Except.toOption]
    · simp [hkind, beq_eq_false_iff_ne.mpr (Ne.symm hkind)]

theorem parse_of_resolve {r : Definition.Row} {config : NodeConfig} (h : resolve r = .ok config) :
    SemanticExpr.parse r.semanticType = .ok config.semanticType := by
  rw [resolve, bind_eq_ok_iff] at h
  obtain ⟨t, ht, h⟩ := h
  rw [bind_eq_ok_iff] at h
  obtain ⟨name, -, h⟩ := h
  rw [bind_eq_ok_iff] at h
  obtain ⟨native, -, h⟩ := h
  rw [bind_eq_ok_iff] at h
  obtain ⟨flags, -, h⟩ := h
  cases h
  cases hparse : SemanticExpr.parse r.semanticType with
  | error e =>
    rw [hparse] at ht
    cases ht
  | ok t' =>
    rw [hparse] at ht
    cases ht
    rfl

end NodeAtlas.NodeTable
