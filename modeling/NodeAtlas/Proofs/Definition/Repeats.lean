import Mathlib.Data.List.Basic
import NodeAtlas.Proofs.Definition.Resolution

/-!
Rows that repeat a node type. The first row of a type gets the entry in the table, and validation
reports each of the others once, as a repeat of that first row.
-/

namespace NodeAtlas

namespace Definition

/-! ## First rows -/

/-- The first of some rows that has a node type. -/
def first? (rows : List Row) (kind : String) : Option Row := rows.find? (·.rawType == kind)

/-- Whether a row is the first of its node type. -/
def leads (rows : List Row) (r : Row) : Bool := first? rows r.rawType = some r

/-- The first rows of the node types. -/
def leaders (rows : List Row) : List Row := rows.filter (leads rows)

theorem first?_append (rows more : List Row) (kind : String) :
    first? (rows ++ more) kind = (first? rows kind).or (first? more kind) :=
  List.find?_append

theorem first?_self (r : Row) : first? [r] r.rawType = some r := by
  simp [first?]

theorem isSome_first?_of_mem {rows : List Row} {r : Row} (h : r ∈ rows) :
    (first? rows r.rawType).isSome = true := by
  rw [first?, List.find?_isSome]
  exact ⟨r, h, beq_self_eq_true _⟩

theorem mem_of_first? {rows : List Row} {kind : String} {r : Row} (h : first? rows kind = some r) :
    r ∈ rows :=
  List.mem_of_find?_eq_some h

theorem rawType_of_first? {rows : List Row} {kind : String} {r : Row}
    (h : first? rows kind = some r) : r.rawType = kind := by
  simpa using List.find?_some h

theorem leads_append_of_mem {rows more : List Row} {r : Row} (h : r ∈ rows) :
    leads (rows ++ more) r = leads rows r := by
  rw [leads, leads, first?_append, Option.or_of_isSome (isSome_first?_of_mem h)]

theorem leads_concat {rows : List Row} {r : Row} (h : r ∉ rows) :
    leads (rows ++ [r]) r = (first? rows r.rawType).isNone := by
  rw [leads, first?_append, first?_self]
  cases hfirst : first? rows r.rawType with
  | none => simp
  | some first =>
    have hne : first ≠ r := fun heq => h (heq ▸ mem_of_first? hfirst)
    simpa using hne

theorem leaders_concat {rows : List Row} {r : Row} (h : r ∉ rows) :
    leaders (rows ++ [r]) =
      leaders rows ++ if (first? rows r.rawType).isNone then [r] else [] := by
  have hrows : rows.filter (leads (rows ++ [r])) = rows.filter (leads rows) :=
    List.filter_congr fun r' hr' => leads_append_of_mem hr'
  rw [leaders, List.filter_append, hrows, List.filter_cons, List.filter_nil, leads_concat h,
    leaders]

theorem first?_leaders (rows : List Row) (kind : String) :
    first? (leaders rows) kind = first? rows kind := by
  rw [leaders, first?, List.find?_filter]
  cases hfirst : first? rows kind with
  | none =>
    rw [first?, List.find?_eq_none] at hfirst
    rw [List.find?_eq_none]
    intro r hr
    simpa using fun _ => hfirst r hr
  | some first =>
    -- The first row of a node type is a leader, and the rows before it are of other types.
    have hkind := rawType_of_first? hfirst
    have hleads : leads rows first = true := by
      simp [leads, hkind, hfirst]
    obtain ⟨-, front, rest, hrows, hfront⟩ := List.find?_eq_some_iff_append.mp hfirst
    rw [List.find?_eq_some_iff_append]
    refine ⟨by simp [hleads, hkind], front, rest, hrows, fun r hr => ?_⟩
    have hr' := hfront r hr
    simp only [Bool.not_eq_true', beq_eq_false_iff_ne] at hr'
    simp [hr']

/-! ## Repeats -/

/-- What validation finds at a row that is not the first of its node type. -/
def repeat? (rows : List Row) (r : Row) : Option (Position × Finding) :=
  if leads rows r then none
  else (first? rows r.rawType).map fun first => (r.position, first.repeats r)

theorem of_repeat? {rows : List Row} {r : Row} {f : Position × Finding}
    (h : repeat? rows r = some f) : ∃ first : Row, f = (r.position, first.repeats r) := by
  unfold repeat? at h
  split at h
  · contradiction
  · obtain ⟨first, -, rfl⟩ := Option.map_eq_some_iff.mp h
    exact ⟨first, rfl⟩

theorem isSome_repeat? {rows : List Row} {r : Row} (h : r ∈ rows) :
    (repeat? rows r).isSome = !leads rows r := by
  unfold repeat?
  cases leads rows r with
  | true => rfl
  | false => simpa using isSome_first?_of_mem h

/-- Validation keeps the first rows that it has seen. Any other list of them would do that has the
same first rows. -/
theorem repeatFindings_after {before earlier rows : List Row} (hnodup : (before ++ rows).Nodup)
    (hearlier : ∀ kind, first? earlier kind = first? before kind) :
    Document.repeatFindings earlier rows = rows.filterMap (repeat? (before ++ rows)) := by
  induction rows generalizing before earlier with
  | nil => rfl
  | cons r rows ih =>
    have hsplit : before ++ r :: rows = before ++ [r] ++ rows := by simp
    have hr : r ∉ before := fun hmem =>
      (List.nodup_append.mp hnodup).2.2 r hmem r (by simp) rfl
    have hleads : leads (before ++ r :: rows) r = (first? before r.rawType).isNone := by
      rw [hsplit, leads_append_of_mem (by simp), leads_concat hr]
    have hfind : earlier.find? (·.rawType == r.rawType) = first? before r.rawType :=
      hearlier r.rawType
    rw [Document.repeatFindings, hfind, List.filterMap_cons, repeat?, hleads]
    rw [hsplit] at hnodup
    cases hfirst : first? before r.rawType with
    | some first =>
      -- The row is passed over: its node type has a first row already.
      have hbefore (kind : String) : first? earlier kind = first? (before ++ [r]) kind := by
        rw [hearlier, first?_append]
        by_cases hkind : r.rawType = kind
        · rw [← hkind, hfirst, Option.some_or]
        · simp [first?, hkind]
      simp [first?_append, hfirst, ih hnodup hbefore]
    | none =>
      have hbefore (kind : String) : first? (earlier ++ [r]) kind = first? (before ++ [r]) kind := by
        rw [first?_append, first?_append, hearlier]
      simp [ih hnodup hbefore]

theorem repeatFindings_eq {rows : List Row} (h : rows.Nodup) :
    Document.repeatFindings [] rows = rows.filterMap (repeat? rows) := by
  have hnodup : ([] ++ rows).Nodup := h
  exact repeatFindings_after hnodup fun _ => rfl

namespace Document

theorem filter_isRepeat_findings (d : Document) :
    (d.findings.map fun f => f.2.diagnostic d.path f.1).filter Diagnostic.isRepeat =
      (repeatFindings [] d.rows).map fun f => f.2.diagnostic d.path f.1 := by
  have hrow : ∀ check ∈ "Def/MissingDescription" :: defectChecks,
      repeatChecks.contains check = false := by
    decide
  have hrows : (d.rows.flatMap (Row.diagnostics d.path)).filter Diagnostic.isRepeat = [] := by
    rw [List.filter_eq_nil_iff]
    intro x hx
    obtain ⟨r, -, hxr⟩ := List.mem_flatMap.mp hx
    obtain ⟨f, hf, rfl⟩ := List.mem_map.mp hxr
    exact Bool.eq_false_iff.mp (hrow _ (check_of_mem_findings hf))
  have hrepeats : ((repeatFindings [] d.rows).map fun f => f.2.diagnostic d.path f.1).filter
      Diagnostic.isRepeat = (repeatFindings [] d.rows).map fun f => f.2.diagnostic d.path f.1 := by
    rw [List.filter_eq_self, List.forall_mem_map]
    intro f hf
    exact List.contains_iff_mem.mpr (check_of_mem_repeatFindings hf)
  have hgroups : ∀ f ∈ d.emptyGroupFindings, (f.2.diagnostic d.path f.1).isRepeat = false := by
    intro f hf
    show repeatChecks.contains f.2.check = false
    rw [check_of_mem_emptyGroupFindings hf]
    rfl
  rw [map_findings, List.filter_append, List.filter_append, hrows, hrepeats,
    filter_diagnostics_eq_nil hgroups, List.nil_append, List.append_nil]

/-- The repeats that validation reports, in the order of their rows. -/
theorem filter_isRepeat_validate {d : Document} (h : d.rows.Nodup) :
    d.validate.filter Diagnostic.isRepeat =
      (d.rows.filterMap (repeat? d.rows)).map fun f => f.2.diagnostic d.path f.1 := by
  have hsorted : ((d.rows.filterMap (repeat? d.rows)).map fun f =>
      f.2.diagnostic d.path f.1).Pairwise fun x y => x.le y = true := by
    rw [List.pairwise_map, List.pairwise_filterMap]
    refine (rows_sorted d).imp ?_
    intro r r' hle f hf f' hf'
    obtain ⟨first, rfl⟩ := of_repeat? hf
    obtain ⟨first', rfl⟩ := of_repeat? hf'
    exact Diagnostic.le_iff.mpr (.inr ⟨rfl, hle⟩)
  rw [← repeatFindings_eq h, ← filter_isRepeat_findings] at hsorted
  rw [validate, Diagnostic.filter_sort hsorted, filter_isRepeat_findings, repeatFindings_eq h]

/-- The repeats that validation reports at a row. -/
def repeatsAt (d : Document) (r : Row) : List Diagnostic :=
  d.validate.filter fun x => x.position = r.position && x.isRepeat

theorem repeatsAt_eq {d : Document} (h : d.rows.Pairwise fun a b => a.position < b.position)
    {r : Row} (hr : r ∈ d.rows) : d.repeatsAt r =
      (repeat? d.rows r).toList.map fun f => f.2.diagnostic d.path f.1 := by
  have hplace : (d.rows.filterMap (repeat? d.rows)).filter (fun f => f.1 = r.position) =
      (d.rows.filter fun r' => r'.position = r.position).filterMap (repeat? d.rows) := by
    rw [List.filter_filterMap, List.filterMap_filter]
    congr 1
    funext r'
    cases hf : repeat? d.rows r' with
    | none => simp
    | some f =>
      obtain ⟨first, rfl⟩ := of_repeat? hf
      simp [Option.filter_some]
  -- A diagnostic has the position of its finding.
  have hcompose : ((fun x : Diagnostic => decide (x.position = r.position)) ∘
      fun f : Position × Finding => f.2.diagnostic d.path f.1) =
      fun f : Position × Finding => decide (f.1 = r.position) := rfl
  rw [repeatsAt, ← List.filter_filter, filter_isRepeat_validate (nodup_of_ordered h),
    List.filter_map, hcompose, hplace, filter_position h hr, List.filterMap_cons, List.filterMap_nil]
  cases repeat? d.rows r <;> rfl

theorem length_repeatsAt {d : Document} (h : d.rows.Pairwise fun a b => a.position < b.position)
    {r : Row} (hr : r ∈ d.rows) :
    (d.repeatsAt r).length = if leads d.rows r then 0 else 1 := by
  have hsome := isSome_repeat? hr
  rw [repeatsAt_eq h hr, List.length_map]
  cases hrepeat : repeat? d.rows r <;> simp_all

/-- Every row is the first of its node type or a repeat. -/
theorem length_leaders_add (d : Document) (h : d.rows.Nodup) :
    (leaders d.rows).length + (d.validate.filter Diagnostic.isRepeat).length = d.rowCount := by
  have hrepeats : (d.rows.filterMap (repeat? d.rows)).length =
      d.rows.countP fun r => !leads d.rows r := by
    rw [List.length_filterMap_eq_countP]
    exact List.countP_congr fun r hr => by rw [isSome_repeat? hr]
  rw [filter_isRepeat_validate h, List.length_map, hrepeats, leaders, List.countP_eq_length_filter,
    ← List.length_eq_length_filter_add, length_rows]

def reports (d : Document) (check : String) (r : Row) : Prop :=
  ∃ x ∈ d.validate, x.check = check ∧ x.position = r.position

theorem reports_iff {d : Document} {check : String} {r : Row} (h : check ∈ repeatChecks) :
    d.reports check r ↔ ∃ x ∈ d.repeatsAt r, x.check = check := by
  unfold reports repeatsAt Diagnostic.isRepeat
  constructor
  · rintro ⟨x, hx, rfl, hposition⟩
    exact ⟨x, by simp [hx, hposition, h], rfl⟩
  · rintro ⟨x, hx, rfl⟩
    simp only [List.mem_filter, Bool.and_eq_true, decide_eq_true_eq] at hx
    exact ⟨x, hx.1, rfl, hx.2.1⟩

/-- A repeat is reported by the category of the first row of its node type, whatever other rows come
between. -/
theorem reports_parse (path text : String) :
    let d := (parse path text).document
    ∀ r ∈ d.rows, ∃ first, first? d.rows r.rawType = some first ∧
      (d.reports "Def/DuplicateNodeType" r ↔ first ≠ r ∧ first.group = r.group) ∧
      (d.reports "Def/ShadowedNodeType" r ↔ first ≠ r ∧ first.group ≠ r.group) := by
  intro d r hr
  obtain ⟨first, hfirst⟩ := Option.isSome_iff_exists.mp (isSome_first?_of_mem hr)
  refine ⟨first, hfirst, ?_⟩
  rw [reports_iff (by decide), reports_iff (by decide), repeatsAt_eq (rows_ordered path text) hr,
    repeat?, leads, hfirst]
  by_cases hself : first = r
  · simp [hself]
  by_cases hgroup : first.group = r.group
  · simp [hself, hgroup, Row.repeats, Finding.diagnostic, Finding.check]
  · simp [hself, hgroup, Row.repeats, Finding.diagnostic, Finding.check]

/-- A row outside groups, and a group with two more rows of its node type. -/
def interleaved : String :=
  "/// @brief x\nDEF_TYPE(\"a\", LITERAL_STRING, NONE, NONE, 0)\n" ++
    "/** @defgroup g G\n * @\x7b */\n" ++
    "/// @brief x\nDEF_TYPE(\"a\", LITERAL_STRING, NONE, NONE, 0)\n" ++
    "/// @brief x\nDEF_TYPE(\"a\", LITERAL_STRING, NONE, NONE, 0)\n/** @\x7d */\n"

def interleavedRow (group : Option String) (line : Nat) : Row :=
  ⟨"a", "LITERAL_STRING", "NONE", "NONE", "0", some "x", group, ⟨line, 0⟩⟩

theorem document_interleaved : (parse "t_types.def" interleaved).document =
    ⟨"t_types.def", {}, [⟨"g", "G", "", "", ⟨3, 0⟩,
      [interleavedRow (some "g") 6, interleavedRow (some "g") 8]⟩], [interleavedRow none 2]⟩ := by
  decide +kernel

theorem rows_interleaved : (parse "t_types.def" interleaved).document.rows =
    [interleavedRow none 2, interleavedRow (some "g") 6, interleavedRow (some "g") 8] := by
  rw [document_interleaved]
  exact rows_eq_of_perm (by decide) (by decide)

/-- A row can repeat another one of its category without being reported for that: the first row of
the node type is in another category. -/
theorem duplicate_unreported :
    let d := (parse "t_types.def" interleaved).document
    (∀ x ∈ d.validate, x.check ≠ "Def/DuplicateNodeType") ∧
      ∃ r ∈ d.rows, ∃ r' ∈ d.rows, r.position < r'.position ∧ r.group = r'.group ∧
        r.rawType = r'.rawType := by
  intro d
  have hnone : ∀ f ∈ d.rows.filterMap (repeat? d.rows), f.2.check ≠ "Def/DuplicateNodeType" := by
    rw [rows_interleaved]
    decide
  constructor
  · intro x hx hcheck
    have hrepeat : x ∈ d.validate.filter Diagnostic.isRepeat :=
      List.mem_filter.mpr ⟨hx, by simp [Diagnostic.isRepeat, repeatChecks, hcheck]⟩
    rw [filter_isRepeat_validate (nodup_of_ordered (rows_ordered _ _))] at hrepeat
    obtain ⟨f, hf, rfl⟩ := List.mem_map.mp hrepeat
    exact hnone f hf hcheck
  · rw [rows_interleaved]
    decide

end Document

end Definition

/-! ## Tables -/

open Definition

namespace NodeTable

theorem addRow_eq_ok {path : String} {t t' : NodeTable} {r : Row} :
    addRow path t r = .ok t' ↔
      ∃ config, resolve r = .ok config ∧ (t.insert r.rawType config).1 = t' := by
  unfold addRow
  cases resolve r <;> simp

theorem foldlM_append_eq_ok {path : String} {rows more : List Row} {t t' : NodeTable} :
    (rows ++ more).foldlM (addRow path) t = .ok t' ↔
      ∃ t₁, rows.foldlM (addRow path) t = .ok t₁ ∧ more.foldlM (addRow path) t₁ = .ok t' := by
  rw [List.foldlM_append]
  cases rows.foldlM (addRow path) t <;> simp [bind, Except.bind]

/-- The entries are the first rows of the node types, resolved. -/
def Holds (t : NodeTable) (rows : List Row) : Prop :=
  t.entries.map (fun e => (e.1, Except.ok e.2)) =
    (leaders rows).map fun r => (r.rawType, resolve r)

theorem Holds.get? {t : NodeTable} {rows : List Row} (h : t.Holds rows) (kind : String) :
    (t.get? kind).map Except.ok = (first? rows kind).map resolve := by
  have hentries : (t.entries.map fun e => (e.1, Except.ok e.2)).find? (·.1 == kind) =
      (t.entries.find? (·.1 == kind)).map fun e =>
        ((e.1, Except.ok e.2) : String × Except Defect NodeConfig) :=
    List.find?_map
  have hrows : ((leaders rows).map fun r => (r.rawType, resolve r)).find? (·.1 == kind) =
      (first? (leaders rows) kind).map fun r => (r.rawType, resolve r) :=
    List.find?_map
  calc (t.get? kind).map Except.ok
      = ((t.entries.map fun e => (e.1, Except.ok e.2)).find? (·.1 == kind)).map Prod.snd := by
        rw [get?_eq, hentries, Option.map_map, Option.map_map]
        rfl
    _ = (((leaders rows).map fun r => (r.rawType, resolve r)).find? (·.1 == kind)).map
          Prod.snd := by
        rw [h]
    _ = (first? rows kind).map resolve := by
        rw [hrows, first?_leaders, Option.map_map]
        rfl

theorem Holds.contains {t : NodeTable} {rows : List Row} (h : t.Holds rows) (kind : String) :
    t.contains kind = (first? rows kind).isSome := by
  have hget := congrArg Option.isSome (h.get? kind)
  rwa [Option.isSome_map, Option.isSome_map, ← contains_eq] at hget

/-- A row of a node type that has an entry changes nothing, and another one gets the next entry. -/
theorem Holds.addRow {path : String} {t t' : NodeTable} {rows : List Row} {r : Row}
    (h : t.Holds rows) (hr : r ∉ rows) (hadd : addRow path t r = .ok t') :
    t'.Holds (rows ++ [r]) := by
  obtain ⟨config, hconfig, rfl⟩ := addRow_eq_ok.mp hadd
  have hcontains := h.contains r.rawType
  unfold Holds at h
  rw [Holds, leaders_concat hr, entries_insert]
  cases hfirst : first? rows r.rawType with
  | some first =>
    rw [hfirst] at hcontains
    simpa [hcontains] using h
  | none =>
    rw [hfirst] at hcontains
    simpa [hcontains, hconfig] using h

theorem holds_foldlM {path : String} {rows : List Row} {t : NodeTable} (hrows : rows.Nodup)
    (h : rows.foldlM (NodeTable.addRow path) {} = .ok t) : t.Holds rows := by
  induction rows using List.reverseRecOn generalizing t with
  | nil =>
    cases h
    rfl
  | append_singleton rows r ih =>
    obtain ⟨t₁, hfront, hadd⟩ := foldlM_append_eq_ok.mp h
    obtain ⟨hnodup, -, hdisjoint⟩ := List.nodup_append.mp hrows
    have hr : r ∉ rows := fun hmem => hdisjoint r hmem r (by simp) rfl
    exact (ih hnodup hfront).addRow hr (by simpa using hadd)

/-- A row is kept: when its turn comes, its node type has no entry and gets one. -/
def Keeps (d : Document) (r : Row) : Prop :=
  ∃ front rest t config, d.rows = front ++ r :: rest ∧
    front.foldlM (addRow d.path) {} = .ok t ∧ resolve r = .ok config ∧
      (t.insert r.rawType config).2 = true

theorem insert_eq_true {t : NodeTable} {kind : String} {config : NodeConfig} :
    (t.insert kind config).2 = true ↔ t.contains kind = false := by
  rw [insert_snd, Bool.not_eq_true']

theorem keeps_iff {d : Document} {t : NodeTable} (h : ofDocument d = .ok t)
    (hrows : d.rows.Nodup) {r : Row} (hr : r ∈ d.rows) :
    Keeps d r ↔ leads d.rows r = true := by
  -- When its turn comes, a row leads if no row before it has its node type.
  have hturn {front rest : List Row} (hsplit : d.rows = front ++ r :: rest) :
      front.Nodup ∧ leads d.rows r = (first? front r.rawType).isNone := by
    have hconcat : d.rows = front ++ [r] ++ rest := by simp [hsplit]
    rw [hsplit] at hrows
    obtain ⟨hfront, -, hdisjoint⟩ := List.nodup_append.mp hrows
    have hnew : r ∉ front := fun hmem => hdisjoint r hmem r (by simp) rfl
    exact ⟨hfront, by rw [hconcat, leads_append_of_mem (by simp), leads_concat hnew]⟩
  constructor
  · rintro ⟨front, rest, t₁, config, hsplit, hfront, -, hinsert⟩
    obtain ⟨hnodup, hleads⟩ := hturn hsplit
    rw [insert_eq_true, (holds_foldlM hnodup hfront).contains] at hinsert
    simpa [hleads] using hinsert
  · intro hleads
    obtain ⟨front, rest, hsplit⟩ := List.append_of_mem hr
    obtain ⟨hnodup, hturn⟩ := hturn hsplit
    rw [ofDocument, hsplit, foldlM_append_eq_ok] at h
    obtain ⟨t₁, hfront, hrest⟩ := h
    rw [List.foldlM_cons] at hrest
    cases hadd : addRow d.path t₁ r with
    | error e => simp [hadd, bind, Except.bind] at hrest
    | ok t₂ =>
      obtain ⟨config, hconfig, -⟩ := addRow_eq_ok.mp hadd
      refine ⟨front, rest, t₁, config, hsplit, hfront, hconfig, ?_⟩
      rw [insert_eq_true, (holds_foldlM hnodup hfront).contains]
      simpa [hturn] using hleads

/-- The rows that are reported as repeats are those that are not kept. -/
theorem repeats_ofDocument {path text : String} {t : NodeTable}
    (h : ofDocument (parse path text).document = .ok t) :
    let d := (parse path text).document
    d.rows.Perm (d.groups.flatMap Group.rows ++ d.ungrouped) ∧
      (d.rows.Pairwise fun a b => a.position < b.position) ∧
      (∀ r ∈ d.rows, (Keeps d r ↔ d.repeatsAt r = []) ∧
        (¬ Keeps d r → (d.repeatsAt r).length = 1)) ∧
      t.size + (d.validate.filter Diagnostic.isRepeat).length = d.rowCount ∧
      (∀ kind, (t.get? kind).map Except.ok = (first? d.rows kind).map resolve) ∧
      t.entries.map Prod.fst = (leaders d.rows).map Row.rawType := by
  intro d
  have hordered : d.rows.Pairwise fun a b => a.position < b.position := rows_ordered path text
  have hnodup : d.rows.Nodup := nodup_of_ordered hordered
  have hholds : t.Holds d.rows := holds_foldlM hnodup h
  refine ⟨rows_perm d, hordered, fun r hr => ?_, ?_, hholds.get?, ?_⟩
  · have hlength := Document.length_repeatsAt hordered hr
    rw [keeps_iff h hnodup hr, ← List.length_eq_zero_iff, hlength]
    cases leads d.rows r <;> simp
  · have hsize : t.size = (leaders d.rows).length := by
      simpa [size] using congrArg List.length hholds
    rw [hsize, Document.length_leaders_add d hnodup]
  · have hkinds := congrArg (List.map Prod.fst) hholds
    rw [List.map_map, List.map_map] at hkinds
    exact hkinds

theorem repeats_ofDocument_interleaved :
    let d := (parse "t_types.def" Document.interleaved).document
    let r := Document.interleavedRow (some "g") 8
    ∃ t, ofDocument d = .ok t ∧ r ∈ d.rows ∧ ¬ Keeps d r ∧ (d.repeatsAt r).length = 1 ∧
      t.size + 2 = 3 ∧ t.entries.map Prod.fst = ["a"] := by
  intro d r
  have hrows : d.rows = _ := Document.rows_interleaved
  have hok : (ofDocument d).isOk = true := by
    rw [ofDocument, hrows]
    decide +kernel
  obtain ⟨t, ht⟩ : ∃ t, ofDocument d = .ok t := by
    cases hd : ofDocument d with
    | ok t => exact ⟨t, rfl⟩
    | error e =>
      rw [hd] at hok
      contradiction
  obtain ⟨-, hordered, hat, hcount, -, hkinds⟩ := repeats_ofDocument ht
  have hnodup : d.rows.Nodup := nodup_of_ordered hordered
  have hr : r ∈ d.rows := by
    rw [hrows]
    decide
  have hlost : ¬ Keeps d r := by
    rw [keeps_iff ht hnodup hr, hrows]
    decide
  refine ⟨t, ht, hr, hlost, (hat r hr).2 hlost, ?_, ?_⟩
  · rw [← length_rows, Document.filter_isRepeat_validate hnodup, List.length_map, hrows] at hcount
    exact hcount
  · rw [hkinds, hrows]
    decide

end NodeTable

end NodeAtlas
