import NodeAtlas.Definition.Validation
import NodeAtlas.NodeTable
import NodeAtlas.Proofs.Definition.SourceOrder

/-!
Validating a document and making a table of it find the same defects. The table stops at the first row
that has one, and that row is the first that validation reports for a defect.
-/

namespace NodeAtlas

open Definition

/-! ## Checks -/

/-- The checks of the expressions that a table needs. -/
def defectChecks : List String :=
  ["Def/UnknownSemanticType", "Def/InvalidRefinement", "Def/UnknownNameExtraction",
    "Def/UnknownNativeExtraction", "Def/UnknownFlag"]

/-- The checks of rows that repeat a node type. -/
def repeatChecks : List String := ["Def/DuplicateNodeType", "Def/ShadowedNodeType"]

def Diagnostic.isDefect (x : Diagnostic) : Bool := defectChecks.contains x.check

def Diagnostic.isRepeat (x : Diagnostic) : Bool := repeatChecks.contains x.check

namespace Definition

def Finding.isDefect (f : Finding) : Bool := defectChecks.contains f.check

/-- What is found at a row on its own is a defect or that it has no brief. -/
theorem check_of_mem_findings {r : Row} {f : Finding} (h : f ∈ r.findings) :
    f.check ∈ "Def/MissingDescription" :: defectChecks := by
  simp only [Row.findings, List.mem_append] at h
  rcases h with (((h | h) | h) | h) | h
  · unfold Row.semanticTypeFinding at h
    split at h
    · contradiction
    · rw [List.mem_singleton.mp h, Finding.check]
      split <;> decide
  all_goals
    simp only [Row.nameFinding, Row.nativeFinding, Row.flagsFinding, Row.briefFinding,
      List.mem_ite_nil_right, List.mem_singleton] at h
    rw [h.2, Finding.check]
    decide

theorem check_repeats (first r : Row) : (first.repeats r).check ∈ repeatChecks := by
  unfold Row.repeats
  split
  · exact List.mem_cons_self
  · exact List.mem_cons_of_mem _ List.mem_cons_self

namespace Document

theorem check_of_mem_repeatFindings {earlier rows : List Row} {f : Position × Finding}
    (h : f ∈ repeatFindings earlier rows) : f.2.check ∈ repeatChecks := by
  induction rows generalizing earlier with
  | nil => contradiction
  | cons r rows ih =>
    rw [repeatFindings] at h
    split at h
    · next first _ =>
      rcases List.mem_cons.mp h with rfl | hrest
      · exact check_repeats first r
      · exact ih hrest
    · exact ih h

theorem check_of_mem_emptyGroupFindings {d : Document} {f : Position × Finding}
    (h : f ∈ d.emptyGroupFindings) : f.2.check = "Def/EmptyGroup" := by
  obtain ⟨g, -, rfl⟩ := List.mem_map.mp h
  rfl

end Document

end Definition

/-! ## Defects of rows -/

namespace NodeTable

/-- The finding for a defect of a row of a node type. -/
def Defect.finding (rawType : String) : Defect → Finding
  | semanticType cause => .semanticType rawType cause
  | nameExtraction text => .nameExtraction text
  | nativeExtraction text => .nativeExtraction text
  | flags text => .flags text

theorem isDefect_finding (rawType : String) (δ : Defect) : (δ.finding rawType).isDefect = true := by
  cases δ with
  | semanticType cause =>
    simp only [Defect.finding, Finding.isDefect, Finding.check]
    split <;> decide
  | nameExtraction text => rfl
  | nativeExtraction text => rfl
  | flags text => rfl

/-- The finding says what the table says of the defect. -/
theorem message_finding (rawType : String) (δ : Defect) :
    ∃ front, (δ.finding rawType).message = front ++ δ.message := by
  cases δ with
  | semanticType cause => exact ⟨_, rfl⟩
  | nameExtraction text => exact ⟨"", String.empty_append.symm⟩
  | nativeExtraction text => exact ⟨"", String.empty_append.symm⟩
  | flags text => exact ⟨"", String.empty_append.symm⟩

/-- What keeps a row from being resolved. -/
def defect? (r : Row) : Option Defect :=
  match resolve r with
  | .ok _ => none
  | .error δ => some δ

/-- Validation looks at the expressions of a row in the order in which they are resolved. -/
theorem find?_findings (r : Row) :
    r.findings.find? Finding.isDefect = (defect? r).map (Defect.finding r.rawType) := by
  have hsemantic (cause : SemanticExpr.Failure) :
      (Finding.semanticType r.rawType cause).isDefect = true :=
    isDefect_finding r.rawType (.semanticType cause)
  have hname (text : String) : (Finding.nameExtraction text).isDefect = true := rfl
  have hnative (text : String) : (Finding.nativeExtraction text).isDefect = true := rfl
  have hflags (text : String) : (Finding.flags text).isDefect = true := rfl
  have hbrief : r.briefFinding.find? Finding.isDefect = none := by
    unfold Row.briefFinding
    split <;> rfl
  -- Both stop at the leftmost expression that cannot be read.
  simp only [Row.findings, List.find?_append, hbrief, Row.semanticTypeFinding, Row.nameFinding,
    Row.nativeFinding, Row.flagsFinding, defect?, resolve, required]
  cases SemanticExpr.parse r.semanticType with
  | error cause => simp [hsemantic, Except.mapError, bind, Except.bind, Defect.finding]
  | ok t =>
    cases NameStrategy.parse? r.nameExtraction with
    | none => simp [hname, Except.mapError, bind, Except.bind, Defect.finding]
    | some name =>
      cases NativeStrategy.parse? r.nativeExtraction with
      | none => simp [hnative, Except.mapError, bind, Except.bind, Defect.finding]
      | some native =>
        cases NodeFlags.parse? r.flags with
        | none => simp [hflags, Except.mapError, bind, Except.bind, Defect.finding]
        | some flags => simp [Except.mapError, bind, Except.bind, pure, Except.pure]

/-! ## The first defect -/

/-- The first row that cannot be resolved, with its defect. -/
def firstDefect? (rows : List Row) : Option (Row × Defect) :=
  rows.findSome? fun r => (defect? r).map (r, ·)

theorem of_firstDefect? {rows : List Row} {r : Row} {δ : Defect}
    (h : firstDefect? rows = some (r, δ)) : r ∈ rows ∧ resolve r = .error δ := by
  obtain ⟨r', hmem, hr'⟩ := List.exists_of_findSome?_eq_some h
  rw [Option.map_eq_some_iff] at hr'
  obtain ⟨δ', hdefect, heq⟩ := hr'
  obtain ⟨rfl, rfl⟩ := Prod.mk.inj heq
  refine ⟨hmem, ?_⟩
  unfold defect? at hdefect
  split at hdefect
  · contradiction
  · next hresolve => rw [hresolve, Option.some.inj hdefect]

def failureAt (path : String) (found : Row × Defect) : Failure :=
  ⟨path, found.1.position.line, found.1.rawType, found.2⟩

def diagnosticAt (path : String) (found : Row × Defect) : Diagnostic :=
  (found.2.finding found.1.rawType).diagnostic path found.1.position

/-- Adding rows fails at the first one that has a defect. -/
theorem foldlM_addRow_error {path : String} {rows : List Row} {t : NodeTable} {e : Failure} :
    rows.foldlM (addRow path) t = .error e ↔
      (firstDefect? rows).map (failureAt path) = some e := by
  induction rows generalizing t with
  | nil => simp [firstDefect?, pure, Except.pure]
  | cons r rows ih =>
    rw [List.foldlM_cons, firstDefect?, List.findSome?_cons, addRow, defect?]
    cases resolve r with
    | ok config => exact ih
    | error δ => simp [bind, Except.bind, failureAt]

end NodeTable

/-! ## Documents -/

namespace Definition

/-- What is found at a row on its own. -/
def Row.diagnostics (path : String) (r : Row) : List Diagnostic :=
  r.findings.map (·.diagnostic path r.position)

namespace Document

theorem filter_diagnostics_eq_nil {p : Diagnostic → Bool} {path : String}
    {fs : List (Position × Finding)} (h : ∀ f ∈ fs, p (f.2.diagnostic path f.1) = false) :
    (fs.map fun f => f.2.diagnostic path f.1).filter p = [] := by
  rw [List.filter_map, List.map_eq_nil_iff, List.filter_eq_nil_iff]
  intro f hf
  simp [h f hf]

/-- What is found is found at rows on their own, as repeats of rows, and at empty groups. -/
theorem map_findings (d : Document) : (d.findings.map fun f => f.2.diagnostic d.path f.1) =
    d.rows.flatMap (Row.diagnostics d.path) ++
      (repeatFindings [] d.rows).map (fun f => f.2.diagnostic d.path f.1) ++
        d.emptyGroupFindings.map fun f => f.2.diagnostic d.path f.1 := by
  rw [findings, List.map_append, List.map_append, List.map_flatMap]
  simp only [List.map_map]
  rfl

/-- Defects are found at rows on their own. -/
theorem filter_isDefect_findings (d : Document) :
    (d.findings.map fun f => f.2.diagnostic d.path f.1).filter Diagnostic.isDefect =
      (d.rows.flatMap (Row.diagnostics d.path)).filter Diagnostic.isDefect := by
  have hrepeat : ∀ check ∈ repeatChecks, defectChecks.contains check = false := by
    decide
  have hrepeats : ∀ f ∈ repeatFindings [] d.rows,
      (f.2.diagnostic d.path f.1).isDefect = false :=
    fun f hf => hrepeat _ (check_of_mem_repeatFindings hf)
  have hgroups : ∀ f ∈ d.emptyGroupFindings, (f.2.diagnostic d.path f.1).isDefect = false := by
    intro f hf
    show defectChecks.contains f.2.check = false
    rw [check_of_mem_emptyGroupFindings hf]
    rfl
  rw [map_findings, List.filter_append, List.filter_append, filter_diagnostics_eq_nil hrepeats,
    filter_diagnostics_eq_nil hgroups, List.append_nil, List.append_nil]

/-- What is found at the rows on their own is found in order. -/
theorem diagnostics_sorted (d : Document) :
    (d.rows.flatMap (Row.diagnostics d.path)).Pairwise fun x y => x.le y = true := by
  have hle {r r' : Row} (h : r.position.le r'.position = true) :
      ∀ x ∈ r.diagnostics d.path, ∀ y ∈ r'.diagnostics d.path, x.le y = true := by
    intro x hx y hy
    obtain ⟨f, -, rfl⟩ := List.mem_map.mp hx
    obtain ⟨f', -, rfl⟩ := List.mem_map.mp hy
    exact Diagnostic.le_iff.mpr (.inr ⟨rfl, h⟩)
  have hself (r : Row) : (r.diagnostics d.path).Pairwise fun x y => x.le y = true := by
    have hrefl : r.position.le r.position = true := Position.le_iff.mpr (.inr ⟨rfl, Nat.le_refl _⟩)
    exact List.pairwise_of_forall_mem_list fun x hx y hy => hle hrefl x hx y hy
  exact List.pairwise_flatMap.mpr ⟨fun r _ => hself r, (rows_sorted d).imp hle⟩

/-- The first defect that validation reports is the one of the first row that has one. -/
theorem find?_validate (d : Document) : d.validate.find? Diagnostic.isDefect =
    (NodeTable.firstDefect? d.rows).map (NodeTable.diagnosticAt d.path) := by
  -- The defects are found in the order of the rows, so sorting leaves them as they are.
  have hsorted : ((d.findings.map fun f => f.2.diagnostic d.path f.1).filter
      Diagnostic.isDefect).Pairwise fun x y => x.le y = true := by
    rw [filter_isDefect_findings]
    exact d.diagnostics_sorted.filter _
  have hrow (r : Row) : (r.diagnostics d.path).find? Diagnostic.isDefect =
      ((NodeTable.defect? r).map (r, ·)).map (NodeTable.diagnosticAt d.path) := by
    rw [Row.diagnostics, List.find?_map, Option.map_map]
    show (r.findings.find? Finding.isDefect).map _ = _
    rw [NodeTable.find?_findings, Option.map_map]
    rfl
  rw [← List.head?_filter, validate, Diagnostic.filter_sort hsorted, filter_isDefect_findings,
    List.head?_filter, List.find?_flatMap, NodeTable.firstDefect?, List.map_findSome?]
  congr 1
  funext r
  exact hrow r

end Document

end Definition

namespace NodeTable

/-- A failure and a diagnostic of a document report the same defect of a row, and of no other row. -/
structure Agree (d : Document) (e : Failure) (x : Diagnostic) (r : Row) : Prop where
  row : r ∈ d.rows
  unresolved : resolve r = .error e.defect
  position : x.position = r.position
  unique : ∀ r' ∈ d.rows, r'.position = x.position → r' = r
  path : e.path = d.path
  line : e.line = r.position.line
  rawType : e.rawType = r.rawType
  diagnostic : x = (e.defect.finding r.rawType).diagnostic d.path r.position
  message : ∃ front, x.message = front ++ e.defect.message

/-- A table cannot be made exactly if validation reports a defect, and then the failure says what
the first of these diagnostics says. -/
theorem ofDocument_agrees (path text : String) :
    let d := (parse path text).document
    ((∃ e, ofDocument d = .error e) ↔ ∃ x ∈ d.validate, x.check ∈ defectChecks) ∧
      ∀ e, ofDocument d = .error e →
        ∃ x r, d.validate.find? Diagnostic.isDefect = some x ∧ Agree d e x r := by
  intro d
  have hfails {e : Failure} : ofDocument d = .error e ↔
      (firstDefect? d.rows).map (failureAt d.path) = some e := foldlM_addRow_error
  constructor
  · have hfound : (∃ x ∈ d.validate, x.check ∈ defectChecks) ↔
        (d.validate.find? Diagnostic.isDefect).isSome = true := by
      simp [Diagnostic.isDefect, List.find?_isSome]
    rw [hfound, Document.find?_validate, Option.isSome_map,
      ← Option.isSome_map (f := failureAt d.path), Option.isSome_iff_exists]
    exact exists_congr fun e => hfails
  · intro e he
    obtain ⟨⟨r, δ⟩, hfirst, rfl⟩ := Option.map_eq_some_iff.mp (hfails.mp he)
    obtain ⟨hr, hδ⟩ := of_firstDefect? hfirst
    refine ⟨diagnosticAt d.path (r, δ), r, by rw [Document.find?_validate, hfirst]; rfl, ?_⟩
    exact {
      row := hr
      unresolved := hδ
      position := rfl
      unique := fun r' hr' h => eq_of_position_eq (rows_ordered path text) hr hr' h
      path := rfl
      line := rfl
      rawType := rfl
      diagnostic := rfl
      message := message_finding r.rawType δ }

theorem ofDocument_agrees_extraction : let d := (parse "t_types.def"
      "\nDEF_TYPE(\"a\", LITERAL_STRING, BY_NAME, NONE, IS_NEW)\n").document
    let e : Failure := ⟨"t_types.def", 2, "a", .nameExtraction "BY_NAME"⟩
    ofDocument d = .error e ∧
      ∃ x r, d.validate.find? Diagnostic.isDefect = some x ∧ Agree d e x r := by
  intro d e
  have hd : ofDocument d = .error e := foldlM_addRow_error.mpr (by decide +kernel)
  exact ⟨hd, (ofDocument_agrees _ _).2 e hd⟩

end NodeTable

end NodeAtlas
