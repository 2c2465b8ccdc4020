import NodeAtlas.Proofs.Definition.Marks

/-!
Every row ends up in the group that is open at its token, and what gives no row is reported. What holds
of an assembly after some tokens is kept by one more.
-/

namespace NodeAtlas.Definition

def Row.withoutBrief (r : Row) : Row := { r with brief := none }

/-- A group whose rows have no briefs. -/
def Group.plain (g : Group) : Group := { g with rows := g.rows.map Row.withoutBrief }

/-- A group that was opened at a token, with the rows of the tokens at which it is open. -/
def filled (ts : List Located) (o : Nat × Group) : Group :=
  { o.2 with rows := rowsIn (some o.1) ts }

def unclosedFinding (o : Nat × Group) : Position × Finding :=
  (o.2.position, .unclosedGroup o.2.name)

def IsSyntax (f : Position × Finding) : Bool := f.2.check = "Def/Syntax"

def IsUnclosed (f : Position × Finding) : Bool := f.2.check = "Def/UnclosedGroup"

namespace Assembly

/-- The groups, the rows and the findings of an assembly. -/
def filing (a : Assembly) : Assembly := { a with heading := none, brief := none }

def rowCount (a : Assembly) : Nat :=
  total ((a.closed ++ a.current.toList).map (·.rows.length)) + a.ungrouped.length

/-- What holds of an assembly after some tokens. -/
structure Files (ts : List Located) (a : Assembly) : Prop where
  current : a.current.map Group.plain = (open? ts).map (filled ts)
  closed : a.closed.map Group.plain = (past ts).map (filled ts)
  ungrouped : a.ungrouped.map Row.withoutBrief = rowsIn none ts
  failures : (a.findings.filter IsSyntax).map Prod.fst =
    (ts.filter Located.fails).map Located.position
  abandoned : a.findings.filter IsUnclosed = (abandoned ts).map unclosedFinding
  known : ∀ f ∈ a.findings, IsSyntax f ∨ IsUnclosed f
  count : a.rowCount + (a.findings.filter IsSyntax).length =
    (ts.filter Located.isInvocation).length

theorem files_nil : Files [] {} :=
  ⟨rfl, rfl, rfl, rfl, rfl, by simp, rfl⟩

theorem Files.of_filing {ts : List Located} {a b : Assembly} (h : Files ts a)
    (hab : b.filing = a.filing) : Files ts b := by
  have hclosed : b.closed = a.closed := by simpa [filing] using congrArg Assembly.closed hab
  have hcurrent : b.current = a.current := by simpa [filing] using congrArg Assembly.current hab
  have hungrouped : b.ungrouped = a.ungrouped := by simpa [filing] using congrArg Assembly.ungrouped hab
  have hfindings : b.findings = a.findings := by simpa [filing] using congrArg Assembly.findings hab
  constructor
  · rw [hcurrent, h.current]
  · rw [hclosed, h.closed]
  · rw [hungrouped, h.ungrouped]
  · rw [hfindings, h.failures]
  · rw [hfindings, h.abandoned]
  · rw [hfindings]
    exact h.known
  · rw [rowCount, hclosed, hcurrent, hungrouped, hfindings, ← rowCount, h.count]

/-! ## Groups -/

theorem Files.groups {ts : List Located} {a : Assembly} (h : Files ts a) :
    (a.closed ++ a.current.toList).map Group.plain = (openings ts).map (filled ts) := by
  have hcurrent : a.current.toList.map Group.plain = (open? ts).toList.map (filled ts) := by
    rw [← Option.toList_map, ← Option.toList_map, h.current]
  rw [List.map_append, h.closed, hcurrent, openings_eq, List.map_append]

theorem Files.name {ts : List Located} {a : Assembly} (h : Files ts a) :
    (open? ts).map (·.2.name) = a.current.map (·.name) := by
  have hplain := congrArg (Option.map fun g : Group => g.name) h.current
  rw [Option.map_map, Option.map_map] at hplain
  exact hplain.symm

theorem closed_abandonGroup (a : Assembly) :
    a.abandonGroup.closed = a.closed ++ a.current.toList := by
  unfold abandonGroup
  split <;> simp_all [report]

theorem current_abandonGroup (a : Assembly) : a.abandonGroup.current = none := by
  unfold abandonGroup
  split
  · assumption
  · rfl

theorem ungrouped_abandonGroup (a : Assembly) : a.abandonGroup.ungrouped = a.ungrouped := by
  unfold abandonGroup
  split <;> rfl

theorem findings_abandonGroup (a : Assembly) : a.abandonGroup.findings =
    a.findings ++ (a.current.map fun g => (g.position, Finding.unclosedGroup g.name)).toList := by
  unfold abandonGroup
  split <;> simp_all [report]

theorem syntax_abandonGroup (a : Assembly) :
    a.abandonGroup.findings.filter IsSyntax = a.findings.filter IsSyntax := by
  rw [findings_abandonGroup, List.filter_append]
  cases a.current <;> simp [IsSyntax, Finding.check]

theorem Files.failures_abandonGroup {ts : List Located} {a : Assembly} (h : Files ts a) :
    (a.abandonGroup.findings.filter IsSyntax).map Prod.fst =
      (ts.filter Located.fails).map Located.position := by
  rw [syntax_abandonGroup, h.failures]

theorem Files.unclosed_abandonGroup {ts : List Located} {a : Assembly} (h : Files ts a) :
    a.abandonGroup.findings.filter IsUnclosed = (unclosed ts).map unclosedFinding := by
  have hcurrent : (a.current.map fun g => (g.position, Finding.unclosedGroup g.name)) =
      (open? ts).map unclosedFinding := by
    have hplain := congrArg (Option.map fun g : Group =>
      (g.position, Finding.unclosedGroup g.name)) h.current
    rw [Option.map_map, Option.map_map] at hplain
    exact hplain
  rw [findings_abandonGroup, hcurrent, List.filter_append, h.abandoned, unclosed_eq,
    List.map_append]
  cases open? ts <;> simp [IsUnclosed, unclosedFinding, Finding.check]

theorem Files.known_abandonGroup {ts : List Located} {a : Assembly} (h : Files ts a) :
    ∀ f ∈ a.abandonGroup.findings, IsSyntax f ∨ IsUnclosed f := by
  intro f hf
  rw [findings_abandonGroup, List.mem_append, Option.mem_toList] at hf
  rcases hf with hf | hf
  · exact h.known f hf
  · obtain ⟨g, -, rfl⟩ := Option.map_eq_some_iff.mp hf
    exact .inr rfl

theorem total_append (xs ys : List Nat) : total (xs ++ ys) = total xs + total ys := by
  induction xs with
  | nil => simp [total]
  | cons x xs ih => simp [total, ih, Nat.add_assoc]

theorem rowCount_openGroup (a : Assembly) {g : Group} (hg : g.rows = []) :
    (a.openGroup g).rowCount = a.rowCount := by
  have hclosed : (a.openGroup g).closed = a.closed ++ a.current.toList := closed_abandonGroup a
  have hungrouped : (a.openGroup g).ungrouped = a.ungrouped := ungrouped_abandonGroup a
  have hcurrent : (a.openGroup g).current = some g := rfl
  rw [rowCount, rowCount, hclosed, hungrouped, hcurrent, List.map_append, total_append]
  simp [total, hg]

/-! ## Tokens without a row -/

section NoRow

variable {ts : List Located} {l : Located} {a : Assembly} (hrow : row? none l = none)

theorem row?_eq_none_iff (group : Option String) : row? group l = none ↔ row? none l = none := by
  unfold row?
  split <;> simp

include hrow

theorem rowsIn_of_noRow (s : Option Nat) : rowsIn s (ts ++ [l]) = rowsIn s ts := by
  rw [rowsIn_concat, (row?_eq_none_iff _).mpr hrow]
  simp

theorem filled_of_noRow : filled (ts ++ [l]) = filled ts := by
  funext o
  rw [filled, rowsIn_of_noRow hrow, filled]

/-- A syntax error is all that a failing token gives. -/
theorem Files.of_failure {f : Finding} (h : Files ts a) (hm : mark? ts l = none)
    (hl : l.isInvocation = true) (hf : f.check = "Def/Syntax") :
    Files (ts ++ [l]) (a.report l.position f) := by
  have hfails : l.fails = true := by simp [Located.fails, hl, hrow]
  have hsyntax : IsSyntax (l.position, f) = true := by simp [IsSyntax, hf]
  have hother : IsUnclosed (l.position, f) = false := by simp [IsUnclosed, hf]
  constructor
  · rw [open?_of_none hm, filled_of_noRow hrow]
    exact h.current
  · rw [past_of_none hm, filled_of_noRow hrow]
    exact h.closed
  · rw [rowsIn_of_noRow hrow]
    exact h.ungrouped
  · simp [report, hfails, hsyntax, h.failures]
  · rw [abandoned_of_none hm, ← h.abandoned]
    simp [report, hother]
  · intro x hx
    rcases List.mem_append.mp hx with hx | hx
    · exact h.known x hx
    · rw [List.mem_singleton.mp hx]
      exact .inl hsyntax
  · have hcount := h.count
    simp only [report, rowCount, List.filter_append, List.length_append, List.filter_cons, hsyntax,
      hl, if_true, List.filter_nil, List.length_singleton] at hcount ⊢
    omega

end NoRow

/-! ## Comments -/

section Comment

variable {ts : List Located} {l : Located} {a : Assembly} (hl : l.isInvocation = false)

include hl

theorem row?_of_comment : row? none l = none := by
  obtain ⟨p, t⟩ := l
  cases t with
  | row args => cases hl
  | _ => rfl

theorem failures_of_comment : (ts ++ [l]).filter Located.fails = ts.filter Located.fails := by
  simp [Located.fails, hl]

theorem invocations_of_comment :
    (ts ++ [l]).filter Located.isInvocation = ts.filter Located.isInvocation := by
  simp [hl]

/-- A comment without a mark changes no group, row or finding. -/
theorem Files.of_none (h : Files ts a) (hm : mark? ts l = none) : Files (ts ++ [l]) a := by
  have hfilled : filled (ts ++ [l]) = filled ts := filled_of_noRow (row?_of_comment hl)
  constructor
  · rw [open?_of_none hm, hfilled, h.current]
  · rw [past_of_none hm, hfilled, h.closed]
  · rw [rowsIn_of_noRow (row?_of_comment hl), h.ungrouped]
  · rw [failures_of_comment hl, h.failures]
  · rw [abandoned_of_none hm, h.abandoned]
  · exact h.known
  · rw [invocations_of_comment hl, h.count]

theorem Files.of_closing (h : Files ts a) (hm : mark? ts l = some .closing) :
    Files (ts ++ [l]) a.closeGroup := by
  constructor
  · rw [open?_of_closing hm]
    rfl
  · rw [past_of_closing hm, filled_of_noRow (row?_of_comment hl)]
    exact h.groups
  · rw [rowsIn_of_noRow (row?_of_comment hl)]
    exact h.ungrouped
  · rw [failures_of_comment hl]
    exact h.failures
  · rw [abandoned_of_closing hm]
    exact h.abandoned
  · exact h.known
  · rw [invocations_of_comment hl, ← h.count]
    simp [rowCount, closeGroup]

theorem Files.of_opening {g : Group} (h : Files ts a) (hm : mark? ts l = some (.opening g))
    (hg : g.rows = []) : Files (ts ++ [l]) (a.openGroup g) := by
  have hnew : rowsIn (some ts.length) ts = [] := rowsIn_eq_nil (Nat.le_refl _)
  constructor
  · rw [open?_of_opening hm, filled_of_noRow (row?_of_comment hl)]
    simp [openGroup, Group.plain, filled, hg, hnew]
  · rw [past_of_opening hm, filled_of_noRow (row?_of_comment hl), ← h.groups]
    exact congrArg _ a.closed_abandonGroup
  · rw [rowsIn_of_noRow (row?_of_comment hl), ← h.ungrouped]
    exact congrArg _ a.ungrouped_abandonGroup
  · rw [failures_of_comment hl]
    exact h.failures_abandonGroup
  · rw [abandoned_of_opening hm]
    exact h.unclosed_abandonGroup
  · exact h.known_abandonGroup
  · rw [invocations_of_comment hl, ← h.count, rowCount_openGroup a hg]
    exact congrArg (a.rowCount + List.length ·) (syntax_abandonGroup a)

end Comment

/-! ## Rows -/

theorem closed_addRow (a : Assembly) (r : Row) : (a.addRow r).closed = a.closed := by
  unfold addRow
  split <;> rfl

theorem findings_addRow (a : Assembly) (r : Row) : (a.addRow r).findings = a.findings := by
  unfold addRow
  split <;> rfl

theorem rowCount_addRow (a : Assembly) (r : Row) : (a.addRow r).rowCount = a.rowCount + 1 := by
  cases hc : a.current with
  | none =>
    simp only [addRow, hc, rowCount, List.length_append, List.length_singleton]
    omega
  | some g =>
    simp only [addRow, hc, rowCount, List.map_append, total_append, Option.toList_some,
      List.map_cons, List.map_nil, total, List.length_append, List.length_singleton]
    omega

/-- A valid row goes to the open group, or to the rows outside groups. -/
theorem Files.of_row {ts : List Located} {l : Located} {a : Assembly} {r : Row} (h : Files ts a)
    (hm : mark? ts l = none) (hr : row? (a.current.map (·.name)) l = some r.withoutBrief)
    (hl : l.isInvocation = true) : Files (ts ++ [l]) (a.addRow r) := by
  have hfails : l.fails = false := by
    have hsome : row? none l ≠ none := by
      rw [ne_eq, ← row?_eq_none_iff (a.current.map (·.name)), hr]
      simp
    simpa [Located.fails, hl] using Option.isSome_iff_ne_none.mpr hsome
  have hrows (s : Option Nat) : rowsIn s (ts ++ [l]) =
      rowsIn s ts ++ if slot ts = s then [r.withoutBrief] else [] := by
    rw [rowsIn_concat, h.name, hr]
    split <;> rfl
  have hpast : (past ts).map (filled (ts ++ [l])) = (past ts).map (filled ts) := by
    -- A past group gets no more rows.
    apply List.map_congr_left
    intro o ho
    have hslot : slot ts ≠ some o.1 := by simpa [past] using (List.mem_filter.mp ho).2
    rw [filled, hrows, if_neg hslot, List.append_nil, filled]
  constructor
  · rw [open?_of_none hm]
    have hcurrent := h.current
    cases hc : a.current with
    | none =>
      rw [hc] at hcurrent
      rw [Option.map_eq_none_iff.mp hcurrent.symm]
      simp [addRow, hc]
    | some g =>
      rw [hc] at hcurrent
      obtain ⟨o, ho, hg⟩ := Option.map_eq_some_iff.mp hcurrent.symm
      have hslot : slot ts = some o.1 := by rw [slot, ho]; rfl
      have hold : g.rows.map Row.withoutBrief = rowsIn (some o.1) ts :=
        (congrArg Group.rows hg).symm
      have hnew : filled (ts ++ [l]) o = { filled ts o with
          rows := (filled ts o).rows ++ [r.withoutBrief] } := by
        rw [filled, hrows, if_pos hslot, filled]
      rw [ho, Option.map_some, hnew, hg]
      simp [addRow, hc, Group.plain]
  · rw [closed_addRow, past_of_none hm, hpast, h.closed]
  · rw [hrows, ← h.ungrouped]
    have hcurrent := h.current
    cases hc : a.current with
    | none =>
      rw [hc] at hcurrent
      have hslot : slot ts = none := by
        rw [slot, Option.map_eq_none_iff.mp hcurrent.symm]
        rfl
      simp [addRow, hc, hslot]
    | some g =>
      rw [hc] at hcurrent
      obtain ⟨o, ho, -⟩ := Option.map_eq_some_iff.mp hcurrent.symm
      have hslot : slot ts = some o.1 := by rw [slot, ho]; rfl
      simp [addRow, hc, hslot]
  · rw [findings_addRow, h.failures]
    simp [hfails]
  · rw [findings_addRow, abandoned_of_none hm, h.abandoned]
  · rw [findings_addRow]
    exact h.known
  · have hcount := h.count
    rw [rowCount_addRow, findings_addRow, List.filter_append, List.length_append]
    simp only [List.filter_cons, hl, if_true, List.filter_nil, List.length_singleton]
    omega

/-! ## Steps -/

theorem files_row {ts : List Located} {a : Assembly} (h : Files ts a) (p : Position)
    (args : List (List Char)) : Files (ts ++ [⟨p, .row args⟩]) (a.row p args) := by
  have hm : mark? ts ⟨p, .row args⟩ = none := rfl
  have hcleared : Files ts { a with brief := none } := h.of_filing rfl
  unfold row
  split
  · next raw semanticType nameExtraction nativeExtraction flags =>
    split
    · next rawType hraw =>
      apply hcleared.of_row hm _ rfl
      simp [row?, hraw, Row.withoutBrief]
    · next hraw =>
      have hrow : row? none ⟨p, .row [raw, semanticType, nameExtraction, nativeExtraction, flags]⟩ =
        none := by simp [row?, hraw]
      exact hcleared.of_failure hrow hm rfl rfl
  · next hargs => exact hcleared.of_failure (row?_of_arguments hargs) hm rfl rfl

theorem files_docLine {ts : List Located} {a : Assembly} (h : Files ts a) (p : Position)
    (text : List Char) : Files (ts ++ [⟨p, .docLine text⟩]) (a.docLine p text) := by
  unfold docLine
  split
  · next hclosing =>
    have hm : mark? ts ⟨p, .docLine text⟩ = some .closing := by simp [mark?, hclosing]
    exact h.of_closing rfl hm
  · next hclosing =>
    have hm : mark? ts ⟨p, .docLine text⟩ = none := by simp [mark?, hclosing]
    have hsame := h.of_none rfl hm
    split
    · exact hsame.of_filing rfl
    · split
      · exact hsame.of_filing rfl
      · exact hsame

/-- Whether the file block has been read. -/
def SeesHeading (ts : List Located) (a : Assembly) : Prop :=
  a.heading.isSome = ts.any Located.isFileBlock

theorem files_docBlock {ts : List Located} {a : Assembly} (h : Files ts a) (hs : SeesHeading ts a)
    (p : Position) (text : List Char) :
    Files (ts ++ [⟨p, .docBlock text⟩]) (a.docBlock p text) := by
  have hfirst : (a.heading.isNone && Block.isFileBlock text) =
      (Block.isFileBlock text && !ts.any Located.isFileBlock) := by
    rw [← hs, Option.not_isSome, Bool.and_comm]
  unfold docBlock
  -- From here the cases are those of the mark.
  rw [hfirst]
  split
  · next hfile =>
    have hm : mark? ts ⟨p, .docBlock text⟩ = none := if_pos hfile
    exact (h.of_none rfl hm).of_filing rfl
  · next hfile =>
    split
    · next name title hgroup =>
      have hm : mark? ts ⟨p, .docBlock text⟩ =
          some (.opening (Block.group name title text p)) := by
        simp only [mark?, if_neg hfile, hgroup]
      exact h.of_opening rfl hm rfl
    · next hgroup =>
      split
      · next hclosing =>
        have hm : mark? ts ⟨p, .docBlock text⟩ = some .closing := by
          simp only [mark?, if_neg hfile, hgroup, hclosing, if_true]
        exact h.of_closing rfl hm
      · next hclosing =>
        have hm : mark? ts ⟨p, .docBlock text⟩ = none := by
          simp only [mark?, if_neg hfile, hgroup, hclosing, Bool.false_eq_true, if_false]
        have hsame := h.of_none rfl hm
        split
        · exact hsame.of_filing rfl
        · exact hsame

theorem heading_abandonGroup (a : Assembly) : a.abandonGroup.heading = a.heading := by
  unfold abandonGroup
  split <;> rfl

theorem heading_addRow (a : Assembly) (r : Row) : (a.addRow r).heading = a.heading := by
  unfold addRow
  split <;> rfl

theorem heading_row (a : Assembly) (p : Position) (args : List (List Char)) :
    (a.row p args).heading = a.heading := by
  unfold row
  split
  · split
    · exact heading_addRow _ _
    · rfl
  · rfl

theorem heading_docLine (a : Assembly) (p : Position) (text : List Char) :
    (a.docLine p text).heading = a.heading := by
  unfold docLine
  split
  · rfl
  · split
    · rfl
    · split <;> rfl

theorem seesHeading_docBlock {ts : List Located} {a : Assembly} (hs : SeesHeading ts a)
    (p : Position) (text : List Char) :
    SeesHeading (ts ++ [⟨p, .docBlock text⟩]) (a.docBlock p text) := by
  unfold SeesHeading at hs ⊢
  rw [List.any_append, ← hs]
  unfold docBlock
  split
  · next hfile =>
    have hblock := (Bool.and_eq_true_iff.mp hfile).2
    simp [Located.isFileBlock, hblock]
  · next hfile =>
    have hsame : (a.heading.isSome || [(⟨p, .docBlock text⟩ : Located)].any Located.isFileBlock) =
        a.heading.isSome := by
      cases hheading : a.heading with
      | some x => rfl
      | none => simpa [Located.isFileBlock, hheading] using hfile
    rw [hsame]
    split
    · exact congrArg Option.isSome a.heading_abandonGroup
    · split
      · rfl
      · split <;> rfl

theorem step {ts : List Located} {a : Assembly} (h : Files ts a) (hs : SeesHeading ts a)
    (l : Located) : Files (ts ++ [l]) (a.add l) ∧ SeesHeading (ts ++ [l]) (a.add l) := by
  obtain ⟨p, t⟩ := l
  cases t with
  | docBlock text => exact ⟨files_docBlock h hs p text, seesHeading_docBlock hs p text⟩
  | docLine text =>
    refine ⟨files_docLine h p text, ?_⟩
    simpa [SeesHeading, Located.isFileBlock, add, heading_docLine] using hs
  | row args =>
    refine ⟨files_row h p args, ?_⟩
    simpa [SeesHeading, Located.isFileBlock, add, heading_row] using hs
  | malformed text =>
    have hcleared : Files ts { a with brief := none } := h.of_filing rfl
    refine ⟨hcleared.of_failure rfl rfl rfl rfl, ?_⟩
    simpa [SeesHeading, Located.isFileBlock, add, report] using hs

theorem files_foldl (ts : List Located) :
    Files ts (ts.foldl add {}) ∧ SeesHeading ts (ts.foldl add {}) := by
  -- Which group is open is said of the tokens before, so the list is taken apart at its end.
  induction ts using List.reverseRecOn with
  | nil => exact ⟨files_nil, rfl⟩
  | append_singleton ts l ih =>
    rw [List.foldl_append, List.foldl_cons, List.foldl_nil]
    exact step ih.1 ih.2 l

end Assembly

/-- Where the rows of a list of tokens are, and what is reported. -/
structure Filed (path : String) (ts : List Located) (p : Parsed) : Prop where
  /-- Every opened group is there in order, with the valid rows of the tokens at which it is open. -/
  groups : p.document.groups.map Group.plain = (openings ts).map (filled ts)
  ungrouped : p.document.ungrouped.map Row.withoutBrief = rowsIn none ts
  /-- The open group is that of the last mark: nothing after it opens or closes a group. -/
  last : ∀ before o, open? before = some o ↔ ∃ front l after, before = front ++ l :: after ∧
    o.1 = front.length ∧ mark? front l = some (.opening o.2) ∧
    ∀ mid x rest, after = mid ++ x :: rest → mark? (front ++ l :: mid) x = none
  /-- Every token that should give a row but does not has a syntax error of its own. -/
  failures : (p.diagnostics.filter (·.check = "Def/Syntax")).map
      (fun d => (d.path, d.position, d.severity)) =
    (ts.filter Located.fails).map fun l => (path, l.position, .error)
  count : p.document.rowCount + (p.diagnostics.filter (·.check = "Def/Syntax")).length =
    (ts.filter Located.isInvocation).length
  unclosed : p.diagnostics.filter (·.check = "Def/UnclosedGroup") = (unclosed ts).map fun o =>
    ⟨path, o.2.position, .warning, "Def/UnclosedGroup", (Finding.unclosedGroup o.2.name).message⟩
  known : ∀ d ∈ p.diagnostics, d.check = "Def/Syntax" ∨ d.check = "Def/UnclosedGroup"

theorem severity_of_syntax {f : Finding} (h : f.check = "Def/Syntax") : f.severity = .error := by
  cases f <;> first | rfl | simp [Finding.check] at h

theorem filter_diagnostics (a : Assembly) (path check : String) :
    (a.diagnostics path).filter (·.check = check) =
      (a.findings.filter (·.2.check = check)).map fun f => f.2.diagnostic path f.1 := by
  rw [Assembly.diagnostics, List.filter_map]
  rfl

namespace Assembly

theorem rowCount_abandonGroup (a : Assembly) : a.abandonGroup.rowCount = a.rowCount := by
  rw [rowCount, rowCount, closed_abandonGroup, ungrouped_abandonGroup, current_abandonGroup]
  simp

theorem rowCount_document (a : Assembly) (path : String) :
    (a.abandonGroup.document path).rowCount = a.abandonGroup.rowCount := by
  rw [rowCount_abandonGroup, Document.rowCount, document, closed_abandonGroup,
    ungrouped_abandonGroup, rowCount]

theorem Files.syntaxErrors {ts : List Located} {a : Assembly} (h : Files ts a) (path : String) :
    ((a.abandonGroup.diagnostics path).filter (·.check = "Def/Syntax")).map
        (fun d => (d.path, d.position, d.severity)) =
      (ts.filter Located.fails).map fun l => (path, l.position, .error) := by
  have hpositions := congrArg (List.map fun p : Position => (path, p, Severity.error))
    h.failures_abandonGroup
  rw [List.map_map, List.map_map] at hpositions
  refine Eq.trans ?_ hpositions
  rw [filter_diagnostics, List.map_map]
  apply List.map_congr_left
  intro f hf
  have hsyntax : f.2.check = "Def/Syntax" := by simpa using (List.mem_filter.mp hf).2
  simp [Finding.diagnostic, severity_of_syntax hsyntax]

end Assembly

/-- No row is lost, repeated or put into a wrong group. -/
theorem filed_assemble (path : String) (ts : List Located) : Filed path ts (assemble path ts) := by
  have h := (Assembly.files_foldl ts).1
  constructor
  · rw [← h.groups, ← Assembly.closed_abandonGroup]
    rfl
  · rw [← h.ungrouped, ← Assembly.ungrouped_abandonGroup]
    rfl
  · exact fun _ _ => open?_eq_some_iff
  · exact h.syntaxErrors path
  · have hlen : ((assemble path ts).diagnostics.filter (·.check = "Def/Syntax")).length =
        ((ts.foldl Assembly.add {}).findings.filter IsSyntax).length := by
      rw [assemble, Assembly.run, filter_diagnostics, List.length_map]
      exact congrArg List.length (Assembly.syntax_abandonGroup _)
    have hrows : (assemble path ts).document.rowCount = (ts.foldl Assembly.add {}).rowCount := by
      rw [assemble, Assembly.run, Assembly.rowCount_document, Assembly.rowCount_abandonGroup]
    rw [hlen, hrows, h.count]
  · have hunclosed := congrArg (List.map fun f : Position × Finding => f.2.diagnostic path f.1)
      h.unclosed_abandonGroup
    rw [List.map_map] at hunclosed
    rw [assemble, Assembly.run, filter_diagnostics]
    exact hunclosed
  · intro d hd
    obtain ⟨f, hf, rfl⟩ := List.mem_map.mp hd
    simpa [IsSyntax, IsUnclosed, Finding.diagnostic] using h.known_abandonGroup f hf

end NodeAtlas.Definition
