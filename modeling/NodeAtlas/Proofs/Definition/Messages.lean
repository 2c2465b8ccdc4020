import NodeAtlas.Definition.Validation
import NodeAtlas.Proofs.Definition.Excerpts
import NodeAtlas.Proofs.Semantic.Meaning

/-!
What messages quote. Their other words are on one line, so a line feed in a message is one of a quoted
text, and the only such texts that can have one are those that rows are written with.
-/

namespace NodeAtlas

theorem toString_eq (s : String) : toString s = s := rfl

theorem isDigit_of_mem_digits {n : Nat} {c : Char} (h : c ∈ Nat.toDigits 10 n) : c.isDigit = true :=
  Nat.isDigit_of_mem_toDigits (by decide) (by decide) h

theorem lineFeed_not_mem_digits (n : Nat) : '\n' ∉ Nat.toDigits 10 n :=
  fun h => absurd (isDigit_of_mem_digits h) (by decide)

/-- The last character of a text is there and is no carriage return. -/
def EndsPlain (s : String) : Prop := ∃ c ∈ s.toList.getLast?, c ≠ '\r'

instance (s : String) : Decidable (EndsPlain s) :=
  decidable_of_iff (s.toList.getLast?.any (· ≠ '\r') = true) (by
    rw [Option.any_eq_true]
    simp [EndsPlain])

theorem endsPlain_append {s : String} (h : EndsPlain s) (front : String) : EndsPlain (front ++ s) := by
  obtain ⟨c, hc, hne⟩ := h
  refine ⟨c, ?_, hne⟩
  rw [String.toList_append, Option.mem_def, List.getLast?_append, hc]
  rfl

theorem endsPlain_repr (n : Nat) : EndsPlain n.repr := by
  have hne : Nat.toDigits 10 n ≠ [] := Nat.toDigits_ne_nil
  refine ⟨(Nat.toDigits 10 n).getLast hne, ?_, fun hreturn => ?_⟩
  · rw [Nat.toList_repr]
    exact List.getLast?_eq_some_getLast hne
  · exact absurd (isDigit_of_mem_digits (hreturn ▸ List.getLast_mem hne)) (by decide)

/-! ## Semantic type expressions -/

namespace SemanticExpr

/-- The texts that a message quotes. -/
def Failure.quoted : Failure → List String
  | unknownType t | multipleBases t | unknownRefinement t | multipleRefinements t => [t]
  | missingBase => []
  | notApplicable r b => [r, b.name]

theorem Failure.lineFeed_mem_message {f : Failure} (h : '\n' ∈ f.message.toList) :
    ∃ t ∈ f.quoted, '\n' ∈ t.toList := by
  unfold message at h
  cases f with
  | missingBase => simp at h
  | _ => simpa [quoted, toString_eq] using h

theorem Failure.endsPlain_message (f : Failure) : EndsPlain f.message := by
  unfold message
  cases f with
  | missingBase => decide
  | _ => exact endsPlain_append (by decide) _

theorem quoted_of_read {u : List Char} {f : Failure} (h : Term.read u = .error f) :
    f.quoted = [.ofList u] := by
  unfold Term.read at h
  split at h
  · cases h
  split at h
  · split at h
    · cases h
    · cases h
      rfl
  · cases h
    rfl

theorem quoted_of_add {g : Found} {u : List Char} {f : Failure} (h : g.add u = .error f) :
    f.quoted = [.ofList u] := by
  unfold Found.add at h
  cases hread : Term.read u with
  | error e =>
    rw [hread] at h
    cases h
    exact quoted_of_read hread
  | ok term =>
    rw [hread] at h
    cases term with
    | base t =>
      dsimp only [bind, Except.bind] at h
      split at h
      · cases h
        rfl
      · cases h
    | refinement r =>
      dsimp only [bind, Except.bind] at h
      split at h
      · cases h
        rfl
      · cases h

/-- A refinement that has been found is one of those that have names. -/
def Found.Known (g : Found) : Prop := ∀ r ∈ g.refinement, r.group ∈ RefinementGroup.all

theorem NamesRefinement.group_mem {s : List Char} {r : Refinement} (h : NamesRefinement s r) :
    r.group ∈ RefinementGroup.all := by
  cases h with
  | bare hs => cases hs; assumption
  | qualified _ hs => cases hs; assumption

theorem Found.Known.add {g g' : Found} {u : List Char} (hg : g.Known) (h : g.add u = .ok g') :
    g'.Known := by
  rcases add_eq_ok_iff.mp h with ⟨b, -, -, rfl⟩ | ⟨r, hread, -, rfl⟩
  · exact hg
  · obtain ⟨_, q, _, -, -, hq, -⟩ := ofPath?_eq_some_iff.mp (Term.read_eq_refinement_iff.mp hread)
    intro r' hr'
    cases hr'
    exact hq.group_mem

/-- The first fault quotes the term that it is found at. -/
theorem quoted_of_foldlM {us : List (List Char)} {g : Found} {f : Failure}
    (h : us.foldlM Found.add g = .error f) : ∃ u ∈ us, f.quoted = [.ofList u] := by
  induction us generalizing g with
  | nil => cases h
  | cons u us ih =>
    rw [List.foldlM_cons] at h
    cases hadd : g.add u with
    | error e =>
      rw [hadd] at h
      cases h
      exact ⟨u, List.mem_cons_self, quoted_of_add hadd⟩
    | ok g' =>
      rw [hadd] at h
      obtain ⟨v, hv, hquoted⟩ := ih h
      exact ⟨v, List.mem_cons_of_mem u hv, hquoted⟩

theorem known_of_foldlM {us : List (List Char)} {g g' : Found} (hg : g.Known)
    (h : us.foldlM Found.add g = .ok g') : g'.Known := by
  induction us generalizing g with
  | nil =>
    cases h
    exact hg
  | cons u us ih =>
    rw [List.foldlM_cons] at h
    obtain ⟨g₁, hadd, hrest⟩ := bind_eq_ok_iff.mp h
    exact ih (hg.add hadd) hrest

theorem subset_of_mem_terms {s u : List Char} (h : u ∈ terms s) : u ⊆ s := by
  obtain ⟨piece, hpiece, rfl⟩ := List.mem_map.mp h
  have hparts : piece ⊆ stripParens s := by
    intro c hc
    have hjoined := bars_splitOn (stripParens s)
    exact hjoined ▸ (Text.infix_intercalate hpiece).subset hc
  exact List.Subset.trans (List.Subset.trans (stripParens_subset piece) hparts)
    (stripParens_subset s)

theorem lineFeed_not_mem_parts {s : List Char} (h : ∀ c ∈ s, isNamePart c = true) : '\n' ∉ s :=
  fun hmem => absurd (h '\n' hmem) (by decide)

theorem lineFeed_not_mem_path {r : Refinement} (h : r.group ∈ RefinementGroup.all) :
    '\n' ∉ r.path.toList := by
  have hname := lineFeed_not_mem_parts (RefinementGroup.isName_name h).parts
  have hvalue := lineFeed_not_mem_parts
    (List.all_eq_true.mp (RefinementGroup.values_distinct r.group h r.bits).2.1)
  simpa [Refinement.path, hname] using hvalue

theorem lineFeed_not_mem_name (t : SemanticType) : '\n' ∉ t.base.name.toList :=
  lineFeed_not_mem_parts (SemanticType.isNamePart_name t.base_mem_all)

/-- Terms that do not go together are quoted by their names. -/
theorem Found.Known.not_mem_quoted {g : Found} (hg : g.Known) {f : Failure}
    (h : g.resolve = .error f) : ∀ t ∈ f.quoted, '\n' ∉ t.toList := by
  unfold Found.resolve at h
  split at h
  · cases h
    exact List.forall_mem_nil _
  · cases h
  · next t r hbase hrefinement =>
    split at h
    · cases h
    · cases h
      exact List.forall_mem_cons.mpr ⟨lineFeed_not_mem_path (hg r hrefinement),
        List.forall_mem_singleton.mpr (lineFeed_not_mem_name t)⟩

/-- What a fault quotes has no line feeds but those of the expression. -/
theorem lineFeed_of_quoted {s : List Char} {f : Failure} (h : read s = .error f) {t : String}
    (ht : t ∈ f.quoted) (hfeed : '\n' ∈ t.toList) : '\n' ∈ s := by
  unfold read at h
  cases hfold : (terms s).foldlM Found.add {} with
  | error e =>
    rw [hfold] at h
    cases h
    obtain ⟨u, hu, hquoted⟩ := quoted_of_foldlM hfold
    rw [hquoted, List.mem_singleton] at ht
    rw [ht, String.toList_ofList] at hfeed
    exact subset_of_mem_terms hu hfeed
  | ok g =>
    rw [hfold] at h
    have hknown : g.Known := known_of_foldlM (fun r hr => by cases hr) hfold
    exact absurd hfeed (hknown.not_mem_quoted h t ht)

end SemanticExpr

namespace Definition

/-! ## Findings -/

namespace Finding

def quoted : Finding → List String
  | unterminatedRow | argumentCount _ => []
  | rawTypeNotLiteral text | nameExtraction text | nativeExtraction text | flags text => [text]
  | unclosedGroup name | emptyGroup name => [name]
  | semanticType rawType cause => rawType :: cause.quoted
  | missingDescription rawType | duplicate rawType _ => [rawType]
  | shadowed rawType group _ => rawType :: group.toList

theorem lineFeed_mem_placeOf {group : Option String} (h : '\n' ∈ (placeOf group).toList) :
    ∃ g ∈ group, '\n' ∈ g.toList := by
  unfold placeOf at h
  cases group with
  | none => simp at h
  | some g => simpa [toString_eq] using h

theorem lineFeed_mem_message {f : Finding} (h : '\n' ∈ f.message.toList) :
    ∃ t ∈ f.quoted, '\n' ∈ t.toList := by
  unfold message at h
  cases f with
  | unterminatedRow => simp at h
  | argumentCount n => simp [toString_eq, lineFeed_not_mem_digits] at h
  | semanticType rawType cause =>
    have hparts : '\n' ∈ rawType.toList ∨ '\n' ∈ cause.message.toList := by
      simpa [toString_eq] using h
    rcases hparts with hraw | hcause
    · exact ⟨rawType, List.mem_cons_self, hraw⟩
    · obtain ⟨t, ht, hfeed⟩ := SemanticExpr.Failure.lineFeed_mem_message hcause
      exact ⟨t, List.mem_cons_of_mem rawType ht, hfeed⟩
  | duplicate rawType line =>
    have hraw : '\n' ∈ rawType.toList := by
      simpa [toString_eq, lineFeed_not_mem_digits] using h
    exact ⟨rawType, List.mem_cons_self, hraw⟩
  | shadowed rawType group line =>
    have hparts : '\n' ∈ rawType.toList ∨ '\n' ∈ (placeOf group).toList := by
      simpa [toString_eq, lineFeed_not_mem_digits] using h
    rcases hparts with hraw | hplace
    · exact ⟨rawType, List.mem_cons_self, hraw⟩
    · obtain ⟨g, hg, hfeed⟩ := lineFeed_mem_placeOf hplace
      exact ⟨g, List.mem_cons_of_mem rawType (Option.mem_toList.mpr hg), hfeed⟩
  | _ => simpa [quoted, toString_eq] using h

theorem endsPlain_message (f : Finding) : EndsPlain f.message := by
  unfold message
  cases f with
  | unterminatedRow => decide
  | argumentCount n => exact endsPlain_append (endsPlain_repr n) _
  | semanticType rawType cause => exact endsPlain_append cause.endsPlain_message _
  | duplicate rawType line => exact endsPlain_append (endsPlain_repr line) _
  | shadowed rawType group line => exact endsPlain_append (endsPlain_repr line) _
  | _ => exact endsPlain_append (by decide) _

theorem lineFeed_not_mem_check (f : Finding) : '\n' ∉ f.check.toList := by
  unfold check
  cases f with
  | semanticType rawType cause =>
    dsimp only
    split <;> simp
  | _ => simp

end Finding

/-! ## Rows with line feeds -/

/-- A line feed stands in an argument, or in the node type that the first argument is a literal of. -/
def HasLineFeed (args : List (List Char)) : Prop :=
  (∃ arg ∈ args, '\n' ∈ arg) ∨ ∃ raw ∈ args.head?, ∃ v ∈ Literal.decode? raw, '\n' ∈ v

/-- The invocation at a position has a line feed. -/
def FeedsLine (ts : List Located) (p : Position) : Prop :=
  ∃ args, ⟨p, .row args⟩ ∈ ts ∧ HasLineFeed args

theorem FeedsLine.mono {ts us : List Located} {p : Position} (h : FeedsLine ts p) (hsub : ts ⊆ us) :
    FeedsLine us p :=
  let ⟨args, hargs, hfeed⟩ := h
  ⟨args, hsub hargs, hfeed⟩

/-! ## Groups and syntax errors -/

theorem Block.lineFeed_not_mem_name {text name title : List Char}
    (h : firstGroup? text = some (name, title)) : '\n' ∉ name := by
  have htag {s : List Char} (hs : groupTag? s = some (name, title)) :
      ∃ rest : List Char, name = rest.takeWhile Text.isWordChar := by
    unfold groupTag? at hs
    obtain ⟨rest, -, hs⟩ := Option.bind_eq_some_iff.mp hs
    dsimp only at hs
    split at hs
    · cases hs
      exact ⟨_, rfl⟩
    · cases hs
  obtain ⟨rest, rfl⟩ : ∃ rest : List Char, name = rest.takeWhile Text.isWordChar := by
    induction text with
    | nil => cases h
    | cons c text ih =>
      rw [firstGroup?] at h
      split at h
      · next heq =>
        cases h
        exact htag heq
      · exact ih h
  intro hfeed
  have hword := List.all_eq_true.mp List.all_takeWhile '\n' hfeed
  exact absurd (Text.isBlank_of_isWordChar hword) (by decide)

namespace Assembly

/-- The names of groups are on one line, and only rows with line feeds are reported with one. -/
structure Quotes (ts : List Located) (a : Assembly) : Prop where
  groups : ∀ g ∈ a.closed ++ a.current.toList, '\n' ∉ g.name.toList
  rows : ∀ r ∈ a.rows, ∀ g ∈ r.group, '\n' ∉ g.toList
  findings : ∀ f ∈ a.findings, '\n' ∈ f.2.message.toList → FeedsLine ts f.1

section Operations

variable {ts : List Located} {a : Assembly}

theorem Quotes.mono {us : List Located} (h : Quotes ts a) (hsub : ts ⊆ us) : Quotes us a :=
  ⟨h.groups, h.rows, fun f hf hfeed => (h.findings f hf hfeed).mono hsub⟩

theorem Quotes.report (h : Quotes ts a) {p : Position} {f : Finding}
    (hf : '\n' ∈ f.message.toList → FeedsLine ts p) : Quotes ts (a.report p f) := by
  refine ⟨h.groups, h.rows, ?_⟩
  intro x hx
  rcases List.mem_append.mp hx with hold | hnew
  · exact h.findings x hold
  · rw [List.mem_singleton.mp hnew]
    exact hf

theorem Quotes.abandonGroup (h : Quotes ts a) : Quotes ts a.abandonGroup := by
  constructor
  · rw [closed_abandonGroup, current_abandonGroup]
    simpa using h.groups
  · rw [rows_abandonGroup]
    exact h.rows
  · rw [findings_abandonGroup]
    intro f hf
    rcases List.mem_append.mp hf with hold | hnew
    · exact h.findings f hold
    · obtain ⟨g, hg, rfl⟩ := Option.map_eq_some_iff.mp (Option.mem_toList.mp hnew)
      intro hfeed
      obtain ⟨t, ht, hname⟩ := Finding.lineFeed_mem_message hfeed
      rw [List.mem_singleton.mp ht] at hname
      exact absurd hname (h.groups g (by simp [hg]))

theorem Quotes.openGroup (h : Quotes ts a) {g : Group} (hname : '\n' ∉ g.name.toList)
    (hrows : g.rows = []) : Quotes ts (a.openGroup g) := by
  have hclosed := h.abandonGroup
  refine ⟨?_, rows_openGroup a hrows ▸ h.rows, hclosed.findings⟩
  rw [List.forall_mem_append]
  exact ⟨fun x hx => hclosed.groups x (List.mem_append_left _ hx),
    List.forall_mem_singleton.mpr hname⟩

theorem Quotes.closeGroup (h : Quotes ts a) : Quotes ts a.closeGroup :=
  ⟨by simpa [Assembly.closeGroup] using h.groups, rows_closeGroup a ▸ h.rows, h.findings⟩

theorem Quotes.addRow (h : Quotes ts a) {r : Row} (hr : r.group = a.current.map (·.name)) :
    Quotes ts (a.addRow r) := by
  have hgroup : ∀ g ∈ r.group, '\n' ∉ g.toList := by
    intro g hg
    obtain ⟨o, ho, rfl⟩ := Option.map_eq_some_iff.mp (hr ▸ hg)
    exact h.groups o (by simp [ho])
  refine ⟨?_, ?_, findings_addRow a r ▸ h.findings⟩
  · have hgroups := h.groups
    unfold Assembly.addRow
    split
    · next g hg =>
      rw [hg, Option.toList_some, List.forall_mem_append, List.forall_mem_singleton] at hgroups
      exact List.forall_mem_append.mpr ⟨hgroups.1, List.forall_mem_singleton.mpr hgroups.2⟩
    · exact hgroups
  · intro x hx
    rcases List.mem_append.mp ((rows_addRow a r).mem_iff.mp hx) with hold | hnew
    · exact h.rows x hold
    · rw [List.mem_singleton.mp hnew]
      exact hgroup

theorem Quotes.docBlock (h : Quotes ts a) (p : Position) (text : List Char) :
    Quotes ts (a.docBlock p text) := by
  unfold Assembly.docBlock
  split
  · exact ⟨h.groups, h.rows, h.findings⟩
  split
  · next hgroup =>
    have hname := Block.lineFeed_not_mem_name hgroup
    exact h.openGroup (by simpa [Block.group] using hname) rfl
  split
  · exact h.closeGroup
  split
  · exact ⟨h.groups, h.rows, h.findings⟩
  · exact h

theorem Quotes.docLine (h : Quotes ts a) (p : Position) (text : List Char) :
    Quotes ts (a.docLine p text) := by
  unfold Assembly.docLine
  split
  · exact h.closeGroup
  split
  · exact ⟨h.groups, h.rows, h.findings⟩
  split
  · exact ⟨h.groups, h.rows, h.findings⟩
  · exact h

theorem Quotes.row (h : Quotes ts a) (p : Position) (args : List (List Char)) :
    Quotes (ts ++ [⟨p, .row args⟩]) (a.row p args) := by
  have hcleared : Quotes (ts ++ [⟨p, .row args⟩]) { a with brief := none } :=
    ⟨h.groups, h.rows, (h.mono (List.subset_append_left ts _)).findings⟩
  unfold Assembly.row
  split
  · next raw semanticType nameExtraction nativeExtraction flags =>
    split
    · exact hcleared.addRow rfl
    · refine hcleared.report fun hfeed => ?_
      obtain ⟨t, ht, hmem⟩ := Finding.lineFeed_mem_message hfeed
      rw [List.mem_singleton.mp ht, String.toList_ofList] at hmem
      exact ⟨[raw, semanticType, nameExtraction, nativeExtraction, flags], by simp,
        .inl ⟨raw, List.mem_cons_self, hmem⟩⟩
  · refine hcleared.report fun hfeed => ?_
    obtain ⟨t, ht, -⟩ := Finding.lineFeed_mem_message hfeed
    cases ht

end Operations

theorem Quotes.add {ts : List Located} {a : Assembly} (h : Quotes ts a) (l : Located) :
    Quotes (ts ++ [l]) (a.add l) := by
  have hsame := h.mono (List.subset_append_left ts [l])
  obtain ⟨p, t⟩ := l
  cases t with
  | docBlock text => exact hsame.docBlock p text
  | docLine text => exact hsame.docLine p text
  | row args => exact h.row p args
  | malformed text =>
    have hcleared : Quotes (ts ++ [⟨p, .malformed text⟩]) { a with brief := none } :=
      ⟨hsame.groups, hsame.rows, hsame.findings⟩
    refine hcleared.report fun hfeed => ?_
    obtain ⟨t, ht, -⟩ := Finding.lineFeed_mem_message hfeed
    cases ht

theorem quotes_foldl (ts : List Located) : Quotes ts (ts.foldl add {}) := by
  induction ts using List.reverseRecOn with
  | nil => exact ⟨List.forall_mem_nil _, List.forall_mem_nil _, List.forall_mem_nil _⟩
  | append_singleton ts l ih =>
    rw [List.foldl_append, List.foldl_cons, List.foldl_nil]
    exact ih.add l

end Assembly

/-! ## Documents -/

/-- What a row has from its invocation. -/
def Row.written (r : Row) : List String :=
  [r.rawType, r.semanticType, r.nameExtraction, r.nativeExtraction, r.flags]

/-- What is found at a row on its own quotes what the row is written with. -/
theorem lineFeed_of_mem_findings {r : Row} {f : Finding} (h : f ∈ r.findings)
    (hfeed : '\n' ∈ f.message.toList) : ∃ t ∈ r.written, '\n' ∈ t.toList := by
  obtain ⟨t, ht, hmem⟩ := Finding.lineFeed_mem_message hfeed
  simp only [Row.findings, List.mem_append] at h
  rcases h with (((h | h) | h) | h) | h
  · unfold Row.semanticTypeFinding at h
    split at h
    · cases h
    · next hparse =>
      rw [List.mem_singleton.mp h] at ht
      rcases List.mem_cons.mp ht with rfl | hcause
      · exact ⟨r.rawType, by simp [Row.written], hmem⟩
      · exact ⟨r.semanticType, by simp [Row.written],
          SemanticExpr.lineFeed_of_quoted hparse hcause hmem⟩
  all_goals
    simp only [Row.nameFinding, Row.nativeFinding, Row.flagsFinding, Row.briefFinding,
      List.mem_ite_nil_right, List.mem_singleton] at h
    rw [h.2, Finding.quoted, List.mem_singleton] at ht
    exact ⟨t, by simp [Row.written, ht], hmem⟩

theorem Document.mem_repeatFindings {earlier rows : List Row} {f : Position × Finding}
    (h : f ∈ repeatFindings earlier rows) :
    ∃ r ∈ rows, ∃ first ∈ earlier ++ rows, f = (r.position, Row.repeats first r) := by
  induction rows generalizing earlier with
  | nil => cases h
  | cons r rows ih =>
    rw [repeatFindings] at h
    split at h
    · next first hfirst =>
      rcases List.mem_cons.mp h with rfl | hrest
      · exact ⟨r, List.mem_cons_self, first,
          List.mem_append_left _ (List.mem_of_find?_eq_some hfirst), rfl⟩
      · obtain ⟨r', hr', first', hfirst', rfl⟩ := ih hrest
        exact ⟨r', List.mem_cons_of_mem r hr', first', by grind, rfl⟩
    · obtain ⟨r', hr', first', hfirst', rfl⟩ := ih h
      exact ⟨r', List.mem_cons_of_mem r hr', first', by simpa using hfirst', rfl⟩

theorem quoted_repeats (first r : Row) :
    ∀ t ∈ (Row.repeats first r).quoted, t = r.rawType ∨ t ∈ first.group := by
  intro t ht
  unfold Row.repeats at ht
  split at ht
  · exact .inl (List.mem_singleton.mp ht)
  · exact (List.mem_cons.mp ht).imp_right Option.mem_toList.mp

section Parse

variable {path text : String}

theorem feedsLine_of_written {r : Row} (hr : r ∈ (parse path text).document.rows) {t : String}
    (ht : t ∈ r.written) (hfeed : '\n' ∈ t.toList) : FeedsLine (tokens text.toList) r.position := by
  obtain ⟨raw, hrow, hraw⟩ := exists_invocation hr
  refine ⟨_, hrow, ?_⟩
  rcases List.mem_cons.mp ht with rfl | hargument
  · exact .inr ⟨raw, rfl, _, hraw, hfeed⟩
  · exact .inl ⟨t.toList,
      List.mem_cons_of_mem raw (List.mem_map_of_mem (f := String.toList) hargument), hfeed⟩

/-- What is found at a place has a line feed in its message only if the row there has one. -/
theorem feedsLine_of_finding {f : Position × Finding} (h : f ∈ (parse path text).document.findings)
    (hfeed : '\n' ∈ f.2.message.toList) : FeedsLine (tokens text.toList) f.1 := by
  have hquotes := Assembly.quotes_foldl (tokens text.toList)
  have hgroup : ∀ r ∈ (parse path text).document.rows, ∀ g ∈ r.group, '\n' ∉ g.toList :=
    fun r hr => hquotes.rows r ((rows_assemble path _).mem_iff.mp hr)
  rcases List.mem_append.mp h with hrows | hempty
  · rcases List.mem_append.mp hrows with hrow | hrepeat
    · obtain ⟨r, hr, hmap⟩ := List.mem_flatMap.mp hrow
      obtain ⟨found, hfound, rfl⟩ := List.mem_map.mp hmap
      obtain ⟨t, ht, hmem⟩ := lineFeed_of_mem_findings hfound hfeed
      exact feedsLine_of_written hr ht hmem
    · obtain ⟨r, hr, first, hfirst, rfl⟩ := Document.mem_repeatFindings hrepeat
      obtain ⟨t, ht, hmem⟩ := Finding.lineFeed_mem_message hfeed
      rcases quoted_repeats first r t ht with rfl | hname
      · exact feedsLine_of_written hr List.mem_cons_self hmem
      · exact absurd hmem (hgroup first (by simpa using hfirst) t hname)
  · obtain ⟨g, hg, rfl⟩ := List.mem_map.mp hempty
    obtain ⟨t, ht, hmem⟩ := Finding.lineFeed_mem_message hfeed
    rw [List.mem_singleton.mp ht] at hmem
    have hclosed : (parse path text).document.groups =
        ((tokens text.toList).foldl Assembly.add {}).closed ++
          ((tokens text.toList).foldl Assembly.add {}).current.toList :=
      Assembly.closed_abandonGroup _
    exact absurd hmem (hquotes.groups g (hclosed ▸ (List.mem_filter.mp hg).1))

/-- What reading and validating a text say of it. -/
theorem exists_finding {d : Diagnostic}
    (h : d ∈ (parse path text).diagnostics ++ (parse path text).document.validate) :
    ∃ (p : Position) (f : Finding), d = f.diagnostic path p ∧
      ('\n' ∈ f.message.toList → FeedsLine (tokens text.toList) p) := by
  rcases List.mem_append.mp h with hread | hvalidate
  · obtain ⟨f, hf, rfl⟩ := List.mem_map.mp hread
    exact ⟨f.1, f.2, rfl, (Assembly.quotes_foldl _).abandonGroup.findings f hf⟩
  · obtain ⟨f, hf, rfl⟩ := List.mem_map.mp (List.mem_mergeSort.mp hvalidate)
    exact ⟨f.1, f.2, rfl, feedsLine_of_finding hf⟩

end Parse

end Definition

end NodeAtlas
