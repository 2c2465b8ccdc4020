import NodeAtlas.Markdown.Page
import NodeAtlas.Proofs.NodeTable.Insertion
import NodeAtlas.Proofs.Semantic.Meaning

/-!
Expressions as pages show them. Taking out a namespace, and showing a text in a table cell, leave
the parentheses and the bars where they are and keep what each term denotes, so the expression is
read as before.
-/

namespace NodeAtlas.SemanticExpr

open Text

/-! ## Changes that keep the meaning -/

/-- A change of texts that leaves marks alone, puts blanks in the place of blanks, and keeps what
terms denote. -/
structure KeepsMeaning (f : List Char → List Char) : Prop where
  nil : f [] = []
  mark : ∀ {c}, isMark c = true → ∀ a b, f (a ++ c :: b) = f a ++ c :: f b
  blank : ∀ {c}, isBlank c = true → ∀ a b, ∃ d, isBlank d = true ∧ f (a ++ c :: b) = f a ++ d :: f b
  mem : ∀ {c}, isMark c = true → ∀ s, c ∈ f s → c ∈ s
  base : ∀ {s t}, DenotesBase s t → DenotesBase (f s) t
  refinement : ∀ {s r}, DenotesRefinement s r → DenotesRefinement (f s) r

namespace KeepsMeaning

variable {f : List Char → List Char} (hf : KeepsMeaning f)

include hf

theorem blanks_append {v : List Char} (hv : AllBlank v) (s : List Char) :
    ∃ v', AllBlank v' ∧ f (v ++ s) = v' ++ f s := by
  induction v with
  | nil => exact ⟨[], allBlank_nil, rfl⟩
  | cons c v ih =>
    obtain ⟨hc, hv⟩ := List.forall_mem_cons.mp hv
    obtain ⟨v', hv', heq⟩ := ih hv
    obtain ⟨d, hd, hstep⟩ := hf.blank hc [] (v ++ s)
    refine ⟨d :: v', List.forall_mem_cons.mpr ⟨hd, hv'⟩, ?_⟩
    rw [List.nil_append, hf.nil, heq] at hstep
    exact hstep

theorem append_blanks {w : List Char} (hw : AllBlank w) (s : List Char) :
    ∃ w', AllBlank w' ∧ f (s ++ w) = f s ++ w' := by
  cases w with
  | nil => exact ⟨[], allBlank_nil, by simp⟩
  | cons c w =>
    obtain ⟨hc, hw⟩ := List.forall_mem_cons.mp hw
    obtain ⟨d, hd, hstep⟩ := hf.blank hc s w
    obtain ⟨w', hw', heq⟩ := hf.blanks_append hw []
    rw [List.append_nil, hf.nil, List.append_nil] at heq
    exact ⟨d :: w', List.forall_mem_cons.mpr ⟨hd, hw'⟩, by rw [hstep, heq]⟩

theorem trim_trim (s : List Char) : trim (f (trim s)) = trim (f s) := by
  obtain ⟨v, w, hv, hw, hs⟩ := exists_trim s
  obtain ⟨v', hv', hfront⟩ := hf.blanks_append hv (trim s ++ w)
  obtain ⟨w', hw', hback⟩ := hf.append_blanks hw (trim s)
  conv_rhs => rw [hs, hfront, hback]
  rw [trim_blanks hv' hw']

theorem enclosed (s : List Char) : f ('(' :: (s ++ [')'])) = '(' :: (f s ++ [')']) := by
  have hopen := hf.mark (c := '(') (by decide) [] (s ++ [')'])
  rw [List.nil_append, hf.nil, hf.mark (by decide), hf.nil] at hopen
  exact hopen

/-- Stripping before the change makes no difference to stripping after it. -/
theorem stripParens_stripParens (s : List Char) :
    stripParens (f (stripParens s)) = stripParens (f s) := by
  fun_induction stripParens s with
  | case1 s t h ih =>
    rw [ih, ← stripParens_congr (hf.trim_trim s), inside?_eq_some_iff.mp h, hf.enclosed,
      stripParens_enclosed]
  | case2 s h => exact stripParens_congr (hf.trim_trim s)

theorem map_bars {ps : List (List Char)} (hne : ps ≠ []) : f (bars ps) = bars (ps.map f) := by
  induction ps with
  | nil => exact absurd rfl hne
  | cons p ps ih =>
    by_cases hnil : ps = []
    · simp [hnil, bars]
    · rw [bars_cons hnil, hf.mark (by decide), ih hnil, List.map_cons,
        bars_cons (by simpa using hnil)]

theorem plain {s : List Char} (h : Plain s) : Plain (f s) := by
  intro c hc
  by_contra hmark
  rw [Bool.not_eq_false] at hmark
  have hplain := h c (hf.mem hmark s hc)
  rw [hmark] at hplain
  cases hplain

/-- A piece is read as the same term. -/
theorem read_term {p : List Char} {x : Term} (h : Term.read (stripParens p) = .ok x) :
    Term.read (stripParens (f p)) = .ok x := by
  rw [← trim_of_trimmed (trimmed_stripParens p)] at h
  rw [← hf.stripParens_stripParens, stripParens_of_plain (hf.plain (plain_of_read h))]
  cases x with
  | base t => exact Term.read_trim_eq_base_iff.mpr (hf.base (Term.read_trim_eq_base_iff.mp h))
  | refinement r =>
    exact Term.read_trim_eq_refinement_iff.mpr
      (hf.refinement (Term.read_trim_eq_refinement_iff.mp h))

/-- Where the change leaves a piece that is read as a term with parentheses, they enclose it. -/
theorem opens_closes {p : List Char} {x : Term} (h : Term.read (stripParens p) = .ok x)
    (hmarks : ¬ Plain (f p)) : Opens p ∧ Closes p := by
  cases hin : inside? (trim p) with
  | some t => exact opens_closes_of_inside? hin
  | none =>
    rw [stripParens_of_none hin] at h
    exact absurd (hf.plain (plain_of_read h)) hmarks

/-- The change makes no parentheses that enclose an accepted expression. -/
theorem inside?_stripParens {s : List Char} (h : ∀ u ∈ terms s, ∃ x, Term.read u = .ok x) :
    inside? (trim (f (stripParens s))) = none := by
  have hs := bars_splitOn (stripParens s)
  have hread : ∀ p ∈ (stripParens s).splitOn '|', ∃ x, Term.read (stripParens p) = .ok x :=
    fun p hp => h _ (List.mem_map_of_mem hp)
  cases hps : (stripParens s).splitOn '|' with
  | nil => exact absurd hps (List.splitOn_ne_nil '|' _)
  | cons p rest =>
    rw [hps] at hs hread
    obtain ⟨x, hx⟩ := hread p List.mem_cons_self
    rcases List.eq_nil_or_concat' rest with rfl | ⟨mid, q, rfl⟩
    · -- A single piece is a term that is stripped already, so it has no parentheses at all.
      have hp : p = stripParens s := by simpa [bars] using hs
      have hnone := SemanticExpr.inside?_stripParens s
      have htrim := trim_of_trimmed (trimmed_stripParens s)
      rw [hp, stripParens_of_none (by rw [htrim, hnone])] at hx
      exact inside?_of_plain (plain_trim (hf.plain (plain_of_read hx)))
    · -- What opens and closes the ends after the change did so before, and would be stripped.
      obtain ⟨y, hy⟩ := hread q (by simp)
      by_contra hsome
      rw [← hs, hf.map_bars (by simp), List.map_cons, List.map_append, List.map_singleton] at hsome
      obtain ⟨hopen, hclose⟩ := inside?_trim_bars_iff.mp hsome
      have hp := (hf.opens_closes hx fun hplain => hplain.not_opens hopen).1
      have hq := (hf.opens_closes hy fun hplain => hplain.not_closes hclose).2
      have henclosed : inside? (trim (bars (p :: (mid ++ [q])))) ≠ none :=
        inside?_trim_bars_iff.mpr ⟨hp, hq⟩
      rw [hs, trim_of_trimmed (trimmed_stripParens s),
        SemanticExpr.inside?_stripParens] at henclosed
      exact henclosed rfl

theorem terms_map {s : List Char} (h : ∀ u ∈ terms s, ∃ x, Term.read u = .ok x) :
    terms (f s) = ((stripParens s).splitOn '|').map fun p => stripParens (f p) := by
  have hbar : ∀ p ∈ ((stripParens s).splitOn '|').map f, '|' ∉ p := by
    intro q hq
    obtain ⟨p, hp, rfl⟩ := List.mem_map.mp hq
    exact fun hmem => not_mem_of_mem_splitOn hp (hf.mem (by decide) p hmem)
  have hnone := hf.inside?_stripParens h
  rw [← bars_splitOn (stripParens s), hf.map_bars (List.splitOn_ne_nil _ _)] at hnone
  rw [terms_congr (hf.stripParens_stripParens s).symm, ← bars_splitOn (stripParens s),
    hf.map_bars (List.splitOn_ne_nil _ _), terms_bars (by simp [List.splitOn_ne_nil]) hbar hnone,
    List.map_map, bars_splitOn]
  rfl

omit hf in
/-- All terms of an accepted expression are read as something. -/
theorem read_of_foldlM {us : List (List Char)} {g g' : Found}
    (h : us.foldlM Found.add g = .ok g') : ∀ u ∈ us, ∃ x, Term.read u = .ok x := by
  induction us generalizing g with
  | nil => simp
  | cons u us ih =>
    rw [List.foldlM_cons, bind_eq_ok_iff] at h
    obtain ⟨g₁, hadd, hrest⟩ := h
    refine List.forall_mem_cons.mpr ⟨?_, ih hrest⟩
    rcases add_eq_ok_iff.mp hadd with ⟨b, hread, -⟩ | ⟨r, hread, -⟩
    · exact ⟨_, hread⟩
    · exact ⟨_, hread⟩

/-- What is read as the same terms fills the same places. -/
theorem foldlM_map {ps : List (List Char)} {g g' : Found}
    (h : (ps.map stripParens).foldlM Found.add g = .ok g') :
    (ps.map fun p => stripParens (f p)).foldlM Found.add g = .ok g' := by
  induction ps generalizing g with
  | nil => exact h
  | cons p ps ih =>
    rw [List.map_cons, List.foldlM_cons, bind_eq_ok_iff] at h ⊢
    obtain ⟨g₁, hadd, hrest⟩ := h
    refine ⟨g₁, add_eq_ok_iff.mpr ?_, ih hrest⟩
    rcases add_eq_ok_iff.mp hadd with ⟨b, hread, hg⟩ | ⟨r, hread, hg⟩
    · exact .inl ⟨b, hf.read_term hread, hg⟩
    · exact .inr ⟨r, hf.read_term hread, hg⟩

/-- An accepted expression is read the same after the change. -/
theorem read_map {s : List Char} {t : SemanticType} (h : read s = .ok t) : read (f s) = .ok t := by
  rw [read, bind_eq_ok_iff] at h ⊢
  obtain ⟨found, hfold, hresolve⟩ := h
  rw [hf.terms_map (read_of_foldlM hfold)]
  exact ⟨found, hf.foldlM_map hfold, hresolve⟩

end KeepsMeaning

/-! ## Taking out a namespace -/

/-- A namespace that occurs in expressions where a namespace may stand, and nowhere else. -/
structure Removable (pat : List Char) : Prop where
  plain : Plain pat
  notBlank : ∀ c ∈ pat, isBlank c = false
  colon : ':' ∈ pat
  namespaces : ∀ n ∈ refinementNamespace :: namespaces, n = pat ∨ Keeps pat n
  groups : ∀ g ∈ RefinementGroup.all, Keeps pat g.name.toList
  colons : Keeps pat "::".toList

theorem removable_of_mem {pat : List Char} (h : pat ∈ [typeNamespace, refinementNamespace]) :
    Removable pat := by
  have hmem : pat ∈ refinementNamespace :: namespaces := by
    revert h
    simp only [namespaces, List.mem_cons, List.not_mem_nil, or_false]
    rintro (rfl | rfl) <;> simp
  have hall : ∀ pat ∈ [typeNamespace, refinementNamespace], ':' ∈ pat ∧
      (∀ n ∈ refinementNamespace :: namespaces, n = pat ∨ Keeps pat n) ∧
        Keeps pat "::".toList := by
    decide +kernel
  obtain ⟨hcolon, hnamespaces, hcolons⟩ := hall pat h
  exact ⟨plain_of_mem_namespaces hmem, isBlank_of_mem_namespaces hmem, hcolon, hnamespaces,
    fun g hg => (RefinementGroup.isName_name hg).keeps pat h, hcolons⟩

namespace Removable

variable {pat : List Char} (hpat : Removable pat)

include hpat

theorem ne_nil : pat ≠ [] := List.ne_nil_of_mem hpat.colon

/-- The namespace has neither blanks nor marks, so it is found on each side of one by itself. -/
theorem eraseAll_stop {c : Char} (hc : isBlank c = true ∨ isMark c = true) (a b : List Char) :
    eraseAll pat (a ++ c :: b) = eraseAll pat a ++ c :: eraseAll pat b := by
  apply eraseAll_append_stop hpat.ne_nil
  intro hmem
  rcases hc with hc | hc
  · exact absurd (hpat.notBlank c hmem) (by simp [hc])
  · exact absurd (hpat.plain c hmem) (by simp [hc])

theorem eraseAll_blanks_append {v : List Char} (hv : AllBlank v) (s : List Char) :
    eraseAll pat (v ++ s) = v ++ eraseAll pat s := by
  induction v with
  | nil => rfl
  | cons c v ih =>
    obtain ⟨hc, hv⟩ := List.forall_mem_cons.mp hv
    have hstep := hpat.eraseAll_stop (.inl hc) [] (v ++ s)
    rw [List.nil_append, ih hv] at hstep
    exact hstep

theorem eraseAll_append_blanks {w : List Char} (hw : AllBlank w) (s : List Char) :
    eraseAll pat (s ++ w) = eraseAll pat s ++ w := by
  cases w with
  | nil => simp
  | cons c w =>
    obtain ⟨hc, hw⟩ := List.forall_mem_cons.mp hw
    have hrest := hpat.eraseAll_blanks_append hw []
    rw [List.append_nil] at hrest
    rw [hpat.eraseAll_stop (.inl hc), hrest]
    simp [eraseAll, eraseFrom]

theorem eraseAll_word {s : List Char} (h : ∀ c ∈ s, isNamePart c = true) : eraseAll pat s = s := by
  apply eraseAll_self
  intro hfound
  have hpart := h ':' (hfound.subset hpat.colon)
  revert hpart
  decide

/-- A namespace in front is taken out or kept. -/
theorem eraseAll_namespace {n : List Char} (hn : n ∈ SemanticExpr.namespaces) :
    ∃ n' ∈ SemanticExpr.namespaces, ∀ s, eraseAll pat (n ++ s) = n' ++ eraseAll pat s := by
  rcases hpat.namespaces n (List.mem_cons_of_mem _ hn) with rfl | hkeeps
  · exact ⟨[], by simp [SemanticExpr.namespaces], fun s => eraseAll_stem hpat.ne_nil⟩
  · exact ⟨n, hn, fun s => eraseAll_front hkeeps⟩

theorem eraseAll_value {q : List Char} {r : Refinement} (h : NamesValue q r) :
    eraseAll pat q = q := by
  cases h with
  | intro hr hv hw =>
    rw [eraseAll_front (hpat.groups _ hr), hpat.eraseAll_blanks_append hv,
      eraseAll_front hpat.colons, hpat.eraseAll_blanks_append hw,
      hpat.eraseAll_word (isNamePart_refinement hr).2]

theorem eraseAll_refinement {q : List Char} {r : Refinement} (h : NamesRefinement q r) :
    ∃ u q', AllBlank u ∧ NamesRefinement q' r ∧ eraseAll pat q = u ++ q' := by
  cases h with
  | bare hq => exact ⟨[], q, allBlank_nil, .bare hq, hpat.eraseAll_value hq⟩
  | @qualified v q _ hv hq =>
    have hrest : eraseAll pat (v ++ q) = v ++ q := by
      rw [hpat.eraseAll_blanks_append hv, hpat.eraseAll_value hq]
    rcases hpat.namespaces refinementNamespace List.mem_cons_self with rfl | hkeeps
    · exact ⟨v, q, hv, .bare hq, by rw [eraseAll_stem hpat.ne_nil, hrest]⟩
    · exact ⟨[], _, allBlank_nil, .qualified hv hq, by rw [eraseAll_front hkeeps, hrest]; rfl⟩

/-- Taking out a namespace keeps what an expression means. -/
theorem keepsMeaning : KeepsMeaning (eraseAll pat) where
  nil := rfl
  mark hc := hpat.eraseAll_stop (.inr hc)
  blank hc a b := ⟨_, hc, hpat.eraseAll_stop (.inl hc) a b⟩
  mem _ s hmem := (eraseAll_sublist pat s).subset hmem
  base h := by
    cases h with
    | intro hv hn hs hw =>
      obtain ⟨n', hn', hfront⟩ := hpat.eraseAll_namespace hn
      rw [hpat.eraseAll_blanks_append hv, hpat.eraseAll_append_blanks hw, hfront,
        hpat.eraseAll_word hs.parts.2]
      exact .intro hv hn' hs hw
  refinement h := by
    cases h with
    | intro hv hn hu hq hw =>
      obtain ⟨n', hn', hfront⟩ := hpat.eraseAll_namespace hn
      obtain ⟨u', q', hu', hq', hrest⟩ := hpat.eraseAll_refinement hq
      rw [hpat.eraseAll_blanks_append hv, hpat.eraseAll_append_blanks hw, hfront,
        hpat.eraseAll_blanks_append hu, hrest, ← List.append_assoc _ u' q']
      exact .intro hv hn' (allBlank_append.mpr ⟨hu, hu'⟩) hq' hw

end Removable

/-! ## Table cells -/

/-- A table cell has one line. -/
def spaced (c : Char) : Char := if c = '\n' then ' ' else c

theorem isBlank_spaced {c : Char} (h : isBlank c = true) : isBlank (spaced c) = true := by
  unfold spaced
  split
  · decide
  · exact h

theorem spaced_of_notBlank {c : Char} (h : isBlank c = false) : spaced c = c := by
  refine if_neg ?_
  rintro rfl
  revert h
  decide

theorem map_spaced {s : List Char} (h : ∀ c ∈ s, isBlank c = false) : s.map spaced = s :=
  (List.map_congr_left fun c hc => spaced_of_notBlank (h c hc)).trans (List.map_id s)

theorem map_spaced_word {s : List Char} (h : ∀ c ∈ s, isNamePart c = true) : s.map spaced = s :=
  map_spaced fun c hc => isBlank_of_isNamePart (h c hc)

theorem allBlank_map_spaced {w : List Char} (h : AllBlank w) : AllBlank (w.map spaced) :=
  List.forall_mem_map.mpr fun c hc => isBlank_spaced (h c hc)

theorem NamesValue.map_spaced {q : List Char} {r : Refinement} (h : NamesValue q r) :
    NamesValue (q.map spaced) r := by
  cases h with
  | intro hr hv hw =>
    simp only [List.map_append, map_spaced_word (RefinementGroup.isName_name hr).parts,
      map_spaced_word (isNamePart_refinement hr).2]
    exact .intro hr (allBlank_map_spaced hv) (allBlank_map_spaced hw)

theorem NamesRefinement.map_spaced {q : List Char} {r : Refinement} (h : NamesRefinement q r) :
    NamesRefinement (q.map spaced) r := by
  cases h with
  | bare hq => exact .bare hq.map_spaced
  | qualified hv hq =>
    simp only [List.map_append]
    exact .qualified (allBlank_map_spaced hv) hq.map_spaced

/-- Spaces in the place of line feeds make no difference to an expression. -/
theorem keepsMeaning_spaced : KeepsMeaning (List.map spaced) where
  nil := rfl
  mark {c} hc a b := by
    have hblank : isBlank c = false := by
      by_contra hblank
      rw [isMark_of_isBlank (by simpa using hblank)] at hc
      cases hc
    rw [List.map_append, List.map_cons, spaced_of_notBlank hblank]
  blank hc a b := ⟨_, isBlank_spaced hc, List.map_append⟩
  mem {c} hc s hmem := by
    obtain ⟨d, hd, rfl⟩ := List.mem_map.mp hmem
    unfold spaced at hc ⊢
    split at hc
    · exact absurd hc (by decide)
    · next hne => rwa [if_neg hne]
  base h := by
    cases h with
    | intro hv hn hs hw =>
      simp only [List.map_append, map_spaced (isBlank_of_mem_namespaces (.tail _ hn)),
        map_spaced_word hs.parts.2]
      exact .intro (allBlank_map_spaced hv) hn hs (allBlank_map_spaced hw)
  refinement h := by
    cases h with
    | intro hv hn hu hq hw =>
      simp only [List.map_append, map_spaced (isBlank_of_mem_namespaces (.tail _ hn))]
      exact .intro (allBlank_map_spaced hv) hn (allBlank_map_spaced hu) hq.map_spaced
        (allBlank_map_spaced hw)

/-- What a table cell shows: a bar for a bar with a backslash. -/
def shown : List Char → List Char
  | '\\' :: '|' :: rest => '|' :: shown rest
  | c :: rest => c :: shown rest
  | [] => []

theorem head?_escapeCell (s : List Char) : (Markdown.escapeCell s).head? ≠ some '|' := by
  cases s with
  | nil => simp [Markdown.escapeCell]
  | cons c s =>
    rw [Markdown.escapeCell]
    split
    · simp
    · next hbar =>
      split
      · simp
      · simpa using hbar

/-- A cell shows the text that is put into it, in one line. -/
theorem shown_escapeCell (s : List Char) : shown (Markdown.escapeCell s) = s.map spaced := by
  induction s with
  | nil => rfl
  | cons c s ih =>
    rw [Markdown.escapeCell, List.map_cons, ← ih]
    split
    · next hbar =>
      rw [hbar]
      rfl
    · split
      · next hfeed =>
        rw [hfeed]
        rfl
      · next hfeed =>
        rw [shown.eq_2, spaced, if_neg hfeed]
        intro rest _ hrest
        exact head?_escapeCell s (by rw [hrest]; rfl)

/-! ## Pages -/

theorem parse_typeText {s : String} {t : SemanticType} (h : parse s = .ok t) :
    parse (Markdown.typeText s) = .ok t := by
  rw [Markdown.typeText, parse, String.toList_ofList]
  have hrefinement := (@removable_of_mem refinementNamespace (by simp)).keepsMeaning
  have htype := (@removable_of_mem typeNamespace (by simp)).keepsMeaning
  exact htype.read_map (hrefinement.read_map h)

theorem parse_shown_cell {s : String} {t : SemanticType} (h : parse s = .ok t) :
    parse (.ofList (shown (Markdown.cell s).toList)) = .ok t := by
  rw [Markdown.cell, parse, String.toList_ofList, String.toList_ofList, shown_escapeCell]
  exact keepsMeaning_spaced.read_map h

/-- What a page shows for an accepted expression is read as the same type. For the first row of each
kind it is the type in the table. -/
theorem parse_shown :
    (∀ s t, parse s = .ok t → parse (Markdown.typeText s) = .ok t) ∧
      ∀ (d : Definition.Document) (table : NodeTable), NodeTable.ofDocument d = .ok table →
        ∀ r ∈ d.rows, ∃ config, NodeTable.resolve r = .ok config ∧
          parse (Markdown.typeText r.semanticType) = .ok config.semanticType ∧
          parse (.ofList (shown (Markdown.cell (Markdown.typeText r.semanticType)).toList)) =
            .ok config.semanticType ∧
          (d.rows.find? (·.rawType == r.rawType) = some r →
            table.get? r.rawType = some config) := by
  refine ⟨fun s t h => parse_typeText h, fun d table h r hr => ?_⟩
  obtain ⟨config, hconfig⟩ := NodeTable.resolve_of_foldlM_addRow h r hr
  have htext := parse_typeText (NodeTable.parse_of_resolve hconfig)
  refine ⟨config, hconfig, htext, parse_shown_cell htext, fun hfirst => ?_⟩
  rw [NodeTable.get?_foldlM_addRow h, hfirst, NodeTable.get?_empty, Option.none_or,
    Option.bind_some, hconfig]
  rfl

theorem parse_shown_mapping :
    let expr := "ASTSemanticType::LITERAL_STRUCTURED |\n SemanticRefinements::Structured::MAPPING"
    let r : Definition.Row := ⟨"object", expr, "NONE", "NONE", "0", none, none, ⟨1, 0⟩⟩
    let d : Definition.Document := ⟨"json_types.def", {}, [], [r]⟩
    parse expr = .ok ⟨.literal, 3, 2⟩ ∧ parse (Markdown.typeText expr) = .ok ⟨.literal, 3, 2⟩ ∧
      ∃ table config, NodeTable.ofDocument d = .ok table ∧ table.get? "object" = some config ∧
        parse (.ofList (shown (Markdown.cell (Markdown.typeText expr)).toList)) =
          .ok config.semanticType := by
  intro expr r d
  have hparse : parse expr = .ok ⟨.literal, 3, 2⟩ := by decide +kernel
  have hrows : d.rows = [r] := by simp [d, Definition.Document.rows]
  have hresolve : NodeTable.resolve r = .ok ⟨⟨.literal, 3, 2⟩, .none, .none, .empty⟩ := by
    decide +kernel
  obtain ⟨table, htable⟩ : ∃ table, NodeTable.ofDocument d = .ok table := by
    rw [NodeTable.ofDocument, hrows]
    exact ⟨_, bind_eq_ok_iff.mpr ⟨_, NodeTable.addRow_eq_ok_iff.mpr ⟨_, hresolve, rfl⟩, rfl⟩⟩
  obtain ⟨config, -, -, hshown, hget⟩ := parse_shown.2 d table htable r (by simp [hrows])
  exact ⟨hparse, parse_shown.1 _ _ hparse, table, config, htable, hget (by simp [hrows]), hshown⟩

end NodeAtlas.SemanticExpr
