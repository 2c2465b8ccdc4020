import NodeAtlas.Proofs.Outcome
import NodeAtlas.Proofs.Semantic.Stripping

/-!
Parentheses around terms and around expressions. They make no difference, unless both the first and
the last of several terms stand in some: the first parenthesis is then taken to be closed by the
last one, and the expression is refused.
-/

namespace NodeAtlas.SemanticExpr

open Text

/-! ## Parentheses that do not match -/

/-- Before the first bar more parentheses are closed than are opened. -/
def Overclosed (s : List Char) : Prop :=
  ∃ a b, s = a ++ '|' :: b ∧ '|' ∉ a ∧ a.count '(' < a.count ')'

theorem count_trimStart {c : Char} (hc : isBlank c = false) (s : List Char) :
    (trimStart s).count c = s.count c := by
  have hfront : (s.takeWhile isBlank).count c = 0 := by
    apply List.count_eq_zero.mpr
    intro hmem
    have hblank := List.all_eq_true.mp List.all_takeWhile c hmem
    rw [hc] at hblank
    cases hblank
  conv_rhs => rw [← List.takeWhile_append_dropWhile (p := isBlank) (l := s)]
  rw [List.count_append, hfront, Nat.zero_add, trimStart]

theorem count_trim {c : Char} (hc : isBlank c = false) (s : List Char) :
    (trim s).count c = s.count c := by
  have hend := count_trimStart hc (trimStart s).reverse
  rw [trimStart, List.count_reverse, count_trimStart hc] at hend
  rw [trim, trimEnd, List.count_reverse, hend]

/-- Stripping takes off as many parentheses that open as parentheses that close. -/
theorem count_stripParens (s : List Char) :
    (stripParens s).count ')' + s.count '(' = s.count ')' + (stripParens s).count '(' := by
  fun_induction stripParens s with
  | case1 s t h ih =>
    have hopen := count_trim (c := '(') (by decide) s
    have hclose := count_trim (c := ')') (by decide) s
    rw [inside?_eq_some_iff.mp h] at hopen hclose
    simp at hopen hclose
    omega
  | case2 s h => rw [count_trim (by decide), count_trim (by decide), Nat.add_comm]

theorem Overclosed.stripParens {s : List Char} (h : Overclosed s) :
    Overclosed (stripParens s) := by
  have htrim {s : List Char} (h : Overclosed s) : Overclosed (trim s) := by
    obtain ⟨a, b, rfl, hbar, hcount⟩ := h
    refine ⟨trimStart a, trimEnd b, trim_append_stop (by decide) a b,
      fun hmem => hbar ((List.dropWhile_suffix isBlank).subset hmem), ?_⟩
    rwa [count_trimStart (by decide), count_trimStart (by decide)]
  fun_induction SemanticExpr.stripParens s with
  | case1 s t ht ih =>
    -- The parenthesis that opens is in front of the first bar, the one that closes is behind it.
    obtain ⟨a, b, hs, hbar, hcount⟩ := htrim h
    rw [hs] at ht
    obtain ⟨rest, front, rfl, rfl, rfl⟩ := inside?_bar_iff.mp ht
    refine ih ⟨rest, front, rfl, fun hmem => hbar (List.mem_cons_of_mem _ hmem), ?_⟩
    simp at hcount
    omega
  | case2 s hnone => exact htrim h

/-- The first term is faulty, since it has a parenthesis that nothing strips. -/
theorem Overclosed.read {s : List Char} (h : Overclosed s) : ∃ e, read s = .error e := by
  obtain ⟨a, b, hs, hbar, hcount⟩ := h.stripParens
  have hexcess := count_stripParens a
  have hpieces : (a ++ '|' :: b).splitOn '|' = a :: b.splitOn '|' := by
    have happ : (a ++ '|' :: b).splitOn '|' = a.splitOn '|' ++ b.splitOn '|' :=
      List.splitOnP_append_cons a b rfl
    rw [happ, List.splitOn_eq_singleton hbar, List.singleton_append]
  have hread : ∃ e, Term.read (SemanticExpr.stripParens a) = .error e := by
    cases hx : Term.read (SemanticExpr.stripParens a) with
    | error e => exact ⟨e, rfl⟩
    | ok x =>
      rw [← trim_of_trimmed (trimmed_stripParens a)] at hx
      have hplain := plain_of_read hx
      have hclose : (SemanticExpr.stripParens a).count ')' = 0 :=
        List.count_eq_zero.mpr fun hmem => absurd (hplain ')' hmem) (by decide)
      omega
  obtain ⟨e, he⟩ := hread
  refine ⟨e, ?_⟩
  rw [SemanticExpr.read, terms, hs, hpieces, List.map_cons, List.foldlM_cons, Found.add, he]
  rfl

/-! ## Wrapped terms -/

/-- A text in `n` pairs of parentheses, with blanks anywhere around them. -/
inductive Wraps (s : List Char) : Nat → List Char → Prop where
  | blanks {v w : List Char} (hv : AllBlank v) (hw : AllBlank w) : Wraps s 0 (v ++ (s ++ w))
  | pair {n : Nat} {v u w : List Char} (hv : AllBlank v) (hu : Wraps s n u) (hw : AllBlank w) :
      Wraps s (n + 1) (v ++ ('(' :: (u ++ [')']) ++ w))

namespace Wraps

variable {s u : List Char} {n : Nat}

theorem stripParens (h : Wraps s n u) : stripParens u = SemanticExpr.stripParens s := by
  induction h with
  | blanks hv hw => exact stripParens_blanks hv hw
  | pair hv _ hw ih => rw [stripParens_blanks hv hw, stripParens_enclosed, ih]

theorem not_mem_bar (h : Wraps s n u) (hs : '|' ∉ s) : '|' ∉ u := by
  have hblank {w : List Char} (hw : AllBlank w) : '|' ∉ w :=
    fun hmem => absurd (hw '|' hmem) (by decide)
  induction h with
  | blanks hv hw => simp [hs, hblank hv, hblank hw]
  | pair hv _ hw ih => simp [ih, hblank hv, hblank hw]

theorem count_eq (h : Wraps s n u) (hs : Plain s) : u.count '(' = u.count ')' := by
  have hzero {c : Char} {w : List Char} (hw : Plain w) (hc : isMark c = true) : w.count c = 0 :=
    List.count_eq_zero.mpr fun hmem => absurd (hw c hmem) (by simp [hc])
  induction h with
  | blanks hv hw =>
    simp [List.count_append, hzero hs, hzero (plain_of_allBlank hv), hzero (plain_of_allBlank hw),
      isMark]
  | pair hv _ hw ih =>
    simp [List.count_append, hzero (plain_of_allBlank hv), hzero (plain_of_allBlank hw),
      isMark, ih]

theorem opens_iff (h : Wraps s n u) (hs : Plain s) : Opens u ↔ n ≠ 0 := by
  cases h with
  | blanks hv hw => simp [(plain_blanks hv hs hw).not_opens]
  | pair hv _ hw =>
    simp only [ne_eq, Nat.succ_ne_zero, not_false_iff, iff_true]
    exact ⟨_, trimStart_append hv (by simp [show isBlank '(' = false by decide])⟩

theorem closes_iff (h : Wraps s n u) (hs : Plain s) : Closes u ↔ n ≠ 0 := by
  cases h with
  | blanks hv hw => simp [(plain_blanks hv hs hw).not_closes]
  | @pair n v u w hv _ hw =>
    simp only [ne_eq, Nat.succ_ne_zero, not_false_iff, iff_true]
    have happ : v ++ ('(' :: (u ++ [')']) ++ w) = ((v ++ '(' :: u) ++ [')']) ++ w := by simp
    refine ⟨v ++ '(' :: u, ?_⟩
    rw [happ]
    exact trimEnd_append hw (isBlank_getLast?_closed _)

end Wraps

/-- A term, and a text of it in parentheses. -/
structure WrappedTerm where
  term : List Char
  pairs : Nat
  text : List Char
  plain : Plain term
  wraps : Wraps term pairs text

namespace WrappedTerm

/-- A term without parentheses. -/
def ofTerm (t : List Char) (h : Plain t) : WrappedTerm :=
  ⟨t, 0, [] ++ (t ++ []), h, .blanks allBlank_nil allBlank_nil⟩

/-- One more pair of parentheses. -/
def enclose (p : WrappedTerm) : WrappedTerm :=
  ⟨p.term, p.pairs + 1, [] ++ ('(' :: (p.text ++ [')']) ++ []), p.plain,
    .pair allBlank_nil p.wraps allBlank_nil⟩

/-- Both the first and the last of several terms stand in parentheses. -/
def Clash (ps : List WrappedTerm) : Prop :=
  ∃ p mid q, ps = p :: (mid ++ [q]) ∧ p.pairs ≠ 0 ∧ q.pairs ≠ 0

variable {ps : List WrappedTerm}

theorem not_mem_bar (p : WrappedTerm) : '|' ∉ p.text :=
  p.wraps.not_mem_bar fun hmem => absurd (p.plain '|' hmem) (by decide)

theorem inside?_bars_iff {p q : WrappedTerm} {mid : List WrappedTerm} :
    inside? (trim (bars ((p :: (mid ++ [q])).map text))) ≠ none ↔ p.pairs ≠ 0 ∧ q.pairs ≠ 0 := by
  rw [List.map_cons, List.map_append, List.map_singleton, inside?_trim_bars_iff,
    p.wraps.opens_iff p.plain, q.wraps.closes_iff q.plain]

/-- Parentheses make no difference to the terms, unless they are both at the front and at the end. -/
theorem terms_bars (h : ¬ Clash ps) : terms (bars (ps.map text)) = terms (bars (ps.map term)) := by
  rcases ps with - | ⟨p, ps⟩
  · rfl
  rcases List.eq_nil_or_concat' ps with rfl | ⟨mid, q, rfl⟩
  · apply terms_congr
    simpa [bars] using p.wraps.stripParens
  have hbar : ∀ u ∈ (p :: (mid ++ [q])).map text, '|' ∉ u := by
    intro u hu
    obtain ⟨p, -, rfl⟩ := List.mem_map.mp hu
    exact p.not_mem_bar
  have hplain : ∀ u ∈ (p :: (mid ++ [q])).map term, Plain u := by
    intro u hu
    obtain ⟨p, -, rfl⟩ := List.mem_map.mp hu
    exact p.plain
  have hnone : inside? (trim (bars ((p :: (mid ++ [q])).map text))) = none := by
    by_contra hsome
    obtain ⟨hp, hq⟩ := inside?_bars_iff.mp hsome
    exact h ⟨p, mid, q, rfl, hp, hq⟩
  rw [SemanticExpr.terms_bars (by simp) hbar hnone, terms_bars_of_plain (by simp) hplain,
    List.map_map, List.map_map]
  refine List.map_congr_left fun p _ => ?_
  exact p.wraps.stripParens.trans (stripParens_of_plain p.plain)

/-- The parentheses at both ends are taken for one pair, and what is left of the first term has one
that closes too much. -/
theorem read_of_clash (h : Clash ps) : ∃ e, read (bars (ps.map text)) = .error e := by
  obtain ⟨p, mid, q, rfl, hp, hq⟩ := h
  obtain ⟨t, ht⟩ := Option.ne_none_iff_exists'.mp (inside?_bars_iff.mpr ⟨hp, hq⟩)
  have hover : Overclosed t := by
    rw [List.map_cons, bars_cons (by simp), trim_append_stop (by decide)] at ht
    obtain ⟨rest, front, hrest, -, rfl⟩ := inside?_bar_iff.mp ht
    have hmem : '|' ∉ trimStart p.text :=
      fun hmem => p.not_mem_bar ((List.dropWhile_suffix isBlank).subset hmem)
    have hcount := p.wraps.count_eq p.plain
    rw [← count_trimStart (by decide), ← count_trimStart (c := ')') (by decide), hrest] at hcount
    rw [hrest] at hmem
    refine ⟨rest, front, rfl, fun hbar => hmem (List.mem_cons_of_mem _ hbar), ?_⟩
    simp at hcount
    omega
  obtain ⟨e, he⟩ := hover.read
  exact ⟨e, by rw [read, terms_of_some ht, ← read, he]⟩

end WrappedTerm

/-- An expression means what it means without parentheses, unless they clash; then it is refused. -/
theorem parse_wrapped {ps : List WrappedTerm} {n : Nat} {s : List Char}
    (hs : Wraps (bars (ps.map WrappedTerm.text)) n s) :
    (¬ WrappedTerm.Clash ps →
      parse (.ofList s) = parse (.ofList (bars (ps.map WrappedTerm.term)))) ∧
    (WrappedTerm.Clash ps → ∃ e, parse (.ofList s) = .error e) := by
  have hterms : terms s = terms (bars (ps.map WrappedTerm.text)) := terms_congr hs.stripParens
  simp only [parse, String.toList_ofList, read, hterms]
  constructor
  · intro h
    rw [WrappedTerm.terms_bars h]
  · exact WrappedTerm.read_of_clash

theorem parse_wrapped_structured :
    Wraps "(LITERAL_STRUCTURED)|Structured::MAPPING".toList 1
        "((LITERAL_STRUCTURED)|Structured::MAPPING )".toList ∧
      parse "((LITERAL_STRUCTURED)|Structured::MAPPING )" =
        parse "LITERAL_STRUCTURED|Structured::MAPPING" := by
  let base : WrappedTerm :=
    (WrappedTerm.ofTerm "LITERAL_STRUCTURED".toList (by decide +kernel)).enclose
  let value : WrappedTerm := WrappedTerm.ofTerm "Structured::MAPPING".toList (by decide +kernel)
  have hwraps : Wraps (bars ([base, value].map WrappedTerm.text)) 1
      "((LITERAL_STRUCTURED)|Structured::MAPPING )".toList :=
    .pair (v := []) (w := []) allBlank_nil
      (.blanks (v := []) (w := [' ']) allBlank_nil (by decide)) allBlank_nil
  have hclash : ¬ WrappedTerm.Clash [base, value] := by
    rintro ⟨p, mid, q, hps, -, hq⟩
    have hlast : value = q := by
      simpa [List.getLast?_cons] using congrArg List.getLast? hps
    exact hq (hlast ▸ rfl)
  exact ⟨hwraps, (parse_wrapped hwraps).1 hclash⟩

/-- Each of two terms in parentheses: the first one is left with a parenthesis that closes. -/
theorem parse_both_wrapped :
    parse "LITERAL_STRUCTURED|Structured::MAPPING" = .ok ⟨.literal, 3, 2⟩ ∧
      parse "(LITERAL_STRUCTURED)|(Structured::MAPPING)" =
        .error (.unknownType "LITERAL_STRUCTURED)") := by
  decide +kernel

end NodeAtlas.SemanticExpr
