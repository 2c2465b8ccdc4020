import NodeAtlas.Proofs.Semantic.Terms

/-!
Stripping of parentheses, and the terms of an expression: what stands between the bars, unless the
first term opens and the last one closes a parenthesis.
-/

namespace NodeAtlas.SemanticExpr

open Text

/-! ## Stripping -/

theorem inside?_eq_some_iff {s t : List Char} : inside? s = some t ↔ s = '(' :: (t ++ [')']) := by
  constructor
  · intro h
    unfold inside? at h
    split at h
    · next rest =>
      split at h
      · next front hrest =>
        cases h
        rw [← List.reverse_cons, ← hrest, List.reverse_reverse]
      · cases h
    · cases h
  · rintro rfl
    simp [inside?]

theorem stripParens_of_some {s t : List Char} (h : inside? (trim s) = some t) :
    stripParens s = stripParens t := by
  rw [stripParens]
  split
  · next t' ht' => rw [Option.some.inj (ht'.symm.trans h)]
  · next hnone =>
    rw [hnone] at h
    cases h

theorem stripParens_of_none {s : List Char} (h : inside? (trim s) = none) :
    stripParens s = trim s := by
  rw [stripParens]
  split
  · next t ht =>
    rw [ht] at h
    cases h
  · rfl

theorem inside?_stripParens (s : List Char) : inside? (stripParens s) = none := by
  fun_induction stripParens s with
  | case1 s t h ih => exact ih
  | case2 s h => exact h

theorem trimmed_stripParens (s : List Char) : Trimmed (stripParens s) := by
  fun_induction stripParens s with
  | case1 s t h ih => exact ih
  | case2 s h => exact trimmed_trim s

theorem stripParens_idem (s : List Char) : stripParens (stripParens s) = stripParens s := by
  have htrim := trim_of_trimmed (trimmed_stripParens s)
  rw [stripParens_of_none, htrim]
  rw [htrim]
  exact inside?_stripParens s

theorem stripParens_subset (s : List Char) : stripParens s ⊆ s := by
  fun_induction stripParens s with
  | case1 s t h ih =>
    have hinside : t ⊆ trim s := by
      rw [inside?_eq_some_iff.mp h]
      intro c hc
      simp [hc]
    exact List.Subset.trans (List.Subset.trans ih hinside) (infix_trim s).subset
  | case2 s h => exact (infix_trim s).subset

/-- Only the trimmed text matters. -/
theorem stripParens_congr {s t : List Char} (h : trim s = trim t) :
    stripParens s = stripParens t := by
  cases ht : inside? (trim t) with
  | some u => rw [stripParens_of_some ht, stripParens_of_some (h ▸ ht)]
  | none => rw [stripParens_of_none ht, stripParens_of_none (h ▸ ht), h]

theorem stripParens_blanks {v s w : List Char} (hv : AllBlank v) (hw : AllBlank w) :
    stripParens (v ++ (s ++ w)) = stripParens s :=
  stripParens_congr (trim_blanks hv hw)

theorem isBlank_getLast?_closed (front : List Char) :
    ∀ c ∈ (front ++ [')']).getLast?, isBlank c = false := by
  rw [List.getLast?_concat]
  simp [show isBlank ')' = false by decide]

theorem stripParens_enclosed (s : List Char) :
    stripParens ('(' :: (s ++ [')'])) = stripParens s := by
  have htrimmed : Trimmed ('(' :: (s ++ [')'])) := by
    constructor
    · simp [show isBlank '(' = false by decide]
    · rw [← List.cons_append]
      exact isBlank_getLast?_closed _
  apply stripParens_of_some
  rw [trim_of_trimmed htrimmed, inside?_eq_some_iff]

theorem inside?_of_plain {s : List Char} (h : Plain s) : inside? s = none := by
  by_contra hsome
  obtain ⟨t, ht⟩ := Option.ne_none_iff_exists'.mp hsome
  have hmark := h '(' (inside?_eq_some_iff.mp ht ▸ List.mem_cons_self)
  revert hmark
  decide

theorem plain_trim {s : List Char} (h : Plain s) : Plain (trim s) := by
  obtain ⟨v, w, -, -, hs⟩ := exists_trim s
  rw [hs] at h
  exact (plain_append.mp (plain_append.mp h).2).1

theorem plain_blanks {v s w : List Char} (hv : AllBlank v) (hs : Plain s) (hw : AllBlank w) :
    Plain (v ++ (s ++ w)) :=
  plain_append.mpr ⟨plain_of_allBlank hv, plain_append.mpr ⟨hs, plain_of_allBlank hw⟩⟩

theorem stripParens_of_plain {s : List Char} (h : Plain s) : stripParens s = trim s :=
  stripParens_of_none (inside?_of_plain (plain_trim h))

/-! ## Bars -/

/-- Texts with bars between them. -/
def bars (ps : List (List Char)) : List Char := ['|'].intercalate ps

theorem bars_cons {ps : List (List Char)} (h : ps ≠ []) (p : List Char) :
    bars (p :: ps) = p ++ '|' :: bars ps := by
  obtain ⟨q, ps, rfl⟩ := List.exists_cons_of_ne_nil h
  rw [bars, List.intercalate_cons_cons, List.append_assoc]
  rfl

theorem bars_concat {ps : List (List Char)} (h : ps ≠ []) (p : List Char) :
    bars (ps ++ [p]) = bars ps ++ '|' :: p := by
  induction ps with
  | nil => exact absurd rfl h
  | cons q ps ih =>
    by_cases hnil : ps = []
    · simp [hnil, bars]
    · rw [List.cons_append, bars_cons (by simp), ih hnil, bars_cons hnil, List.append_assoc,
        List.cons_append]

theorem splitOn_bars {ps : List (List Char)} (hne : ps ≠ []) (h : ∀ p ∈ ps, '|' ∉ p) :
    (bars ps).splitOn '|' = ps :=
  List.splitOn_intercalate '|' h hne

theorem bars_splitOn (s : List Char) : bars (s.splitOn '|') = s := List.intercalate_splitOn '|'

theorem append_bars (v p : List Char) (ps : List (List Char)) :
    v ++ bars (p :: ps) = bars ((v ++ p) :: ps) := by
  by_cases hnil : ps = []
  · simp [hnil, bars]
  · rw [bars_cons hnil, bars_cons hnil, List.append_assoc]

theorem bars_append (ps : List (List Char)) (p w : List Char) :
    bars (ps ++ [p]) ++ w = bars (ps ++ [p ++ w]) := by
  by_cases hnil : ps = []
  · simp [hnil, bars]
  · rw [bars_concat hnil, bars_concat hnil, List.append_assoc, List.cons_append]

/-! ## Terms -/

/-- Blanks in front of the first piece are stripped with the piece. -/
theorem map_stripParens_blanks_append {v : List Char} (hv : AllBlank v) (s : List Char) :
    ((v ++ s).splitOn '|').map stripParens = (s.splitOn '|').map stripParens := by
  obtain ⟨p, ps, hs⟩ := List.exists_cons_of_ne_nil (List.splitOn_ne_nil '|' s)
  have hbar : ∀ q ∈ (v ++ p) :: ps, '|' ∉ q := by
    intro q hq
    rcases List.mem_cons.mp hq with rfl | hq
    · rw [List.mem_append, not_or]
      exact ⟨fun hmem => absurd (hv '|' hmem) (by decide),
        not_mem_of_mem_splitOn (hs ▸ List.mem_cons_self)⟩
    · exact not_mem_of_mem_splitOn (hs ▸ List.mem_cons_of_mem p hq)
  have hp : stripParens (v ++ p) = stripParens p := by
    simpa using stripParens_blanks (w := []) hv allBlank_nil
  have hpieces : (v ++ s).splitOn '|' = (v ++ p) :: ps := by
    rw [← splitOn_bars (by simp) hbar, ← append_bars, ← hs, bars_splitOn]
  rw [hpieces, hs, List.map_cons, List.map_cons, hp]

theorem map_stripParens_append_blanks {w : List Char} (hw : AllBlank w) (s : List Char) :
    ((s ++ w).splitOn '|').map stripParens = (s.splitOn '|').map stripParens := by
  obtain ⟨ps, p, hs⟩ := (List.eq_nil_or_concat' _).resolve_left
    (List.splitOn_ne_nil '|' s)
  have hbar : ∀ q ∈ ps ++ [p ++ w], '|' ∉ q := by
    intro q hq
    rcases List.mem_append.mp hq with hq | hq
    · exact not_mem_of_mem_splitOn (hs ▸ List.mem_append_left _ hq)
    · rw [List.mem_singleton.mp hq, List.mem_append, not_or]
      exact ⟨not_mem_of_mem_splitOn (hs ▸ List.mem_append_right _ (List.mem_singleton_self p)),
        fun hmem => absurd (hw '|' hmem) (by decide)⟩
  have hp : stripParens (p ++ w) = stripParens p :=
    stripParens_blanks (v := []) allBlank_nil hw
  have hpieces : (s ++ w).splitOn '|' = ps ++ [p ++ w] := by
    rw [← splitOn_bars (by simp) hbar, ← bars_append, ← hs, bars_splitOn]
  rw [hpieces, hs, List.map_append, List.map_append, List.map_singleton, List.map_singleton, hp]

theorem map_stripParens_trim (s : List Char) :
    ((trim s).splitOn '|').map stripParens = (s.splitOn '|').map stripParens := by
  obtain ⟨v, w, hv, hw, hs⟩ := exists_trim s
  conv_rhs => rw [hs]
  rw [map_stripParens_blanks_append hv, map_stripParens_append_blanks hw]

/-- Where no parenthesis encloses the expression, its pieces are stripped as they stand. -/
theorem terms_of_none {s : List Char} (h : inside? (trim s) = none) :
    terms s = (s.splitOn '|').map stripParens := by
  rw [terms, stripParens_of_none h, map_stripParens_trim]

theorem terms_congr {s t : List Char} (h : stripParens s = stripParens t) : terms s = terms t := by
  rw [terms, h, terms]

theorem terms_of_some {s t : List Char} (h : inside? (trim s) = some t) : terms s = terms t :=
  terms_congr (stripParens_of_some h)

theorem terms_bars {ps : List (List Char)} (hne : ps ≠ []) (hbar : ∀ p ∈ ps, '|' ∉ p)
    (h : inside? (trim (bars ps)) = none) : terms (bars ps) = ps.map stripParens := by
  rw [terms_of_none h, splitOn_bars hne hbar]

/-! ## Where parentheses enclose several terms -/

/-- The first character that is no blank opens a parenthesis. -/
def Opens (s : List Char) : Prop := ∃ rest, trimStart s = '(' :: rest

/-- The last character that is no blank closes a parenthesis. -/
def Closes (s : List Char) : Prop := ∃ front, trimEnd s = front ++ [')']

theorem inside?_bar_iff {a b t : List Char} : inside? (a ++ '|' :: b) = some t ↔
    ∃ rest front, a = '(' :: rest ∧ b = front ++ [')'] ∧ t = rest ++ '|' :: front := by
  rw [inside?_eq_some_iff]
  constructor
  · intro h
    cases a with
    | nil => cases h
    | cons c rest =>
      rw [List.cons_append, List.cons.injEq] at h
      obtain ⟨rfl, htail⟩ := h
      rcases List.eq_nil_or_concat' b with rfl | ⟨front, d, rfl⟩
      · obtain ⟨-, hlast⟩ := List.append_inj' htail rfl
        cases hlast
      · rw [← List.cons_append, ← List.append_assoc] at htail
        obtain ⟨ht, hlast⟩ := List.append_inj' htail rfl
        exact ⟨rest, front, rfl, by rw [hlast], ht.symm⟩
  · rintro ⟨rest, front, rfl, rfl, rfl⟩
    simp

/-- Parentheses seem to enclose several terms when the first one opens and the last one closes. -/
theorem inside?_trim_bar_iff {a b : List Char} :
    inside? (trim (a ++ '|' :: b)) ≠ none ↔ Opens a ∧ Closes b := by
  rw [trim_append_stop (by decide), Option.ne_none_iff_exists']
  constructor
  · rintro ⟨t, ht⟩
    obtain ⟨rest, front, ha, hb, -⟩ := inside?_bar_iff.mp ht
    exact ⟨⟨rest, ha⟩, ⟨front, hb⟩⟩
  · rintro ⟨⟨rest, ha⟩, ⟨front, hb⟩⟩
    exact ⟨_, inside?_bar_iff.mpr ⟨rest, front, ha, hb, rfl⟩⟩

theorem Opens.mem {s : List Char} (h : Opens s) : '(' ∈ s := by
  obtain ⟨rest, hrest⟩ := h
  have hmem : '(' ∈ trimStart s := hrest ▸ List.mem_cons_self
  exact (List.dropWhile_suffix isBlank).subset hmem

theorem Closes.mem {s : List Char} (h : Closes s) : ')' ∈ s := by
  obtain ⟨front, hfront⟩ := h
  have hmem : ')' ∈ trimEnd s := hfront ▸ List.mem_append_right front (List.mem_singleton_self _)
  rw [trimEnd, List.mem_reverse] at hmem
  exact List.mem_reverse.mp ((List.dropWhile_suffix isBlank).subset hmem)

theorem Plain.not_opens {s : List Char} (h : Plain s) : ¬ Opens s :=
  fun hopen => absurd (h '(' hopen.mem) (by decide)

theorem Plain.not_closes {s : List Char} (h : Plain s) : ¬ Closes s :=
  fun hclose => absurd (h ')' hclose.mem) (by decide)

theorem opens_closes_of_inside? {s t : List Char} (h : inside? (trim s) = some t) :
    Opens s ∧ Closes s := by
  obtain ⟨v, w, hv, hw, hs⟩ := exists_trim s
  have htrimmed := trimmed_trim s
  rw [inside?_eq_some_iff.mp h] at hs htrimmed
  constructor
  · refine ⟨t ++ [')'] ++ w, ?_⟩
    rw [hs, trimStart_append hv (by simpa using htrimmed.1)]
    rfl
  · refine ⟨v ++ '(' :: t, ?_⟩
    have happ : s = (v ++ '(' :: t ++ [')']) ++ w := by simp [hs]
    rw [happ, trimEnd_append hw (isBlank_getLast?_closed _)]

theorem closes_bars_iff {ps : List (List Char)} {q : List Char} :
    Closes (bars (ps ++ [q])) ↔ Closes q := by
  by_cases hnil : ps = []
  · simp [hnil, bars]
  · simp only [Closes, bars_concat hnil, trimEnd_append_stop (show isBlank '|' = false by decide),
      ← List.getLast?_eq_some_iff, List.getLast?_append, List.getLast?_cons]
    cases (trimEnd q).getLast? <;> simp

theorem inside?_trim_bars_iff {p q : List Char} {mid : List (List Char)} :
    inside? (trim (bars (p :: (mid ++ [q])))) ≠ none ↔ Opens p ∧ Closes q := by
  rw [bars_cons (by simp), inside?_trim_bar_iff, closes_bars_iff]

/-- Terms without parentheses are the pieces between the bars. -/
theorem terms_bars_of_plain {ts : List (List Char)} (hne : ts ≠ []) (h : ∀ t ∈ ts, Plain t) :
    terms (bars ts) = ts.map trim := by
  have hbar : ∀ t ∈ ts, '|' ∉ t := fun t ht hmem => absurd (h t ht '|' hmem) (by decide)
  have hnone : inside? (trim (bars ts)) = none := by
    obtain ⟨t, ts, rfl⟩ := List.exists_cons_of_ne_nil hne
    have ht := h t List.mem_cons_self
    by_cases hnil : ts = []
    · rw [hnil, bars, List.intercalate_singleton]
      exact inside?_of_plain (plain_trim ht)
    · rw [bars_cons hnil]
      by_contra hsome
      exact ht.not_opens (inside?_trim_bar_iff.mp hsome).1
  rw [terms_bars hne hbar hnone]
  exact List.map_congr_left fun t ht => stripParens_of_plain (h t ht)

end NodeAtlas.SemanticExpr
