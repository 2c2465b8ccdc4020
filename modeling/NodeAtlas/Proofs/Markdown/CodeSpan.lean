import NodeAtlas.Proofs.Markdown.TableLine

/-!
Code spans. A run of backticks opens one and the next run of the same length closes it, so a text
can stand between two fences only when none of its own runs is as long as they are. The fences that
node types get do not depend on how long their runs are.
-/

namespace NodeAtlas.Markdown

/-! ## Runs of backticks -/

def ticks (n : Nat) : List Char := List.replicate n '\x60'

/-- The lengths of the longest runs of backticks, those that no further backtick stands next to, in
the order in which they come. -/
def tickRuns (s : List Char) : List Nat :=
  ((s.splitOnP (· ≠ '\x60')).map List.length).filter (0 < ·)

theorem ticks_append_cons (n : Nat) (s : List Char) :
    ticks n ++ '\x60' :: s = ticks (n + 1) ++ s := by
  simp [ticks, List.replicate_succ']

theorem tickRuns_append_cons {c : Char} (hc : c ≠ '\x60') (s t : List Char) :
    tickRuns (s ++ c :: t) = tickRuns s ++ tickRuns t := by
  simp [tickRuns, List.splitOnP_append_cons, hc]

theorem tickRuns_cons {c : Char} (hc : c ≠ '\x60') (s : List Char) :
    tickRuns (c :: s) = tickRuns s :=
  tickRuns_append_cons hc [] s

theorem eq_of_mem_tickRuns_ticks {n k : Nat} (h : n ∈ tickRuns (ticks k)) : n = k := by
  have hsplit : (ticks k).splitOnP (· ≠ '\x60') = [ticks k] :=
    List.splitOnP_eq_singleton fun c hc => by simp [List.eq_of_mem_replicate hc]
  rw [tickRuns, hsplit] at h
  simpa [ticks] using (List.mem_filter.mp h).1

theorem tickRuns_eq_nil {s : List Char} (h : '\x60' ∉ s) : tickRuns s = [] := by
  induction s with
  | nil => rfl
  | cons c s ih =>
    rw [List.mem_cons, not_or] at h
    rw [tickRuns_cons (Ne.symm h.1), ih h.2]

/-- A run stands in a text when it has a first place there. The backticks that were just read are in
front, so that the induction is on what is behind them. -/
theorem first_run {n : Nat} (s : List Char) (m : Nat) (h : n ∈ tickRuns (ticks m ++ s)) :
    ∃ front rest, ticks m ++ s = front ++ ticks n ++ rest ∧ front.getLast? ≠ some '\x60' ∧
      rest.head? ≠ some '\x60' ∧ n ∉ tickRuns front := by
  induction s generalizing m with
  | nil =>
    rw [List.append_nil] at h
    obtain rfl := eq_of_mem_tickRuns_ticks h
    exact ⟨[], [], by simp, by simp, by simp, by simp [tickRuns]⟩
  | cons c s ih =>
    by_cases hc : c = '\x60'
    · subst hc
      rw [ticks_append_cons] at h ⊢
      exact ih (m + 1) h
    by_cases hn : n ∈ tickRuns (ticks m)
    · obtain rfl := eq_of_mem_tickRuns_ticks hn
      exact ⟨[], c :: s, by simp, by simp, by simpa using hc, by simp [tickRuns]⟩
    · rw [tickRuns_append_cons hc, List.mem_append, or_iff_right hn] at h
      obtain ⟨front, rest, hs, hfront, hrest, hfirst⟩ := ih 0 h
      refine ⟨ticks m ++ c :: front, rest, ?_, ?_, hrest, ?_⟩
      · have hs' : s = front ++ ticks n ++ rest := hs
        simp [hs']
      · rw [List.getLast?_append_cons, List.getLast?_cons]
        cases hlast : front.getLast? with
        | none => simpa using hc
        | some d => simpa [hlast] using hfront
      · simp [tickRuns_append_cons hc, hn, hfirst]

/-- Escapes do not touch runs. -/
theorem tickRuns_ticks_escapeCell (s : List Char) (m : Nat) :
    tickRuns (ticks m ++ escapeCell s) = tickRuns (ticks m ++ s) := by
  induction s generalizing m with
  | nil => rfl
  | cons c s ih =>
    have hrest : tickRuns (escapeCell s) = tickRuns s := ih 0
    rw [escapeCell]
    split
    · next hbar =>
      subst hbar
      rw [tickRuns_append_cons (by decide), tickRuns_cons (by decide),
        tickRuns_append_cons (by decide), hrest]
    · split
      · next hfeed =>
        subst hfeed
        rw [tickRuns_append_cons (by decide), tickRuns_append_cons (by decide), hrest]
      · by_cases hc : c = '\x60'
        · subst hc
          rw [ticks_append_cons, ticks_append_cons, ih]
        · rw [tickRuns_append_cons hc, tickRuns_append_cons hc, hrest]

theorem tickRuns_escapeCell (s : List Char) : tickRuns (escapeCell s) = tickRuns s :=
  tickRuns_ticks_escapeCell s 0

theorem tick_mem_escapeCell_iff (s : List Char) : '\x60' ∈ escapeCell s ↔ '\x60' ∈ s :=
  mem_escapeCell_iff (by decide) (by decide) (by decide) s

theorem tick_not_mem_escapeCell_singleton {c : Char} (h : c ≠ '\x60') : '\x60' ∉ escapeCell [c] := by
  rwa [tick_mem_escapeCell_iff, List.mem_singleton, eq_comm]

theorem head?_escapeCell_ne_tick {s : List Char} (h : s.head? ≠ some '\x60') :
    (escapeCell s).head? ≠ some '\x60' := by
  cases s with
  | nil => exact h
  | cons c s =>
    have hc : c ≠ '\x60' := by simpa using h
    rw [← List.singleton_append, escapeCell_append,
      List.head?_append_of_ne_nil _ (escapeCell_ne_nil (List.cons_ne_nil c []))]
    exact fun hmem => tick_not_mem_escapeCell_singleton hc (List.mem_of_mem_head? hmem)

theorem getLast?_escapeCell_ne_tick {s : List Char} (h : s.getLast? ≠ some '\x60') :
    (escapeCell s).getLast? ≠ some '\x60' := by
  rcases List.eq_nil_or_concat s with rfl | ⟨front, c, rfl⟩
  · exact h
  · have hc : c ≠ '\x60' := by simpa using h
    rw [List.concat_eq_append, escapeCell_append,
      List.getLast?_append_of_ne_nil _ (escapeCell_ne_nil (List.cons_ne_nil c []))]
    exact fun hmem => tick_not_mem_escapeCell_singleton hc (List.mem_of_getLast? hmem)

/-! ## Spans -/

/-- A text that begins with a code span: a run of `n` backticks, a content in which no run is as
long, one more run of `n`, and a rest. -/
structure OpensSpan (n : Nat) (content rest s : List Char) : Prop where
  eq : s = ticks n ++ content ++ ticks n ++ rest
  pos : 0 < n
  ne_nil : content ≠ []
  head : content.head? ≠ some '\x60'
  last : content.getLast? ≠ some '\x60'
  no_run : n ∉ tickRuns content
  behind : rest.head? ≠ some '\x60'

/-- How many backticks set a node type off. -/
def fenceLength (raw : List Char) : Nat := if '\x60' ∈ raw then 2 else 1

/-- What stands between the fences. -/
def spanContent (raw : List Char) : List Char :=
  if '\x60' ∈ raw then ' ' :: (escapeCell raw ++ [' ']) else escapeCell raw

theorem codeSpan_eq (raw : String) :
    (codeSpan raw).toList = ticks (fenceLength raw.toList) ++ spanContent raw.toList ++
      ticks (fenceLength raw.toList) := by
  by_cases htick : '\x60' ∈ raw.toList
  · simp [codeSpan, cell, fenceLength, spanContent, htick, ticks, List.replicate]
  · simp [codeSpan, cell, fenceLength, spanContent, htick, ticks]

theorem tickRuns_spanContent (raw : List Char) : tickRuns (spanContent raw) = tickRuns raw := by
  rw [spanContent]
  split
  · rw [tickRuns_cons (by decide), tickRuns_append_cons (by decide), tickRuns_escapeCell]
    exact List.append_nil _
  · exact tickRuns_escapeCell raw

theorem spanContent_ends (raw : List Char) :
    (spanContent raw).head? ≠ some '\x60' ∧ (spanContent raw).getLast? ≠ some '\x60' := by
  by_cases htick : '\x60' ∈ raw
  · rw [spanContent, if_pos htick, ← List.cons_append, List.getLast?_concat]
    exact ⟨by simp, by simp⟩
  · have hescaped : '\x60' ∉ escapeCell raw := by rwa [tick_mem_escapeCell_iff]
    rw [spanContent, if_neg htick]
    exact ⟨fun h => hescaped (List.mem_of_mem_head? h),
      fun h => hescaped (List.mem_of_getLast? h)⟩

theorem spanContent_ne_nil {raw : List Char} (h : raw ≠ []) : spanContent raw ≠ [] := by
  rw [spanContent]
  split
  · exact List.cons_ne_nil _ _
  · exact escapeCell_ne_nil h

/-- The fences hold a node type off when it has no run of their length. -/
theorem fenceLength_not_mem_iff (raw : List Char) :
    fenceLength raw ∉ tickRuns raw ↔ 2 ∉ tickRuns raw := by
  by_cases htick : '\x60' ∈ raw
  · rw [fenceLength, if_pos htick]
  · simp [tickRuns_eq_nil htick]

/-- What is between the longest runs of two fences is the same as what is between the fences. -/
theorem ticks_append_inj {n k : Nat} {s t : List Char} (hs : s.head? ≠ some '\x60')
    (ht : t.head? ≠ some '\x60') (h : ticks n ++ s = ticks k ++ t) : n = k ∧ s = t := by
  have hrun : ∀ (n : Nat) {s : List Char}, s.head? ≠ some '\x60' →
      (ticks n ++ s).takeWhile (· = '\x60') = ticks n := by
    intro n s hs
    refine Text.takeWhile_append_stop (fun c hc => ?_) fun c hc => ?_
    · simp [List.eq_of_mem_replicate hc]
    · exact decide_eq_false fun hc' => hs (hc' ▸ hc)
  have hlength : n = k := by
    have hticks : ticks n = ticks k := by rw [← hrun n hs, h, hrun k ht]
    simpa [ticks] using congrArg List.length hticks
  subst hlength
  exact ⟨rfl, List.append_cancel_left h⟩

/-- An empty node type gives nothing but backticks, so there is no span. -/
theorem ne_nil_of_opensSpan {raw : String} {n : Nat} {content : List Char}
    (h : OpensSpan n content [] (codeSpan raw).toList) : raw.toList ≠ [] := by
  intro hnil
  have heq := h.eq
  rw [codeSpan_eq, List.append_nil] at heq
  have hmem : content.head h.ne_nil ∈ ticks n ++ content ++ ticks n := by simp
  rw [← heq, hnil] at hmem
  have htick : content.head h.ne_nil = '\x60' := by
    simpa [fenceLength, spanContent, escapeCell, ticks] using hmem
  exact h.head (by rw [List.head?_eq_some_head h.ne_nil, htick])

/-- As a whole, what a node type becomes has no other reading as a code span than the one that it is
made for, and it has that one unless the node type is empty or has a run of two backticks. -/
theorem opensSpan_codeSpan_iff (raw : String) (n : Nat) (content : List Char) :
    OpensSpan n content [] (codeSpan raw).toList ↔
      n = fenceLength raw.toList ∧ content = spanContent raw.toList ∧ raw.toList ≠ [] ∧
        2 ∉ tickRuns raw.toList := by
  obtain ⟨hhead, hlast⟩ := spanContent_ends raw.toList
  constructor
  · intro h
    have heq := h.eq
    rw [codeSpan_eq, List.append_nil, List.append_assoc, List.append_assoc] at heq
    have hraw := ne_nil_of_opensSpan h
    have hne := spanContent_ne_nil hraw
    obtain ⟨hn, hcontent⟩ := ticks_append_inj (by rwa [List.head?_append_of_ne_nil _ hne])
      (by rw [List.head?_append_of_ne_nil _ h.ne_nil]; exact h.head) heq
    rw [hn] at hcontent
    have hcontent' := List.append_cancel_right hcontent
    refine ⟨hn.symm, hcontent'.symm, hraw, ?_⟩
    rw [← fenceLength_not_mem_iff, hn, ← tickRuns_spanContent, hcontent']
    exact h.no_run
  · rintro ⟨rfl, rfl, hraw, hrun⟩
    refine ⟨?_, ?_, spanContent_ne_nil hraw, hhead, hlast, ?_, by simp⟩
    · rw [codeSpan_eq, List.append_nil]
    · rw [fenceLength]
      split <;> decide
    · rwa [tickRuns_spanContent, fenceLength_not_mem_iff]

/-- A node type with a run of two backticks is cut off there: the span that its text opens holds only
what stands in front of the first such run. -/
theorem opensSpan_of_run {raw : String} (h : 2 ∈ tickRuns raw.toList) :
    ∃ front rest, raw.toList = front ++ ticks 2 ++ rest ∧
      OpensSpan 2 (' ' :: escapeCell front) (escapeCell rest ++ ' ' :: ticks 2)
        (codeSpan raw).toList := by
  obtain ⟨front, rest, hraw, hfront, hrest, hfirst⟩ := first_run raw.toList 0 h
  replace hraw : raw.toList = front ++ ticks 2 ++ rest := hraw
  have htick : '\x60' ∈ raw.toList := by simp [hraw, ticks]
  refine ⟨front, rest, hraw, ?_, Nat.zero_lt_two, List.cons_ne_nil _ _, by simp, ?_, ?_, ?_⟩
  · rw [codeSpan_eq, fenceLength, if_pos htick, spanContent, if_pos htick, hraw, escapeCell_append,
      escapeCell_append]
    simp [ticks, escapeCell]
  · rw [List.getLast?_cons]
    cases hlast : (escapeCell front).getLast? with
    | none => simp
    | some d => simpa [hlast] using getLast?_escapeCell_ne_tick hfront
  · rwa [tickRuns_cons (by decide), tickRuns_escapeCell]
  · rw [List.head?_append]
    cases hhead : (escapeCell rest).head? with
    | none => simp
    | some d => simpa [hhead] using head?_escapeCell_ne_tick hrest

/-- What a node type becomes is its content between two fences of the same length, where the content
has the runs of the node type. It is a code span, and this one only, unless the node type is empty or
has a run of two backticks; with such a run, the span ends at the first. -/
theorem codeSpan_reads (raw : String) :
    let fence := ticks (fenceLength raw.toList)
    let content := spanContent raw.toList
    (codeSpan raw).toList = fence ++ content ++ fence ∧
      tickRuns content = tickRuns raw.toList ∧
      (∀ n inner, OpensSpan n inner [] (codeSpan raw).toList ↔
        n = fenceLength raw.toList ∧ inner = content ∧ raw.toList ≠ [] ∧
          2 ∉ tickRuns raw.toList) ∧
      (2 ∈ tickRuns raw.toList → ∃ front rest, raw.toList = front ++ ticks 2 ++ rest ∧
        OpensSpan 2 (' ' :: escapeCell front) (escapeCell rest ++ ' ' :: ticks 2)
          (codeSpan raw).toList) :=
  ⟨codeSpan_eq raw, tickRuns_spanContent raw.toList, opensSpan_codeSpan_iff raw,
    opensSpan_of_run⟩

/-- Two backticks as a node type: their fences have the same length, and the whole is no code span. -/
theorem codeSpan_ticks_open :
    ¬ ∃ n content, OpensSpan n content [] (codeSpan "\x60\x60").toList := by
  rintro ⟨n, content, h⟩
  have hrun : 2 ∈ tickRuns "\x60\x60".toList := by decide
  exact ((opensSpan_codeSpan_iff _ n content).mp h).2.2.2 hrun

end NodeAtlas.Markdown
