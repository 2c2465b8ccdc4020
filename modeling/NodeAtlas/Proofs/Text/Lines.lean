import NodeAtlas.Proofs.Text.Trim

/-!
Texts that are put together from ended lines. A line feed separates what stands before it from what
follows, so such a text has the lines that it was put together from.
-/

namespace NodeAtlas.Text

/-- The characters of a text that is put together are those of its parts and of what separates them. -/
theorem mem_intercalate {sep : List Char} {parts : List (List Char)} {c : Char}
    (h : c ∈ sep.intercalate parts) : c ∈ sep ∨ ∃ part ∈ parts, c ∈ part := by
  induction parts with
  | nil => exact absurd h (by simp)
  | cons a parts ih =>
    cases parts with
    | nil => exact .inr ⟨a, List.mem_cons_self, by simpa using h⟩
    | cons b parts =>
      rw [List.intercalate_cons_cons, List.append_assoc, List.mem_append, List.mem_append] at h
      rcases h with ha | hsep | hmore
      · exact .inr ⟨a, List.mem_cons_self, ha⟩
      · exact .inl hsep
      · obtain hsep | ⟨part, hpart, hc⟩ := ih hmore
        · exact .inl hsep
        · exact .inr ⟨part, List.mem_cons_of_mem a hpart, hc⟩

theorem infix_intercalate {sep arg : List Char} {args : List (List Char)} (h : arg ∈ args) :
    arg <:+: sep.intercalate args := by
  obtain ⟨front, rest, rfl⟩ := List.append_of_mem h
  induction front with
  | nil =>
    cases rest with
    | nil => simp
    | cons b rest =>
      rw [List.nil_append, List.intercalate_cons_cons, List.append_assoc]
      exact (List.prefix_append arg _).isInfix
  | cons a front ih =>
    obtain ⟨b, more, hmore⟩ := List.exists_cons_of_ne_nil (l := front ++ arg :: rest) (by simp)
    rw [List.cons_append, hmore, List.intercalate_cons_cons, ← hmore]
    exact (ih (by simp)).trans (List.suffix_append _ _).isInfix

theorem subset_of_mem_lines {s l : List Char} (h : l ∈ lines s) : l ⊆ s := by
  fun_induction lines s generalizing l with
  | case1 => exact absurd h List.not_mem_nil
  | case2 rest ih =>
    rcases List.mem_cons.mp h with rfl | hrest
    · exact List.nil_subset _
    · exact List.subset_cons_of_subset _ (ih hrest)
  | case3 rest ih =>
    rcases List.mem_cons.mp h with rfl | hrest
    · exact List.nil_subset _
    · exact List.subset_cons_of_subset _ (List.subset_cons_of_subset _ (ih hrest))
  | case4 c rest hfeed hreturn hnil ih =>
    rw [List.mem_singleton.mp h]
    exact List.cons_subset_cons c (List.nil_subset _)
  | case5 c rest hfeed hreturn line more hlines ih =>
    rw [hlines] at ih
    rcases List.mem_cons.mp h with rfl | hmore
    · exact List.cons_subset_cons c (ih List.mem_cons_self)
    · exact List.subset_cons_of_subset _ (ih (List.mem_cons_of_mem _ hmore))

/-- Lines, each with a line feed behind it. -/
def endLines (ls : List (List Char)) : List Char := ls.flatMap (· ++ ['\n'])

theorem endLines_cons (w : List Char) (ls : List (List Char)) :
    endLines (w :: ls) = w ++ '\n' :: endLines ls := by
  simp [endLines]

/-- Lines in front of others are ended. -/
theorem unlines_append (ls : List (List Char)) {rest : List (List Char)} (hne : rest ≠ []) :
    unlines (ls ++ rest) = endLines ls ++ unlines rest := by
  obtain ⟨b, more, rfl⟩ := List.exists_cons_of_ne_nil hne
  induction ls with
  | nil => rfl
  | cons w ls ih =>
    obtain ⟨c, front, hfront⟩ := List.exists_cons_of_ne_nil (l := ls ++ b :: more) (by simp)
    rw [List.cons_append, hfront, unlines_cons_cons, ← hfront, ih, endLines_cons, List.append_assoc,
      List.cons_append]

/-- Whole lines are found again, whatever follows them. -/
theorem lines_endLines_append {ls : List (List Char)} (h : ∀ w ∈ ls, IsLine w) (rest : List Char) :
    lines (endLines ls ++ rest) = ls ++ lines rest := by
  induction ls with
  | nil => rfl
  | cons w ls ih =>
    obtain ⟨hw, hls⟩ := List.forall_mem_cons.mp h
    rw [endLines_cons, List.append_assoc, List.cons_append, lines_append hw, ih hls,
      List.cons_append]

/-- Lines whose last one is empty end with a line feed. -/
theorem unlines_concat_nil {ls : List (List Char)} (hne : ls ≠ []) :
    unlines (ls ++ [[]]) = unlines ls ++ ['\n'] :=
  unlines_concat hne []

/-- A line feed ends its line whatever follows, and the text up to there has one line more than it has
line feeds. -/
theorem exists_lines_append (w : List Char) : ∃ ls : List (List Char),
    ls.length = w.count '\n' + 1 ∧ ∀ rest, lines (w ++ '\n' :: rest) = ls ++ lines rest := by
  by_cases hfeed : '\n' ∈ w
  · obtain ⟨a, b, rfl, ha⟩ := List.eq_append_cons_of_mem hfeed
    obtain ⟨ls, hlength, hls⟩ := exists_lines_append a
    obtain ⟨more, hmore, hrest⟩ := exists_lines_append b
    refine ⟨ls ++ more, ?_, fun rest => ?_⟩
    · rw [List.length_append, hlength, hmore, List.count_append, List.count_cons_self]
      omega
    · rw [List.append_assoc, List.cons_append, hls, hrest, List.append_assoc]
  · obtain ⟨line, e, heq, hend, hline⟩ := exists_endsLine w
    refine ⟨[line], by rw [List.count_eq_zero.mpr hfeed]; rfl, fun rest => ?_⟩
    rw [List.append_cons, heq, List.append_assoc]
    exact lines_append_end (fun hmem => hfeed (hline.subset hmem)) hend rest
termination_by w.length
decreasing_by all_goals subst_vars; simp; try omega

theorem lines_append_lineFeed (w rest : List Char) :
    lines (w ++ '\n' :: rest) = lines (w ++ ['\n']) ++ lines rest := by
  obtain ⟨ls, -, hls⟩ := exists_lines_append w
  rw [hls, hls, lines, List.append_nil]

theorem length_lines_ended (w : List Char) : (lines (w ++ ['\n'])).length = w.count '\n' + 1 := by
  obtain ⟨ls, hlength, hls⟩ := exists_lines_append w
  rw [hls, lines, List.append_nil, hlength]

/-- Texts that are ended one by one have the lines of each. -/
theorem lines_endLines (ws : List (List Char)) :
    lines (endLines ws) = ws.flatMap fun w => lines (w ++ ['\n']) := by
  induction ws with
  | nil => rfl
  | cons w ws ih => rw [endLines_cons, lines_append_lineFeed, ih, List.flatMap_cons]

/-- Lines make a trimmed text when the first has no blank in front and the last, which is not empty,
has none behind. -/
theorem trimmed_unlines {w : List Char} {ls : List (List Char)} (hne : w ≠ [])
    (hw : ∀ c ∈ w.head?, isBlank c = false)
    (hlast : ∀ l ∈ (w :: ls).getLast?, l ≠ [] ∧ ∀ c ∈ l.getLast?, isBlank c = false) :
    Trimmed (unlines (w :: ls)) := by
  refine ⟨by rwa [head?_unlines hne], ?_⟩
  rcases List.eq_nil_or_concat ls with rfl | ⟨front, l, rfl⟩
  · have hsingle : unlines [w] = w := by simp [unlines]
    rw [hsingle]
    exact (hlast w rfl).2
  · have hl := hlast l (by rw [List.concat_eq_append, ← List.cons_append, List.getLast?_concat]; rfl)
    rw [List.concat_eq_append, ← List.cons_append, unlines_concat (List.cons_ne_nil w front),
      List.getLast?_append_of_ne_nil _ (List.cons_ne_nil _ _), List.getLast?_cons]
    have hc := List.getLast?_eq_some_getLast hl.1
    rw [hc]
    intro d hd
    cases hd
    exact hl.2 _ hc

end NodeAtlas.Text
