import NodeAtlas.Proofs.Definition.GroupTag
import NodeAtlas.Proofs.Definition.Header

/-!
What the lines of a group header say: its name and title stand in the first of them, and its brief and
description up to the opening mark.
-/

namespace NodeAtlas.Definition.GroupSource

open Text

variable {g : GroupSource}

theorem lines_plainHeader (h : g.Valid) : Text.lines (unlines g.plainHeader) = g.plainHeader := by
  apply @lines_unlines ((g.tagText ++ g.title) :: g.inner) ['@', '\x7b'] _ (by simp) (by decide)
  intro w hw
  have hmem : w ∈ g.header.map trimEnd := by
    rw [map_trimEnd_header h]
    exact List.mem_append_left [['@', '\x7b']] hw
  obtain ⟨v, hv, rfl⟩ := List.mem_map.mp hmem
  exact isLine_trimEnd (isHeaderLine_header h v hv).line.1

/-! ## Tags -/

theorem dropStem?_file {w : List Char} (h : w.head? ≠ some '@' ∨ w[1]? ≠ some 'f') :
    dropStem? "@file".toList w = none := by
  rw [dropStem?_eq_none_iff]
  rintro ⟨rest, rfl⟩
  rcases h with h | h <;> exact h rfl

/-- A group header is no file block. -/
theorem isFileBlock_header (h : g.Valid) : Block.isFileBlock (unlines g.plainHeader) = false := by
  rw [Block.isFileBlock, lines_plainHeader h, List.any_eq_false]
  intro w hw
  have hnone : dropStem? "@file".toList w = none := by
    apply dropStem?_file
    rw [plainHeader, List.mem_cons, List.mem_append, List.mem_singleton, inner, List.mem_append,
      Option.mem_toList] at hw
    rcases hw with rfl | (hbrief | hdescription) | rfl
    · rw [tagText_eq]
      exact .inr (by simp)
    · obtain ⟨b, hb, rfl⟩ := Option.map_eq_some_iff.mp hbrief
      obtain ⟨c, hc, -, -⟩ := briefLine_eq (h.brief b hb).1.trimmed
      rw [hc]
      right
      intro hsecond
      cases hsecond
    · exact .inl (h.description w hdescription).2.2.1
    · exact .inr (by simp)
  rw [hnone]
  exact Bool.false_ne_true

theorem tagText_append (g : GroupSource) (s : List Char) :
    g.tagText ++ s = "@defgroup".toList ++ ' ' :: (g.name ++ ' ' :: s) := by
  have htag : "@defgroup".toList = ['@', 'd', 'e', 'f', 'g', 'r', 'o', 'u', 'p'] := rfl
  rw [tagText_eq, htag]
  simp

theorem groupTag?_header (h : g.Valid) (more : List Char) :
    Block.groupTag? (g.tagText ++ g.title ++ '\n' :: more) = some (g.name, g.title) := by
  have htag := @Block.groupTag?_append [' '] g.name (' ' :: (g.title ++ '\n' :: more)) (by decide)
    (by simp) h.name h.name_ne (by simp [isWordChar_space])
  have htrim : trim (' ' :: g.title) = g.title := trim_space h.title.trimmed
  have hsolid : trim (' ' :: g.title) ≠ [] := fun hnil => h.title_ne (htrim.symm.trans hnil)
  have hunbroken : '\n' ∉ ' ' :: g.title := by
    simpa using h.title.line
  have htitle : firstLine (' ' :: g.title ++ '\n' :: more) = g.title :=
    (firstLine_append hunbroken (by simp) hsolid).trans htrim
  have hblank : ¬ AllBlank (' ' :: g.title ++ '\n' :: more) := fun hall =>
    not_allBlank_of_trim hsolid (allBlank_append.mp hall).1
  rw [List.append_assoc, tagText_append]
  exact htag.trans ((if_pos ⟨rfl, hblank⟩).trans (congrArg (fun title => some (g.name, title)) htitle))

theorem firstGroup?_header (h : g.Valid) :
    Block.firstGroup? (unlines g.plainHeader) = some (g.name, g.title) := by
  obtain ⟨more, hmore⟩ : ∃ more,
      unlines g.plainHeader = g.tagText ++ g.title ++ '\n' :: more := by
    rw [plainHeader]
    cases g.inner <;> exact ⟨_, unlines_cons_cons _ _ _⟩
  have htag := groupTag?_header h more
  have hcons : g.tagText ++ g.title ++ '\n' :: more = '@' :: ((g.tagText ++ g.title ++
      '\n' :: more).drop 1) := by
    rw [tagText_eq]
    rfl
  rw [hmore]
  rw [hcons] at htag ⊢
  rw [Block.firstGroup?, htag]

/-! ## Brief and description -/

theorem groupLines_description {ds : List (List Char)} (brief : List Char)
    (h : ∀ d ∈ ds, IsHeaderText d ∧ d ≠ [] ∧ d.head? ≠ some '@' ∧ ¬ ['@', '\x7b'] <:+: d) :
    Block.groupLines brief (ds ++ [['@', '\x7b']]) = (brief, ds) := by
  induction ds with
  | nil => rfl
  | cons d ds ih =>
    obtain ⟨htext, hne, hhead, hmark⟩ := h d List.mem_cons_self
    have hopening : occursIn ['@', '\x7b'] d = false := occursIn_eq_false_iff.mpr hmark
    have htag : dropStem? "@brief".toList d = none := by
      rw [dropStem?_eq_none_iff]
      rintro ⟨rest, rfl⟩
      exact hhead rfl
    have hkeep : (decide (d ≠ []) && decide (d.head? ≠ some '@')) = true := by
      rw [decide_eq_true hne, decide_eq_true hhead]
      rfl
    rw [List.cons_append, Block.groupLines]
    simp only [htext.trimmed, hopening, htag, ih fun e he => h e (List.mem_cons_of_mem d he)]
    exact if_pos hkeep

theorem groupLines_inner (h : g.Valid) :
    Block.groupLines [] (g.inner ++ [['@', '\x7b']]) = (g.brief.getD [], g.description) := by
  cases hb : g.brief with
  | none =>
    rw [inner, hb]
    exact groupLines_description [] h.description
  | some b =>
    obtain ⟨htext, hmark⟩ := h.brief b hb
    obtain ⟨c, hc, htrim, hempty⟩ := briefLine_eq htext.trimmed
    have hopening : occursIn ['@', '\x7b'] ("@brief".toList ++ c) = false :=
      occursIn_eq_false_iff.mpr (pair_infix_brief (by decide +kernel) hmark hempty)
    have hline : trim ("@brief".toList ++ c) = "@brief".toList ++ c := by
      rw [← hc]
      apply trim_of_trimmed
      constructor
      · rw [hc]
        intro d hd
        cases hd
        rfl
      · exact getLast?_trimEnd _
    have hinner : g.inner ++ [['@', '\x7b']] =
        ("@brief".toList ++ c) :: (g.description ++ [['@', '\x7b']]) := by
      rw [inner, hb, ← hc]
      rfl
    have htag := dropStem?_append "@brief".toList c
    rw [hinner, Block.groupLines]
    simp only [hline, hopening, htag, htrim, groupLines_description b h.description]
    rfl

/-- The header of a group is read as it was meant, without the rows. -/
theorem group_header (h : g.Valid) (p : Position) :
    Block.group g.name g.title (unlines g.plainHeader) p =
      ⟨.ofList g.name, .ofList g.title, .ofList (g.brief.getD []),
        .ofList ([' '].intercalate g.description), p, []⟩ := by
  have hfound : occursIn "@defgroup".toList (g.tagText ++ g.title) = true := by
    rw [occursIn_iff, tagText_append]
    exact List.infix_append_left
  have hbody : ((Text.lines (unlines g.plainHeader)).dropWhile fun l =>
      !occursIn "@defgroup".toList l).drop 1 = g.inner ++ [['@', '\x7b']] := by
    rw [lines_plainHeader h, plainHeader, List.dropWhile_cons_of_neg (by rw [hfound]; decide)]
    rfl
  rw [Block.group, hbody, groupLines_inner h]

end NodeAtlas.Definition.GroupSource
