import NodeAtlas.Proofs.Definition.Comment
import NodeAtlas.Proofs.Definition.Sources

/-!
Reading the header of a group. Its lines lose their decoration, and then its name, title, brief and
description are found in them.
-/

namespace NodeAtlas.Definition

open Text

/-- The line of a brief has no mark when the brief has none. -/
theorem pair_infix_brief {m : Char} {b c : List Char} (htag : ¬ ['@', m] <:+: "@brief".toList)
    (hb : ¬ ['@', m] <:+: b) (hc : c = [] ∨ c = ' ' :: b) :
    ¬ ['@', m] <:+: "@brief".toList ++ c := by
  rcases hc with rfl | rfl
  · rwa [List.append_nil]
  · have hlast : "@brief".toList.getLast? ≠ some '@' := by decide +kernel
    exact pair_infix_append htag (pair_infix_cons (by decide) hb) (.inl hlast)

namespace GroupSource

/-- The body of the header comment. -/
def headerBody (g : GroupSource) : List Char :=
  '\n' :: (g.header.flatMap (" * ".toList ++ · ++ ['\n']) ++ [' '])

theorem headerText_eq (g : GroupSource) : g.headerText = blockText g.headerBody ++ ['\n'] := by
  simp [headerText, blockText, headerBody, List.flatMap_map]

/-- What the lines of a header have in common. -/
structure IsHeaderLine (h : List Char) : Prop where
  line : IsLine h
  closing : ¬ ['*', '/'] <:+: h
  ne_nil : h ≠ []
  solid : ∀ c ∈ h.head?, isBlank c = false

end GroupSource

theorem IsHeaderText.isLine {s : List Char} (h : IsHeaderText s) : IsLine s := by
  refine ⟨h.line, fun hlast => ?_⟩
  have hblank := (trimmed_of_trim h.trimmed).2 '\r' hlast
  exact absurd hblank (by decide)

theorem IsLine.append {v w : List Char} (hv : IsLine v) (hw : IsLine w) : IsLine (v ++ w) := by
  refine ⟨by simp [hv.1, hw.1], ?_⟩
  by_cases hne : w = []
  · rw [hne, List.append_nil]
    exact hv.2
  · rw [List.getLast?_append_of_ne_nil v hne]
    exact hw.2

theorem isWordChar_lineFeed : isWordChar '\n' = false := by decide +kernel

theorem isWordChar_space : isWordChar ' ' = false := by decide +kernel

theorem isWordChar_star : isWordChar '*' = false := by decide +kernel

namespace GroupSource

variable {g : GroupSource}

/-- What stands before the title of a group. -/
def tagText (g : GroupSource) : List Char := "@defgroup ".toList ++ g.name ++ [' ']

theorem isHeaderLine_append {v w : List Char} (hv : IsHeaderLine v) (hstar : v.getLast? ≠ some '*')
    (hw : IsHeaderText w) : IsHeaderLine (v ++ w) := by
  refine ⟨IsLine.append hv.line hw.isLine, pair_infix_append hv.closing hw.closing (.inl hstar), ?_, ?_⟩
  · exact List.append_ne_nil_of_left_ne_nil hv.ne_nil w
  · obtain ⟨c, more, hcons⟩ := List.exists_cons_of_ne_nil hv.ne_nil
    have hsolid := hv.solid
    rw [hcons] at hsolid ⊢
    exact hsolid

theorem getLast?_tagText (g : GroupSource) : g.tagText.getLast? = some ' ' :=
  List.getLast?_concat

theorem tagText_eq (g : GroupSource) :
    g.tagText = ['@', 'd', 'e', 'f', 'g', 'r', 'o', 'u', 'p', ' '] ++ (g.name ++ [' ']) :=
  List.append_assoc _ _ _

theorem not_mem_tagText (h : g.Valid) {c : Char} (hword : isWordChar c = false)
    (htag : c ∉ ['@', 'd', 'e', 'f', 'g', 'r', 'o', 'u', 'p', ' ']) (hspace : c ≠ ' ') :
    c ∉ g.tagText := by
  have hname : c ∉ g.name := by
    intro hmem
    rw [h.name c hmem] at hword
    cases hword
  rw [tagText_eq, List.mem_append, List.mem_append, List.mem_singleton]
  rintro (hmem | hmem | hmem)
  · exact htag hmem
  · exact hname hmem
  · exact hspace hmem

theorem isHeaderLine_tag (h : g.Valid) : IsHeaderLine g.tagText := by
  have hfeed : '\n' ∉ g.tagText :=
    not_mem_tagText h isWordChar_lineFeed (by decide) (by decide)
  have hstar : '*' ∉ g.tagText := not_mem_tagText h isWordChar_star (by decide) (by decide)
  refine ⟨⟨hfeed, ?_⟩, ?_, ?_, ?_⟩
  · rw [getLast?_tagText]
    decide
  · intro hpair
    exact hstar (hpair.subset List.mem_cons_self)
  · rw [tagText_eq]
    exact List.cons_ne_nil _ _
  · intro c hc
    rw [tagText_eq] at hc
    cases hc
    rfl

theorem isHeaderLine_briefTag : IsHeaderLine "@brief ".toList := by
  have htag : "@brief ".toList = ['@', 'b', 'r', 'i', 'e', 'f', ' '] := rfl
  rw [htag]
  exact ⟨⟨by decide, by decide⟩, by decide, by decide, by simp [isBlank]⟩

theorem isHeaderLine_header (h : g.Valid) : ∀ w ∈ g.header, IsHeaderLine w := by
  intro w hw
  simp only [header, List.mem_cons, List.mem_append, Option.mem_toList, Option.map_eq_some_iff,
    List.not_mem_nil, or_false] at hw
  rcases hw with rfl | (⟨b, hb, rfl⟩ | hd) | rfl
  · have hstar : g.tagText.getLast? ≠ some '*' := by
      rw [getLast?_tagText]
      decide
    have htitle : "@defgroup ".toList ++ g.name ++ ' ' :: g.title = g.tagText ++ g.title :=
      (List.append_cons _ _ _)
    rw [htitle]
    exact isHeaderLine_append (isHeaderLine_tag h) hstar h.title
  · exact isHeaderLine_append isHeaderLine_briefTag (by simp) (h.brief b hb).1
  · obtain ⟨htext, hne, -, -⟩ := h.description w hd
    exact ⟨htext.isLine, htext.closing, hne, (trimmed_of_trim htext.trimmed).1⟩
  · exact ⟨⟨by decide, by decide⟩, by decide, by decide, by simp [isBlank]⟩

/-! ## Decoration -/

/-- The lines of the header as they are written. -/
def written (g : GroupSource) : List (List Char) := g.header.map ([' ', '*', ' '] ++ ·)

theorem headerBody_eq (g : GroupSource) : g.headerBody = Comment.body g.written := by
  simp [headerBody, Comment.body, endLines, written, List.flatMap_map]

theorem isLine_written (h : g.Valid) : ∀ w ∈ g.written, IsLine w := by
  intro w hw
  obtain ⟨l, hl, rfl⟩ := List.mem_map.mp hw
  exact IsLine.append ⟨by decide, by decide⟩ (isHeaderLine_header h l hl).line

/-- No line of a header closes the comment. -/
theorem closing_headerBody (h : g.Valid) : ¬ ['*', '/'] <:+: g.headerBody := by
  rw [headerBody_eq]
  apply Comment.closing_body
  intro w hw
  obtain ⟨l, hl, rfl⟩ := List.mem_map.mp hw
  exact pair_infix_append (by decide) (isHeaderLine_header h l hl).closing (.inl (by decide))

/-- The lines between the first and the last one of a header. -/
def inner (g : GroupSource) : List (List Char) :=
  (g.brief.map fun b => trimEnd ("@brief ".toList ++ b)).toList ++ g.description

/-- The lines of a header as they are read. -/
def plainHeader (g : GroupSource) : List (List Char) :=
  (g.tagText ++ g.title) :: (g.inner ++ [['@', '\x7b']])

theorem map_trimEnd_header (h : g.Valid) : g.header.map trimEnd = g.plainHeader := by
  have htitle : trimEnd (g.tagText ++ g.title) = g.tagText ++ g.title := by
    apply trimEnd_of_trimmed
    rw [List.getLast?_append_of_ne_nil _ h.title_ne]
    exact (trimmed_of_trim h.title.trimmed).2
  have hdescription : g.description.map trimEnd = g.description := by
    have hall : ∀ d ∈ g.description, trimEnd d = d := fun d hd =>
      trimEnd_of_trimmed (trimmed_of_trim (h.description d hd).1.trimmed).2
    rw [List.map_congr_left hall, List.map_id']
  have hheader : g.header = (g.tagText ++ g.title) ::
      ((g.brief.map ("@brief ".toList ++ ·)).toList ++ g.description ++ [['@', '\x7b']]) :=
    congrArg (· :: _) (List.append_cons _ _ _)
  rw [hheader, List.map_cons, List.map_append, List.map_append, htitle, hdescription,
    ← Option.toList_map, Option.map_map]
  rfl

theorem plainText_headerBody (h : g.Valid) :
    Comment.plainText g.headerBody = unlines g.plainHeader := by
  have hplain : g.written.map Comment.plainLine = g.plainHeader := by
    rw [← map_trimEnd_header h, written, List.map_map]
    exact List.map_congr_left fun w _ => Comment.plainLine_decorated w
  have htagged : g.tagText ++ g.title ≠ [] := List.append_ne_nil_of_right_ne_nil _ h.title_ne
  have htrimmed : Trimmed (unlines g.plainHeader) := by
    apply trimmed_unlines htagged
    · rw [tagText_eq]
      intro c hc
      cases hc
      rfl
    · rw [← List.cons_append, List.getLast?_concat]
      intro l hl
      cases hl
      exact ⟨by simp, by simp [isBlank]⟩
  have hne : unlines g.plainHeader ≠ [] := by
    intro hnil
    have hhead := head?_unlines htagged (g.inner ++ [['@', '\x7b']])
    rw [← plainHeader, hnil, tagText_eq] at hhead
    cases hhead
  rw [headerBody_eq]
  exact Comment.plainText_body (isLine_written h) hplain htrimmed hne

end GroupSource

end NodeAtlas.Definition
