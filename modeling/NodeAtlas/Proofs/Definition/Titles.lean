import NodeAtlas.Proofs.Definition.Excerpts
import NodeAtlas.Proofs.Definition.GroupTag
import NodeAtlas.Proofs.Definition.Recovery

/-!
Titles of groups. The title is the remainder of the line of the tag, if that has more than blanks. If it
has not, a later line becomes the title, and without one there is no group.
-/

namespace NodeAtlas.Definition

open Text

/-! ## Groups and the tokens that open them -/

/-- The names and titles of the groups that are opened at a position. -/
def Document.titlesAt (d : Document) (p : Position) : List (String × String) :=
  (d.groups.filter (·.position = p)).map fun g => (g.name, g.title)

/-- The group that a token opens. -/
def opened? (before : List Located) (l : Located) : Option Group :=
  match mark? before l with
  | some (.opening g) => some g
  | _ => none

theorem openings_concat (ts : List Located) (l : Located) :
    openings (ts ++ [l]) = openings ts ++ ((opened? ts l).map (ts.length, ·)).toList := by
  unfold opened?
  split
  · next g hm => exact openings_of_opening hm
  · next hm =>
    rw [Option.map_none, Option.toList_none, List.append_nil]
    cases h : mark? ts l with
    | none => exact openings_of_none h
    | some m =>
      cases m with
      | opening g => exact absurd h (hm g)
      | closing => exact openings_of_closing h

/-- What the tag of a block opens, which is not the file block. -/
theorem opened?_docBlock {before : List Located} {p : Position} {text : List Char}
    (h : Block.isFileBlock text = true → ∃ l ∈ before, l.isFileBlock = true) :
    opened? before ⟨p, .docBlock text⟩ =
      (Block.firstGroup? text).map fun f => Block.group f.1 f.2 text p := by
  have hfile : ¬ (Block.isFileBlock text && !before.any Located.isFileBlock) = true := by
    rw [Bool.and_eq_true, Bool.not_eq_true', not_and, Bool.not_eq_false, List.any_eq_true]
    exact h
  unfold opened? mark?
  simp only [if_neg hfile]
  cases Block.firstGroup? text with
  | some f => rfl
  | none =>
    dsimp only
    split
    · next hm =>
      split at hm <;> cases hm
    · rfl

theorem position_of_mark? {before : List Located} {l : Located} {g : Group}
    (h : mark? before l = some (.opening g)) : g.position = l.position := by
  unfold mark? at h
  split at h
  · split at h
    · cases h
    split at h
    · cases h
      rfl
    · split at h <;> cases h
  · split at h <;> cases h
  · cases h

theorem position_of_opened? {before : List Located} {l : Located} {g : Group}
    (h : opened? before l = some g) : g.position = l.position := by
  unfold opened? at h
  split at h
  · next hm =>
    cases h
    exact position_of_mark? hm
  · cases h

theorem position_of_mem_openings {ts : List Located} {o : Nat × Group} (h : o ∈ openings ts) :
    ∃ l ∈ ts, o.2.position = l.position := by
  induction ts using List.reverseRecOn with
  | nil => cases h
  | append_singleton ts l ih =>
    rw [openings_concat, List.mem_append, Option.mem_toList] at h
    rcases h with h | h
    · obtain ⟨k, hk, hposition⟩ := ih h
      exact ⟨k, List.mem_append_left [l] hk, hposition⟩
    · obtain ⟨g, hg, rfl⟩ := Option.map_eq_some_iff.mp h
      exact ⟨l, by simp, position_of_opened? hg⟩

/-- The openings at the position of a token are what this token opens. -/
theorem openings_at {before after : List Located} {l : Located}
    (h : (before ++ l :: after).Pairwise fun a b => a.position < b.position) :
    (openings (before ++ l :: after)).filter (·.2.position = l.position) =
      ((opened? before l).map (before.length, ·)).toList := by
  induction after using List.reverseRecOn with
  | nil =>
    have hbefore : (openings before).filter (·.2.position = l.position) = [] := by
      rw [List.filter_eq_nil_iff]
      intro o ho
      obtain ⟨k, hk, hposition⟩ := position_of_mem_openings ho
      have hlt := (List.pairwise_append.mp h).2.2 k hk l List.mem_cons_self
      simpa [hposition] using Position.ne_of_lt hlt
    have hself : ((opened? before l).map (before.length, ·)).toList.filter
        (·.2.position = l.position) = ((opened? before l).map (before.length, ·)).toList := by
      rw [List.filter_eq_self]
      intro o ho
      obtain ⟨g, hg, rfl⟩ := Option.map_eq_some_iff.mp (Option.mem_toList.mp ho)
      simpa using position_of_opened? hg
    rw [openings_concat, List.filter_append, hbefore, hself, List.nil_append]
  | append_singleton after x ih =>
    have hsplit : before ++ l :: (after ++ [x]) = (before ++ l :: after) ++ [x] := by simp
    rw [hsplit] at h ⊢
    obtain ⟨hfront, -, hlast⟩ := List.pairwise_append.mp h
    have hx : ((opened? (before ++ l :: after) x).map ((before ++ l :: after).length, ·)).toList.filter
        (·.2.position = l.position) = [] := by
      rw [List.filter_eq_nil_iff]
      intro o ho
      obtain ⟨g, hg, rfl⟩ := Option.map_eq_some_iff.mp (Option.mem_toList.mp ho)
      have hlt := hlast l (by simp) x List.mem_cons_self
      simpa [position_of_opened? hg] using (Position.ne_of_lt hlt).symm
    rw [openings_concat, List.filter_append, ih hfront, hx, List.append_nil]

theorem titlesAt_assemble (path : String) (ts : List Located) (p : Position) :
    (assemble path ts).document.titlesAt p =
      ((openings ts).filter (·.2.position = p)).map fun o => (o.2.name, o.2.title) := by
  have hgroups := congrArg (fun gs : List Group =>
    (gs.filter (·.position = p)).map fun g => (g.name, g.title)) (filed_assemble path ts).groups
  simp only [List.filter_map, List.map_map] at hgroups
  exact hgroups

/-- A block opens at its position the group of its first header, or none. -/
theorem titlesAt_parse {path source : String} {before after : List Located} {p : Position}
    {text : List Char} (htokens : tokens source.toList = before ++ ⟨p, .docBlock text⟩ :: after)
    (hfile : Block.isFileBlock text = true → ∃ l ∈ before, l.isFileBlock = true) :
    (parse path source).document.titlesAt p =
      ((Block.firstGroup? text).map fun f => (String.ofList f.1, String.ofList f.2)).toList := by
  have hordered := tokens_ordered source.toList
  rw [htokens] at hordered
  rw [parse, titlesAt_assemble, htokens, openings_at hordered, opened?_docBlock hfile]
  cases Block.firstGroup? text <;> rfl

/-! ## Titles -/

/-- The first group tag of a block, with blanks and a name behind it on its line. -/
structure GroupTag (text : List Char) where
  front : List Char
  gap : List Char
  name : List Char
  /-- What stands behind the name. -/
  rest : List Char
  first : cut? "@defgroup".toList text = some (front, gap ++ (name ++ rest))
  gap_ne : gap ≠ []
  blank : AllBlank gap
  unbroken : '\n' ∉ gap
  name_ne : name ≠ []
  word : ∀ c ∈ name, isWordChar c = true
  stops : ∀ c ∈ rest.head?, isWordChar c = false

namespace GroupTag

variable {text : List Char}

/-- The remainder of the line of the tag. -/
def line (t : GroupTag text) : List Char := restOfLine t.rest

/-- The names and titles that a tag gives to the groups of its block. -/
structure Titles (t : GroupTag text) (titles : List (String × String)) : Prop where
  /-- The remainder of the line is the title, if a blank ends the name and more than blanks follow. -/
  own : (∀ c ∈ t.rest.head?, isBlank c = true) → trim t.line ≠ [] →
    titles = [(.ofList t.name, .ofList (trim t.line))]
  /-- If only blanks follow the name on its line, the first later line with more is the title. -/
  below : trim t.line = [] → t.rest ≠ [] → ∃ gap line more, t.rest = gap ++ (line ++ more) ∧
    '\n' ∈ gap ∧ IsFirstLine gap line more ∧ titles = [(.ofList t.name, .ofList (trim line))]
  /-- If nothing follows the name, there is no group. -/
  bare : t.rest = [] → titles = []
  /-- If something else than a blank ends the name, the tag is passed over. -/
  attached : (∃ c ∈ t.rest.head?, isBlank c = false) → titles =
    ((Block.firstGroup? t.rest).map fun f => (String.ofList f.1, String.ofList f.2)).toList

theorem firstGroup?_eq (t : GroupTag text) : Block.firstGroup? text =
    (if t.rest.head?.any isBlank ∧ ¬ AllBlank t.rest then some (t.name, firstLine t.rest)
      else none).or (Block.firstGroup? t.rest) := by
  have hgap : '@' ∉ t.gap := fun h => absurd (t.blank '@' h) (by decide)
  have hname : '@' ∉ t.name := fun h => absurd (t.word '@' h) (by decide +kernel)
  rw [Block.firstGroup?_of_cut? t.first,
    Block.groupTag?_append t.blank t.gap_ne t.word t.name_ne t.stops, Block.firstGroup?_append hgap,
    Block.firstGroup?_append hname]

/-- What follows the name is empty or has more than blanks, since blocks are trimmed. -/
theorem not_allBlank (t : GroupTag text) (h : Trimmed text) (hne : t.rest ≠ []) :
    ¬ AllBlank t.rest := by
  intro hall
  have hlast : text.getLast? = t.rest.getLast? := by
    apply (congrArg List.getLast? (eq_append_of_cut? t.first)).trans
    rw [← List.append_assoc, ← List.append_assoc, ← List.append_assoc,
      List.getLast?_append_of_ne_nil _ hne]
  have hsolid := h.2 _ (hlast.trans (List.getLast?_eq_some_getLast hne))
  rw [hall _ (List.getLast_mem hne)] at hsolid
  cases hsolid

/-- A tag whose name a blank ends makes a header, and its title is the first line that has one. -/
theorem firstGroup?_of_blank (t : GroupTag text) (h : Trimmed text)
    (hblank : t.rest.head?.any isBlank = true) :
    Block.firstGroup? text = some (t.name, firstLine t.rest) := by
  have hne : t.rest ≠ [] := by
    intro hnil
    rw [hnil] at hblank
    cases hblank
  rw [t.firstGroup?_eq, if_pos ⟨hblank, t.not_allBlank h hne⟩, Option.some_or]

theorem line_append (t : GroupTag text) : t.line ++ fromLineEnd t.rest = t.rest :=
  restOfLine_append_fromLineEnd t.rest

theorem firstLine_rest (t : GroupTag text) (h : trim t.line ≠ []) :
    firstLine t.rest = trim t.line := by
  have hunbroken : '\n' ∉ t.line := List.count_eq_zero.mp (count_restOfLine t.rest)
  have htitle := firstLine_append hunbroken (head?_fromLineEnd t.rest) h
  rwa [t.line_append] at htitle

/-- Without a title on the line of the tag, the first line with one is a later line. -/
theorem exists_later (t : GroupTag text) (h : Trimmed text) (hline : trim t.line = [])
    (hne : t.rest ≠ []) : ∃ gap line more, t.rest = gap ++ (line ++ more) ∧ '\n' ∈ gap ∧
      IsFirstLine gap line more := by
  obtain ⟨gap, line, more, hrest, hfirst⟩ := exists_isFirstLine (t.not_allBlank h hne)
  refine ⟨gap, line, more, hrest, ?_, hfirst⟩
  have hgap : gap ≠ [] := by
    rintro rfl
    have hself : t.line = line := by
      rw [GroupTag.line, hrest, List.nil_append, restOfLine]
      apply takeWhile_append_stop
      · intro c hc
        simpa using ne_of_mem_of_not_mem hc hfirst.unbroken
      · intro c hc
        simpa using hfirst.ends c hc
    exact hfirst.solid (hself ▸ hline)
  have hlast := hfirst.begins _ (List.getLast?_eq_some_getLast hgap)
  exact hlast ▸ List.getLast_mem hgap

theorem titles (t : GroupTag text) (h : Trimmed text) : t.Titles
    ((Block.firstGroup? text).map fun f => (String.ofList f.1, String.ofList f.2)).toList := by
  constructor
  · intro hblank hsolid
    have hhead : t.rest.head?.any isBlank = true := by
      cases hrest : t.rest with
      | nil =>
        rw [GroupTag.line, hrest] at hsolid
        exact absurd rfl hsolid
      | cons c rest => exact hblank c (by rw [hrest]; rfl)
    rw [t.firstGroup?_of_blank h hhead, t.firstLine_rest hsolid]
    rfl
  · intro hline hne
    obtain ⟨gap, line, more, hrest, hfeed, hfirst⟩ := t.exists_later h hline hne
    have hhead : t.rest.head?.any isBlank = true := by
      obtain ⟨c, more', rfl⟩ := List.exists_cons_of_ne_nil (List.ne_nil_of_mem hfeed)
      rw [hrest]
      exact hfirst.blank c List.mem_cons_self
    refine ⟨gap, line, more, hrest, hfeed, hfirst, ?_⟩
    rw [t.firstGroup?_of_blank h hhead, hrest, hfirst.firstLine_eq]
    rfl
  · intro hnil
    rw [t.firstGroup?_eq, hnil]
    rfl
  · rintro ⟨c, hc, hsolid⟩
    have hhead : ¬ (t.rest.head?.any isBlank = true ∧ ¬ AllBlank t.rest) := by
      rw [Option.mem_def.mp hc, Option.any_some, hsolid]
      simp
    rw [t.firstGroup?_eq, if_neg hhead, Option.none_or]

end GroupTag

/-- Every doc block that is not the file block opens the group that its first tag gives, if a name
stands behind that tag on its line: with the remainder of the line as its title, if there is one. -/
theorem titles_parse {path source : String} {before after : List Located} {p : Position}
    {text : List Char} (htokens : tokens source.toList = before ++ ⟨p, .docBlock text⟩ :: after)
    (hfile : Block.isFileBlock text = true → ∃ l ∈ before, l.isFileBlock = true)
    (t : GroupTag text) : t.Titles ((parse path source).document.titlesAt p) := by
  have hmem : ⟨p, .docBlock text⟩ ∈ tokens source.toList := by
    rw [htokens]
    exact List.mem_append_right before List.mem_cons_self
  obtain ⟨body, -, rfl, -⟩ := body_of_mem_docBlock hmem
  rw [titlesAt_parse htokens hfile]
  exact t.titles (trimmed_trim _)

/-- A block with a title behind the name, and lines below. -/
def titledBlock : String := "/** @defgroup g  Own title\n * @brief B\n * @\x7b */\n"

def titledText : List Char := "@defgroup g  Own title\n@brief B\n@\x7b".toList

def titledTag : GroupTag titledText where
  front := []
  gap := [' ']
  name := ['g']
  rest := ' ' :: " Own title\n@brief B\n@\x7b".toList
  first := by decide +kernel
  gap_ne := by decide
  blank := by decide
  unbroken := by decide
  name_ne := by decide
  word := List.forall_mem_singleton.mpr (by decide +kernel)
  stops := by
    rintro c ⟨⟩
    decide +kernel

theorem titles_parse_titledBlock :
    tokens titledBlock.toList = [] ++ ⟨⟨1, 0⟩, .docBlock titledText⟩ :: [] ∧
      Block.isFileBlock titledText = false ∧
      (parse "t_types.def" titledBlock).document.titlesAt ⟨1, 0⟩ = [("g", "Own title")] := by
  have htokens : tokens titledBlock.toList = [] ++ ⟨⟨1, 0⟩, .docBlock titledText⟩ :: [] := by
    decide +kernel
  have hfile : Block.isFileBlock titledText = false := by decide +kernel
  have htitles := @titles_parse "t_types.def" titledBlock [] [] ⟨1, 0⟩ titledText htokens
    (fun h => absurd h (by rw [hfile]; decide)) titledTag
  have hblank : ∀ c ∈ titledTag.rest.head?, isBlank c = true := by
    rintro c ⟨⟩
    decide
  exact ⟨htokens, hfile, htitles.own hblank (by decide +kernel)⟩

/-- A brief on the next line becomes the title of a group without one, and a tag at the end of its block
opens no group. -/
theorem title_missed :
    let text := "@defgroup g\n@brief B".toList
    let source := "/** @defgroup g\n * @brief B */"
    tokens source.toList = [⟨⟨1, 0⟩, .docBlock text⟩] ∧ Block.isFileBlock text = false ∧
      cut? "@defgroup".toList text = some ([], [' '] ++ (['g'] ++ "\n@brief B".toList)) ∧
      (parse "t_types.def" source).document.titlesAt ⟨1, 0⟩ = [("g", "@brief B")] ∧
      (parse "t_types.def" "/** @defgroup g */").document.groups = [] := by
  decide +kernel

end NodeAtlas.Definition
