import NodeAtlas.Proofs.Definition.Returns
import NodeAtlas.Proofs.Markdown.TableLine

/-!
Tables on pages. To Markdown a carriage return ends a line as a line feed does. The lines of a table
follow one another on the page, but a row whose texts have carriage returns is more than one of them.
-/

namespace NodeAtlas.Markdown

open Definition Text

/-! ## Physical lines -/

/-- Lines as Markdown ends them: at a line feed, at a carriage return, or at both in this order. The
last line has no end. -/
def physicalLines : List Char → List (List Char)
  | [] => [[]]
  | '\r' :: '\n' :: rest => [] :: physicalLines rest
  | c :: rest =>
    if c = '\n' ∨ c = '\r' then [] :: physicalLines rest
    else (physicalLines rest).modifyHead (c :: ·)

theorem physicalLines_ne_nil (s : List Char) : physicalLines s ≠ [] := by
  fun_induction physicalLines s with
  | case1 => exact List.cons_ne_nil _ _
  | case2 => exact List.cons_ne_nil _ _
  | case3 => exact List.cons_ne_nil _ _
  | case4 c rest hreturn hend ih => simpa using ih

theorem modifyHead_append {α : Type} (f : α → α) {xs : List α} (hne : xs ≠ []) (ys : List α) :
    (xs ++ ys).modifyHead f = xs.modifyHead f ++ ys := by
  obtain ⟨x, xs, rfl⟩ := List.exists_cons_of_ne_nil hne
  rfl

theorem physicalLines_append {w e : List Char} (h : EndsLine w e) (rest : List Char) :
    physicalLines (w ++ (e ++ rest)) = physicalLines w ++ physicalLines rest := by
  fun_induction physicalLines w with
  | case1 => rcases h with ⟨rfl, -⟩ | rfl <;> rfl
  | case2 w ih => exact congrArg ([] :: ·) (ih h.of_cons.of_cons)
  | case3 c w hreturn hend ih =>
    rw [List.cons_append, physicalLines.eq_3 _ _ (h.not_earlier hreturn), if_pos hend, ih h.of_cons]
    rfl
  | case4 c w hreturn hend ih =>
    rw [List.cons_append, physicalLines.eq_3 _ _ (h.not_earlier hreturn), if_neg hend, ih h.of_cons,
      modifyHead_append _ (physicalLines_ne_nil w)]

/-- Whatever stands in front of a line feed, the lines behind it are those of what stands there. -/
theorem exists_physicalLines_append (a : List Char) :
    ∃ front, ∀ rest, physicalLines (a ++ '\n' :: rest) = front ++ physicalLines rest := by
  obtain ⟨w, e, heq, hend, -⟩ := exists_endsLine a
  refine ⟨physicalLines w, fun rest => ?_⟩
  rw [List.append_cons, heq, List.append_assoc]
  exact physicalLines_append hend rest

theorem exists_physicalLines_endLines (ls : List (List Char)) :
    ∃ front, ∀ rest, physicalLines (endLines ls ++ rest) = front ++ physicalLines rest := by
  induction ls with
  | nil => exact ⟨[], fun rest => rfl⟩
  | cons w ls ih =>
    obtain ⟨first, hfirst⟩ := exists_physicalLines_append w
    obtain ⟨more, hmore⟩ := ih
    refine ⟨first ++ more, fun rest => ?_⟩
    rw [endLines_cons, List.append_assoc, List.cons_append, hfirst, hmore, List.append_assoc]

theorem physicalLines_endLines {ls : List (List Char)} (h : ∀ w ∈ ls, w.getLast? ≠ some '\r')
    (rest : List Char) :
    physicalLines (endLines ls ++ rest) = ls.flatMap physicalLines ++ physicalLines rest := by
  induction ls with
  | nil => rfl
  | cons w ls ih =>
    obtain ⟨hw, hls⟩ := List.forall_mem_cons.mp h
    rw [endLines_cons, List.append_assoc, List.flatMap_cons, List.append_assoc, ← ih hls]
    exact physicalLines_append (.inl ⟨rfl, hw⟩) _

theorem not_mem_of_mem_physicalLines {s l : List Char} (h : l ∈ physicalLines s) :
    '\n' ∉ l ∧ '\r' ∉ l := by
  fun_induction physicalLines s generalizing l with
  | case1 => simp [List.mem_singleton.mp h]
  | case2 rest ih =>
    rcases List.mem_cons.mp h with rfl | hrest
    · simp
    · exact ih hrest
  | case3 c rest hreturn hend ih =>
    rcases List.mem_cons.mp h with rfl | hrest
    · simp
    · exact ih hrest
  | case4 c rest hreturn hend ih =>
    obtain ⟨line, more, hlines⟩ := List.exists_cons_of_ne_nil (physicalLines_ne_nil rest)
    rw [hlines] at h ih
    rcases List.mem_cons.mp h with rfl | hmore
    · have hline := ih List.mem_cons_self
      rw [not_or] at hend
      simpa [Ne.symm hend.1, Ne.symm hend.2] using hline
    · exact ih (List.mem_cons_of_mem line hmore)

/-- A text is one line when nothing in it ends one. -/
theorem physicalLines_eq_singleton_iff {w : List Char} :
    physicalLines w = [w] ↔ '\n' ∉ w ∧ '\r' ∉ w := by
  constructor
  · exact fun h => not_mem_of_mem_physicalLines (h ▸ List.mem_singleton_self w)
  · rintro ⟨hfeed, hreturn⟩
    fun_induction physicalLines w with
    | case1 => rfl
    | case2 => simp at hfeed
    | case3 c rest _ hend ih =>
      rcases hend with rfl | rfl
      · simp at hfeed
      · simp at hreturn
    | case4 c rest _ hend ih =>
      rw [ih (fun hmem => hfeed (List.mem_cons_of_mem c hmem))
        (fun hmem => hreturn (List.mem_cons_of_mem c hmem))]
      rfl

/-! ## Rows -/

theorem getLast?_lineOf (texts : List (List Char)) : (lineOf texts).getLast? = some '|' := by
  rcases List.eq_nil_or_concat texts with rfl | ⟨front, text, rfl⟩
  · rfl
  · simp [lineOf, List.flatMap_append, List.getLast?_cons]

theorem return_mem_lineOf_iff (texts : List (List Char)) :
    '\r' ∈ lineOf texts ↔ ∃ text ∈ texts, '\r' ∈ text := by
  have hescape (text : List Char) : '\r' ∈ escapeCell text ↔ '\r' ∈ text :=
    mem_escapeCell_iff (by decide) (by decide) (by decide) text
  simp [lineOf, padded, hescape]

theorem return_mem_spanText_iff (raw : List Char) : '\r' ∈ spanText raw ↔ '\r' ∈ raw := by
  unfold spanText fence
  split <;> simp

theorem return_mem_plainExpr_iff (expr : List Char) : '\r' ∈ plainExpr expr ↔ '\r' ∈ expr := by
  rw [plainExpr, mem_eraseAll_iff (by decide) (by decide), mem_eraseAll_iff (by decide) (by decide)]

/-- The texts of a row that its line shows. -/
def shownFields (r : Row) : List String :=
  [r.rawType, r.semanticType, r.nameExtraction, r.brief.getD ""]

theorem return_mem_tableLine_iff (r : Row) :
    '\r' ∈ (Page.tableLine r).toList ↔ ∃ field ∈ shownFields r, '\r' ∈ field.toList := by
  rw [toList_tableLine, return_mem_lineOf_iff]
  simp [texts, shownFields, typeText, return_mem_spanText_iff, return_mem_plainExpr_iff]

/-- The line of a row is one physical line when no text of the row has a carriage return. -/
theorem physicalLines_tableLine_iff (r : Row) :
    physicalLines (Page.tableLine r).toList = [(Page.tableLine r).toList] ↔
      ∀ field ∈ shownFields r, '\r' ∉ field.toList := by
  have hfeed : '\n' ∉ (Page.tableLine r).toList := by
    rw [toList_tableLine]
    exact lineFeed_not_mem_lineOf _
  rw [physicalLines_eq_singleton_iff, return_mem_tableLine_iff]
  simp [hfeed]

/-! ## Pages -/

/-- The rows of each table of a page. -/
def tables (d : Document) : List (List Row) :=
  (d.groups.map Group.rows ++ [d.ungrouped]).filter (!·.isEmpty)

theorem exists_table {d : Document} {r : Row} (h : r ∈ d.rows) : ∃ rows ∈ tables d, r ∈ rows := by
  have htable {rows : List Row} (hrows : rows ∈ d.groups.map Group.rows ++ [d.ungrouped])
      (hr : r ∈ rows) : ∃ rows ∈ tables d, r ∈ rows :=
    ⟨rows, List.mem_filter.mpr ⟨hrows, by simpa using List.ne_nil_of_mem hr⟩, hr⟩
  rcases List.mem_append.mp ((rows_perm d).mem_iff.mp h) with hgroup | hungrouped
  · obtain ⟨g, hg, hr⟩ := List.mem_flatMap.mp hgroup
    exact htable (List.mem_append_left _ (List.mem_map_of_mem hg)) hr
  · exact htable (by simp) hungrouped

theorem infix_table {d : Document} {rows : List Row} (h : rows ∈ tables d) :
    Page.table rows <:+: Page.lines d := by
  obtain ⟨hrows, hne⟩ := List.mem_filter.mp h
  rcases List.mem_append.mp hrows with hgroup | hungrouped
  · obtain ⟨g, hg, rfl⟩ := List.mem_map.mp hgroup
    have hsection : Page.table g.rows <:+: Page.groupSection g := by
      rw [Page.groupSection, if_neg (by simpa using hne)]
      exact (List.suffix_append _ _).isInfix
    have hgroups : Page.groupSection g <:+: d.groups.flatMap Page.groupSection :=
      List.infix_of_mem_flatten (List.mem_map_of_mem hg)
    refine (hsection.trans hgroups).trans ?_
    unfold Page.lines
    exact ((List.suffix_append _ _).isInfix.trans (List.prefix_append _ _).isInfix).trans
      (List.prefix_append _ _).isInfix
  · obtain rfl := List.mem_singleton.mp hungrouped
    have hpart : Page.table d.ungrouped <:+: if d.ungrouped.isEmpty then [] else
        ["## Other Node Types", ""] ++ Page.table d.ungrouped := by
      rw [if_neg (by simpa using hne)]
      exact (List.suffix_append _ _).isInfix
    refine hpart.trans ?_
    unfold Page.lines
    exact (List.suffix_append _ _).isInfix.trans (List.prefix_append _ _).isInfix

/-- The lines of a table stand one after another on its page. -/
theorem physicalLines_table {d : Document} {rows : List Row} (h : rows ∈ tables d) :
    Page.tableHead.map String.toList ++
        rows.flatMap (fun r => physicalLines (Page.tableLine r).toList) <:+:
      physicalLines (Page.render d).toList := by
  obtain ⟨front, rest, hlines⟩ := infix_table h
  have hhead : (Page.tableHead.map String.toList).flatMap physicalLines =
      Page.tableHead.map String.toList := by
    decide +kernel
  have hends : ∀ w ∈ (Page.tableHead ++ rows.map Page.tableLine).map String.toList,
      w.getLast? ≠ some '\r' := by
    rw [List.map_append, List.forall_mem_append]
    refine ⟨by decide +kernel, fun w hw => ?_⟩
    obtain ⟨line, hline, rfl⟩ := List.mem_map.mp hw
    obtain ⟨r, -, rfl⟩ := List.mem_map.mp hline
    rw [toList_tableLine, getLast?_lineOf]
    decide
  have hpage : (Page.render d).toList = endLines (front.map String.toList) ++
      (endLines ((Page.tableHead ++ rows.map Page.tableLine).map String.toList) ++
        unlines (("" :: rest).map String.toList)) := by
    rw [← unlines_append _ (by simp), ← unlines_append _ (by simp), ← List.map_append,
      ← List.map_append, Page.render, joinLines, String.toList_intercalate, ← hlines, Page.table]
    simp [unlines]
  obtain ⟨before, hbefore⟩ := exists_physicalLines_endLines (front.map String.toList)
  rw [hpage, hbefore, physicalLines_endLines hends, List.map_append, List.flatMap_append, hhead,
    List.map_map, List.flatMap_map]
  exact (List.prefix_append _ _).isInfix.trans (List.suffix_append before _).isInfix

/-- The rows of a document on its page. -/
structure OnPage (text : List Char) (d : Document) : Prop where
  placed : ∀ r ∈ d.rows, ∃ rows ∈ tables d, r ∈ rows
  /-- The lines of a table follow one another on the page. -/
  lines : ∀ rows ∈ tables d, Page.tableHead.map String.toList ++
      rows.flatMap (fun r => physicalLines (Page.tableLine r).toList) <:+:
    physicalLines (Page.render d).toList
  /-- Only carriage returns make a row more than one line. -/
  single : ∀ r ∈ d.rows, physicalLines (Page.tableLine r).toList = [(Page.tableLine r).toList] ↔
    ∀ field ∈ shownFields r, '\r' ∉ field.toList
  /-- A node type has carriage returns of the text, or its literal has an escape for one. -/
  rawType : ∀ r ∈ d.rows, '\r' ∈ r.rawType.toList → '\r' ∈ text ∨ ['\\', 'r'] <:+: text
  /-- The expressions stand in the text, and where its carriage returns end lines, theirs do. -/
  expressions : ∀ r ∈ d.rows, ∀ field ∈ [r.semanticType, r.nameExtraction],
    field.toList <:+: text ∧
      (PairsReturns text → '\r' ∈ field.toList → ['\r', '\n'] <:+: field.toList)
  brief : PairsReturns text → ∀ r ∈ d.rows, '\r' ∉ (r.brief.getD "").toList

/-- Every row is one line of its page when its texts have no carriage returns. -/
theorem onPage_parse (path text : String) : OnPage text.toList (parse path text).document where
  placed _ hr := exists_table hr
  lines _ hrows := physicalLines_table hrows
  single r _ := physicalLines_tableLine_iff r
  rawType _ hr := return_of_mem_rawType hr
  expressions r hr field hfield := by
    obtain ⟨hwithin, htrimmed⟩ := infix_of_field hr
      (List.mem_of_mem_take (i := 2) (l := [r.semanticType, r.nameExtraction, _, _]) hfield)
    exact ⟨hwithin, fun h => h.infix_pair hwithin (getLast?_ne_return htrimmed)⟩
  brief h _ hr := return_not_mem_brief hr h

/-- A row whose literal has an escape for a carriage return. -/
def escapedReturn : String := "DEF_TYPE(\"a\\rb\", LITERAL_STRING, NONE, NONE, 0)\n"

theorem rows_escapedReturn : (parse "t_types.def" escapedReturn).document.rows =
    [⟨"a\rb", "LITERAL_STRING", "NONE", "NONE", "0", none, none, .start⟩] := by
  have hdocument : (parse "t_types.def" escapedReturn).document = ⟨"t_types.def", {}, [],
      [⟨"a\rb", "LITERAL_STRING", "NONE", "NONE", "0", none, none, .start⟩]⟩ := by
    decide +kernel
  rw [hdocument]
  exact rows_eq_of_perm (by decide) (by decide)

/-- The row is more than one line of its page. -/
theorem row_broken : ¬ ∀ r ∈ (parse "t_types.def" escapedReturn).document.rows,
    physicalLines (Page.tableLine r).toList = [(Page.tableLine r).toList] := by
  rw [rows_escapedReturn, List.forall_mem_singleton, physicalLines_tableLine_iff]
  decide

end NodeAtlas.Markdown
