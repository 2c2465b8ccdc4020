import NodeAtlas.Proofs.Definition.Briefs
import NodeAtlas.Proofs.Definition.Excerpts

/-!
Where the carriage returns of a text are found in its rows. Those that end lines do not get into doc
comments, but an argument that goes on over several lines keeps them, and escapes of literals make new
ones.
-/

namespace NodeAtlas.Definition

open Text

/-! ## Line ends -/

/-- Every carriage return is a part of a line end. -/
def PairsReturns (s : List Char) : Prop :=
  ∀ front rest, s = front ++ '\r' :: rest → rest.head? = some '\n'

theorem PairsReturns.of_suffix {s t : List Char} (h : PairsReturns t) (hs : s <:+ t) :
    PairsReturns s := by
  obtain ⟨front, rfl⟩ := hs
  exact fun mid rest hs => h (front ++ mid) rest (by rw [hs, List.append_assoc])

theorem PairsReturns.infix_pair {s w : List Char} (h : PairsReturns s) (hw : w <:+: s)
    (hlast : w.getLast? ≠ some '\r') (hmem : '\r' ∈ w) : ['\r', '\n'] <:+: w := by
  obtain ⟨a, b, rfl⟩ := hw
  obtain ⟨front, rest, rfl⟩ := List.append_of_mem hmem
  have hnext := h (a ++ front) (rest ++ b) (by simp)
  cases rest with
  | nil => exact absurd (by simp) hlast
  | cons c rest =>
    obtain rfl : c = '\n' := by simpa using hnext
    exact ⟨front, rest, by simp⟩

theorem getLast?_ne_return {s : List Char} (h : Trimmed s) : s.getLast? ≠ some '\r' :=
  fun hlast => absurd (h.2 '\r' hlast) (by decide)

/-- The lines of such a text have no carriage returns left. -/
theorem PairsReturns.not_mem_lines {s l : List Char} (h : PairsReturns s) (hl : l ∈ lines s) :
    '\r' ∉ l := by
  -- A carriage return at the beginning is one of a line end, which the other cases take off.
  have hhead {c : Char} {rest : List Char} (h : PairsReturns (c :: rest))
      (hreturn : ∀ more, c = '\r' → rest = '\n' :: more → False) : '\r' ≠ c := by
    rintro rfl
    obtain ⟨more, hmore⟩ := List.head?_eq_some_iff.mp (h [] rest rfl)
    exact hreturn more rfl hmore
  fun_induction lines s generalizing l with
  | case1 => exact absurd hl List.not_mem_nil
  | case2 rest ih =>
    rcases List.mem_cons.mp hl with rfl | hrest
    · exact List.not_mem_nil
    · exact ih (h.of_suffix (List.suffix_cons _ _)) hrest
  | case3 rest ih =>
    rcases List.mem_cons.mp hl with rfl | hrest
    · exact List.not_mem_nil
    · exact ih (h.of_suffix (List.suffix_append ['\r', '\n'] _)) hrest
  | case4 c rest hfeed hreturn hnil ih =>
    rw [List.mem_singleton.mp hl, List.mem_singleton]
    exact hhead h hreturn
  | case5 c rest hfeed hreturn line more hlines ih =>
    rw [hlines] at ih
    have hrest := h.of_suffix (List.suffix_cons c rest)
    rcases List.mem_cons.mp hl with rfl | hmore
    · rw [List.mem_cons, not_or]
      exact ⟨hhead h hreturn, ih hrest List.mem_cons_self⟩
    · exact ih hrest (List.mem_cons_of_mem line hmore)

theorem Comment.plainLine_subset (line : List Char) : plainLine line ⊆ line := by
  have hend (s : List Char) : trimEnd s ⊆ s := fun c hc =>
    List.mem_reverse.mp ((List.dropWhile_sublist _).subset (List.mem_reverse.mp hc))
  have hstart : trimStart line ⊆ line := (List.dropWhile_sublist _).subset
  unfold plainLine
  refine List.Subset.trans (hend _) ?_
  split
  · next rest heq => exact fun c hc => hstart (heq ▸ by simp [hc])
  · next rest _ heq => exact fun c hc => hstart (heq ▸ by simp [hc])
  · exact hstart

theorem Comment.mem_plainText {body : List Char} {c : Char} (h : c ∈ plainText body) :
    c = '\n' ∨ ∃ line ∈ lines body, c ∈ line := by
  rcases mem_intercalate ((infix_trim _).subset h) with hfeed | ⟨part, hpart, hc⟩
  · exact .inl (List.mem_singleton.mp hfeed)
  · obtain ⟨line, hline, rfl⟩ := List.mem_map.mp hpart
    exact .inr ⟨line, hline, plainLine_subset line hc⟩

/-! ## Doc comments -/

/-- The text of a doc comment. -/
def Located.comment? (l : Located) : Option (List Char) :=
  match l.token with
  | .docBlock text | .docLine text => some text
  | _ => none

/-- Line ends do not get into doc comments. -/
theorem PairsReturns.not_mem_comment {s text : List Char} (h : PairsReturns s) {l : Located}
    (hl : l ∈ tokens s) (htext : text ∈ l.comment?) : '\r' ∉ text := by
  obtain ⟨p, token⟩ := l
  unfold Located.comment? at htext
  split at htext
  · next htoken =>
    cases htext
    obtain rfl : token = .docBlock text := htoken
    obtain ⟨body, rest, rfl, ⟨front, hfront⟩, hrest⟩ := body_of_mem_docBlock hl
    have hbody : PairsReturns body := by
      intro first more hmore
      have hnext := h (front ++ first) (more ++ rest) (by rw [← hfront, hmore]; simp)
      cases more with
      | nil => exact absurd hnext hrest
      | cons c more => exact hnext
    intro hreturn
    rcases Comment.mem_plainText hreturn with hfeed | ⟨line, hline, hc⟩
    · exact absurd hfeed (by decide)
    · exact hbody.not_mem_lines hline hc
  · next htoken =>
    cases htext
    obtain rfl : token = .docLine text := htoken
    obtain ⟨hwithin, htrimmed, hfeed⟩ := infix_of_mem_docLine hl
    intro hreturn
    exact hfeed ((h.infix_pair hwithin (getLast?_ne_return htrimmed) hreturn).subset (by simp))
  · cases htext

/-! ## Briefs -/

/-- Nothing but spaces and characters of doc comments. -/
def IsCommentary (ts : List Located) (s : List Char) : Prop :=
  ∀ c ∈ s, c = ' ' ∨ ∃ l ∈ ts, ∃ text ∈ l.comment?, c ∈ text

theorem IsCommentary.mono {ts us : List Located} {s : List Char} (h : IsCommentary ts s)
    (hsub : ts ⊆ us) : IsCommentary us s := by
  intro c hc
  obtain hspace | ⟨l, hl, hrest⟩ := h c hc
  · exact .inl hspace
  · exact .inr ⟨l, hsub hl, hrest⟩

/-- What stands behind a tag on its line, without the blanks around it. -/
theorem subset_of_cut? {pat s front rest : List Char} (h : cut? pat s = some (front, rest)) :
    trim rest ⊆ s := by
  rw [eq_append_of_cut? h, ← List.append_assoc]
  exact List.Subset.trans (infix_trim rest).subset (List.subset_append_right _ rest)

namespace Block

theorem subset_of_mem_briefLines {ls : List (List Char)} {part : List Char}
    (h : part ∈ briefLines ls) : ∃ line ∈ ls, part ⊆ line := by
  induction ls with
  | nil => cases h
  | cons line ls ih =>
    rw [briefLines] at h
    split at h
    · cases h
    · rcases List.mem_cons.mp h with rfl | hmore
      · exact ⟨line, List.mem_cons_self, (infix_trim line).subset⟩
      · obtain ⟨l, hl, hsub⟩ := ih hmore
        exact ⟨l, List.mem_cons_of_mem line hl, hsub⟩

theorem subset_of_briefText (line : List Char) :
    ((cut? "@brief".toList line).map fun p => trim p.2).getD [] ⊆ line := by
  cases hcut : cut? "@brief".toList line with
  | none => exact List.nil_subset line
  | some p => exact subset_of_cut? hcut

theorem mem_brief? {text b : List Char} (h : brief? text = some b) :
    ∀ c ∈ b, c = ' ' ∨ c ∈ text := by
  unfold brief? at h
  split at h
  · cases h
  · next line rest hrest =>
    cases h
    have hmem : ∀ l ∈ line :: rest, l ⊆ text := fun l hl =>
      subset_of_mem_lines ((List.dropWhile_sublist _).subset (hrest ▸ hl))
    intro c hc
    obtain hspace | ⟨part, hpart, hc⟩ := mem_intercalate ((infix_trim _).subset hc)
    · exact .inl (List.mem_singleton.mp hspace)
    · rcases List.mem_cons.mp hpart with rfl | hmore
      · exact .inr (hmem line List.mem_cons_self (subset_of_briefText line hc))
      · obtain ⟨l, hl, hsub⟩ := subset_of_mem_briefLines hmore
        exact .inr (hmem l (List.mem_cons_of_mem line hl) (hsub hc))

end Block

section Step

variable {ts : List Located} {a b : Assembly} {l : Located} {p : PendingBrief}

theorem isCommentary_tag (h : briefEvent? ts l = some (.tag p)) :
    IsCommentary (ts ++ [l]) p.text := by
  have htag : l.tag? = some p := by
    unfold briefEvent? at h
    split at h
    · cases h
    split at h
    · cases h
    · simpa using h
  obtain ⟨q, token⟩ := l
  unfold Located.tag? at htag
  split at htag
  · next text htoken =>
    obtain ⟨b, hb, rfl⟩ := Option.map_eq_some_iff.mp htag
    intro c hc
    rcases Block.mem_brief? hb c hc with hspace | hmem
    · exact .inl hspace
    · exact .inr ⟨⟨q, token⟩, by simp, text, by simp_all [Located.comment?], hmem⟩
  · next text htoken =>
    obtain ⟨cut, hcut, rfl⟩ := Option.map_eq_some_iff.mp htag
    intro c hc
    exact .inr ⟨⟨q, token⟩, by simp, text, by simp_all [Located.comment?], subset_of_cut? hcut hc⟩
  · cases htag

theorem IsCommentary.extend (h : IsCommentary ts p.text) :
    IsCommentary (ts ++ [l]) (p.extend l).text := by
  have hsame := h.mono (List.subset_append_left ts [l])
  unfold PendingBrief.extend
  split
  · next text htext =>
    have hcomment : text ∈ l.comment? := by
      unfold Located.continuation? at htext
      split at htext
      · next line htoken =>
        split at htext
        · cases htext
          simp [Located.comment?, htoken]
        · cases htext
      · cases htext
    split
    · intro c hc
      rcases List.mem_append.mp hc with hold | hnew
      · exact hsame c hold
      · rcases List.mem_cons.mp hnew with hspace | hmem
        · exact .inl hspace
        · exact .inr ⟨l, by simp, text, hcomment, hmem⟩
    · exact hsame
  · exact hsame

/-- The brief that waits and those of the rows. -/
structure Commented (ts : List Located) (a : Assembly) : Prop where
  brief : ∀ p ∈ a.brief, IsCommentary ts p.text
  rows : ∀ r ∈ a.rows, ∀ b ∈ r.brief, IsCommentary ts b.toList

theorem Commented.add (h : Commented ts a) (hs : Assembly.SeesHeading ts a) (l : Located) :
    Commented (ts ++ [l]) (a.add l) := by
  have hsub := List.subset_append_left ts [l]
  have hbrief : ∀ p ∈ a.brief, IsCommentary (ts ++ [l]) p.text :=
    fun p hp => (h.brief p hp).mono hsub
  have hrows : ∀ r ∈ a.rows, ∀ b ∈ r.brief, IsCommentary (ts ++ [l]) b.toList :=
    fun r hr b hb => (h.rows r hr b hb).mono hsub
  have hnone : ∀ p ∈ (none : Option PendingBrief), IsCommentary (ts ++ [l]) p.text :=
    fun p hp => by cases hp
  have hadds := adds_add hs l
  generalize a.add l = b at hadds
  cases hadds with
  | heading => exact ⟨hbrief, hrows⟩
  | opening hm hg => exact ⟨hnone, Assembly.rows_openGroup a hg ▸ hrows⟩
  | closing hm => exact ⟨hnone, Assembly.rows_closeGroup a ▸ hrows⟩
  | tag he =>
    refine ⟨fun p hp => ?_, hrows⟩
    cases hp
    exact isCommentary_tag he
  | text he =>
    refine ⟨fun p hp => ?_, hrows⟩
    obtain ⟨p', hp', rfl⟩ := Option.map_eq_some_iff.mp hp
    exact (h.brief p' hp').extend
  | @row r hr =>
    refine ⟨?_, ?_⟩
    · rw [brief_addRow]
      exact hnone
    · intro r' hr' b hb
      rcases List.mem_append.mp ((Assembly.rows_addRow _ _).mem_iff.mp hr') with hold | hnew
      · exact hrows r' hold b hb
      · rw [List.mem_singleton.mp hnew] at hb
        obtain ⟨p, hp, rfl⟩ := Option.map_eq_some_iff.mp hb
        simpa using hbrief p hp
  | failure => exact ⟨hnone, hrows⟩

end Step

theorem commented_foldl (ts : List Located) : Commented ts (ts.foldl Assembly.add {}) := by
  induction ts using List.reverseRecOn with
  | nil => exact ⟨fun _ hp => (nomatch hp), List.forall_mem_nil _⟩
  | append_singleton ts l ih =>
    rw [List.foldl_append, List.foldl_cons, List.foldl_nil]
    exact ih.add (Assembly.files_foldl ts).2 l

/-! ## Literals -/

theorem Literal.mem_decodeBody? {s v : List Char} (h : decodeBody? s = some v) :
    ∀ c ∈ v, c ∈ s ∨ ∃ d, unescape d = c ∧ ['\\', d] <:+: s := by
  fun_induction decodeBody? s generalizing v with
  | case1 => cases h; exact List.forall_mem_nil _
  | case2 => cases h
  | case3 c rest ih =>
    obtain ⟨v', hv', rfl⟩ := Option.map_eq_some_iff.mp h
    refine List.forall_mem_cons.mpr ⟨.inr ⟨c, rfl, (List.prefix_append ['\\', c] rest).isInfix⟩, ?_⟩
    intro x hx
    rcases ih hv' x hx with hmem | ⟨d, hd, hpair⟩
    · exact .inl (by simp [hmem])
    · exact .inr ⟨d, hd, hpair.trans (List.suffix_append ['\\', c] rest).isInfix⟩
  | case4 c rest => cases h
  | case5 c rest hslash hquote hbare ih =>
    obtain ⟨v', hv', rfl⟩ := Option.map_eq_some_iff.mp h
    refine List.forall_mem_cons.mpr ⟨.inl List.mem_cons_self, fun x hx => ?_⟩
    rcases ih hv' x hx with hmem | ⟨d, hd, hpair⟩
    · exact .inl (List.mem_cons_of_mem c hmem)
    · exact .inr ⟨d, hd, hpair.trans (List.suffix_cons c rest).isInfix⟩

theorem Literal.mem_decode? {raw v : List Char} (h : decode? raw = some v) :
    ∀ c ∈ v, c ∈ raw ∨ ∃ d, unescape d = c ∧ ['\\', d] <:+: raw := by
  unfold decode? at h
  split at h
  · next rest =>
    split at h
    · next front hfront =>
      have hrest : rest = front.reverse ++ ['"'] := by
        rw [← List.reverse_reverse rest, hfront, List.reverse_cons]
      have hwithin : front.reverse <:+: '"' :: rest := ⟨['"'], ['"'], by simp [hrest]⟩
      intro c hc
      rcases mem_decodeBody? h c hc with hmem | ⟨d, hd, hpair⟩
      · exact .inl (hwithin.subset hmem)
      · exact .inr ⟨d, hd, hpair.trans hwithin⟩
    · cases h
  · cases h

/-- A literal stands for a text with a carriage return when it has one or has the escape for it. -/
theorem Literal.return_of_decode? {raw v : List Char} (h : decode? raw = some v)
    (hmem : '\r' ∈ v) : '\r' ∈ raw ∨ ['\\', 'r'] <:+: raw := by
  rcases mem_decode? h '\r' hmem with hraw | ⟨d, hd, hpair⟩
  · exact .inl hraw
  · unfold unescape at hd
    split at hd
    · cases hd
    · cases hd
    · exact .inr hpair
    · cases hd
    · exact .inl (hpair.subset (by simp [hd]))

/-! ## Rows -/

section Rows

variable {path text : String} {r : Row} (hr : r ∈ (parse path text).document.rows)

include hr

theorem return_not_mem_brief (h : PairsReturns text.toList) : '\r' ∉ (r.brief.getD "").toList := by
  cases hb : r.brief with
  | none => simp
  | some b =>
    intro hreturn
    have hrow := (rows_assemble path (tokens text.toList)).mem_iff.mp hr
    obtain hspace | ⟨l, hl, comment, hcomment, hmem⟩ :=
      (commented_foldl _).rows r hrow b hb '\r' hreturn
    · exact absurd hspace (by decide)
    · exact h.not_mem_comment hl hcomment hmem

/-- What a row has from its invocation, the node type apart, stands in the text. -/
theorem infix_of_field {field : String}
    (hfield : field ∈ [r.semanticType, r.nameExtraction, r.nativeExtraction, r.flags]) :
    field.toList <:+: text.toList ∧ Trimmed field.toList := by
  obtain ⟨raw, hrow, -⟩ := exists_invocation hr
  exact infix_of_mem_row hrow _
    (List.mem_cons_of_mem raw (List.mem_map_of_mem (f := String.toList) hfield))

theorem return_of_mem_rawType (hmem : '\r' ∈ r.rawType.toList) :
    '\r' ∈ text.toList ∨ ['\\', 'r'] <:+: text.toList := by
  obtain ⟨raw, hrow, hraw⟩ := exists_invocation hr
  obtain ⟨hwithin, -⟩ := infix_of_mem_row hrow raw List.mem_cons_self
  rcases Literal.return_of_decode? hraw hmem with hreturn | hescape
  · exact .inl (hwithin.subset hreturn)
  · exact .inr (hescape.trans hwithin)

end Rows

end NodeAtlas.Definition
