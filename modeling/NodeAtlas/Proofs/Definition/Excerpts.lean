import NodeAtlas.Proofs.Definition.Arguments
import NodeAtlas.Proofs.Definition.SourceOrder
import NodeAtlas.Proofs.Text.Lines

/-!
What tokens have from their text. Every token is what some chunk of the text means, the arguments of a
row stand in the text as they are, and each row of a document has its fields from one invocation.
-/

namespace NodeAtlas.Definition

open Text

/-! ## Arguments -/

theorem Literal.prefix_body (quote : Char) (s : List Char) : (body quote s).1 <+: s := by
  fun_induction body quote s with
  | case1 => exact List.prefix_refl _
  | case2 => exact List.prefix_refl _
  | case3 c rest b closed heq ih =>
    rw [heq] at ih
    exact List.cons_prefix_cons.mpr ⟨rfl, List.cons_prefix_cons.mpr ⟨rfl, ih⟩⟩
  | case4 => exact List.cons_prefix_cons.mpr ⟨rfl, List.nil_prefix⟩
  | case5 => exact List.cons_prefix_cons.mpr ⟨rfl, List.nil_prefix⟩
  | case6 c rest _ _ _ _ b closed heq ih =>
    rw [heq] at ih
    exact List.cons_prefix_cons.mpr ⟨rfl, ih⟩

/-- A closed literal is a part of the text. -/
theorem literalLength_le {s : List Char} {n : Nat} (h : literalLength s = (n, true)) :
    0 < n ∧ n ≤ s.length := by
  cases s with
  | nil => cases h
  | cons quote rest =>
    have hle := (Literal.prefix_body quote rest).length_le
    unfold literalLength at h
    dsimp only at h
    split at h
    · obtain ⟨rfl, -⟩ := Prod.mk.inj h
      exact ⟨Nat.succ_pos _, Nat.succ_le_succ hle⟩
    · cases h

theorem arguments_quoted {s : List Char} {c : Char} {rest : List Char} (hs : s = c :: rest)
    (hc : c = '"' ∨ c = '\'') {n : Nat} (hn : literalLength s = (n, true)) (depth : Nat) :
    arguments depth s = extend (s.take n) (arguments depth (s.drop n)) := by
  subst hs
  obtain ⟨hpos, hle⟩ := literalLength_le hn
  obtain ⟨m, rfl⟩ := Nat.exists_eq_succ_of_ne_zero (Nat.ne_of_gt hpos)
  rw [arguments.eq_def]
  simp only [hc, hn, if_true, Nat.succ_eq_add_one, Nat.add_sub_cancel, List.drop_succ_cons, extend,
    List.length_take, Nat.min_eq_left hle, Nat.add_comm (m + 1)]

theorem intercalate_prepend (w : List Char) {args : List (List Char)} (h : args ≠ []) :
    [','].intercalate (prepend w args) = w ++ [','].intercalate args := by
  cases args with
  | nil => exact absurd rfl h
  | cons arg args => cases args <;> simp [prepend, List.intercalate_cons_cons]

/-- What has been read, when these are the arguments: they themselves with their commas, and the
closing parenthesis. -/
def Reads (s : List Char) (r : Option (List (List Char)) × Nat) : Prop :=
  ∀ args ∈ r.1, args ≠ [] ∧ [','].intercalate args ++ [')'] = s.take r.2

theorem Reads.extend {s : List Char} {r : Option (List (List Char)) × Nat} (h : Reads s r)
    (w : List Char) : Reads (w ++ s) (Definition.extend w r) := by
  intro args hargs
  obtain ⟨args', hargs', rfl⟩ := Option.map_eq_some_iff.mp hargs
  obtain ⟨hne, heq⟩ := h args' hargs'
  refine ⟨?_, ?_⟩
  · cases args' <;> simp [prepend]
  · rw [intercalate_prepend w hne, List.append_assoc, heq, Definition.extend, Nat.add_comm,
      List.take_length_add_append]

/-- Arguments are read as they stand. -/
theorem reads_arguments (depth : Nat) (s : List Char) : Reads s (arguments depth s) := by
  induction depth, s using arguments.induct with
  | case1 depth =>
    rw [arguments]
    exact fun args hargs => by cases hargs
  | case2 depth c rest hc n args m heq hn ih =>
    obtain ⟨hpos, -⟩ := literalLength_le hn
    obtain ⟨k, rfl⟩ := Nat.exists_eq_succ_of_ne_zero (Nat.ne_of_gt hpos)
    rw [arguments_quoted rfl hc hn]
    have hread := ih.extend ((c :: rest).take (k + 1))
    rwa [Nat.succ_sub_one, ← List.drop_succ_cons (a := c), List.take_append_drop] at hread
  | case3 depth c rest hc n closed hclosed hn =>
    obtain rfl : closed = false := by simpa using hclosed
    rw [arguments_broken hc hn]
    exact fun args hargs => by cases hargs
  | case4 depth rest args m heq hc ih =>
    rw [arguments_opening]
    exact ih.extend ['(']
  | case5 rest =>
    rw [arguments_last]
    intro args hargs
    cases hargs
    exact ⟨List.cons_ne_nil _ _, rfl⟩
  | case6 rest depth args m heq hc hopen ih =>
    rw [arguments_closing]
    exact ih.extend [')']
  | case7 depth c rest hc hopen hclose hcomma args m heq ih =>
    obtain ⟨rfl, rfl⟩ := hcomma
    rw [arguments_comma]
    intro args hargs
    obtain ⟨args', hargs', rfl⟩ := Option.map_eq_some_iff.mp hargs
    obtain ⟨hne, hread⟩ := ih args' hargs'
    refine ⟨List.cons_ne_nil _ _, ?_⟩
    obtain ⟨arg, more, rfl⟩ := List.exists_cons_of_ne_nil hne
    rw [List.intercalate_cons_cons, List.nil_append, List.append_assoc, hread]
    rfl
  | case8 depth c rest hc hopen hclose hcomma args m heq ih =>
    rw [arguments_plain (not_or.mp hc) hopen hclose (Decidable.not_and_iff_or_not.mp hcomma)]
    exact ih.extend [c]

/-! ## Tokens -/

/-- What the beginning of a text means, by the text. -/
inductive Means (s : List Char) : Token → Prop where
  | docBlock {rest : List Char} (h : s = '/' :: '*' :: '*' :: rest) :
      Means s (.docBlock (Comment.plainText (blockBody rest).1))
  | docLine {text : List Char} (h : restOfLine s = '/' :: '/' :: '/' :: text) :
      Means s (.docLine (trim text))
  | row {args : List (List Char)} {rest : List Char} (hrest : rest <:+ s)
      (h : (arguments 0 rest).1 = some args) : Means s (.row (args.map trim))
  | malformed {text : List Char} : Means s (.malformed text)

section Means

variable {s : List Char} {token : Token}

theorem means_blockComment (h : (blockComment s).token = some token) : Means s token := by
  unfold blockComment at h
  split at h
  · cases h
  · cases h
    exact .docBlock rfl
  · cases h
  · cases h

theorem means_lineComment (h : (lineComment s).token = some token) : Means s token := by
  unfold lineComment at h
  dsimp only at h
  split at h
  · cases h
  · next hline =>
    cases h
    exact .docLine hline
  · cases h

theorem means_word (h : (word s).token = some token) : Means s token := by
  unfold word invocation at h
  dsimp only at h
  split at h
  · split at h
    · next rest hrest =>
      have hsuffix : rest <:+ s := ((List.suffix_cons '(' rest).trans
        (hrest ▸ List.drop_suffix _ _)).trans (List.drop_suffix _ s)
      split at h
      · next args hargs =>
        cases h
        exact .row hsuffix hargs
      · cases h
        exact .malformed
    · cases h
  · cases h

theorem means_chunk {fresh : Bool} (h : (chunk fresh s).token = some token) : Means s token := by
  unfold chunk at h
  split at h
  · exact means_blockComment h
  · exact means_lineComment h
  · split at h
    · cases h
    split at h
    · cases h
    split at h
    · exact means_word h
    · cases h
  · cases h

end Means

section Tokens

variable {p q : Position} {fresh : Bool} {s : List Char}

/-- Every token is what the text means somewhere. -/
theorem means_of_mem {token : Token} (h : ⟨p, token⟩ ∈ tokensFrom q fresh s) :
    ∃ rest, rest <:+ s ∧ Means rest token := by
  fun_induction tokensFrom q fresh s with
  | case1 => exact absurd h List.not_mem_nil
  | case2 q fresh s hs k n more token' htoken ih =>
    rcases List.mem_cons.mp h with heq | hmore
    · cases heq
      exact ⟨s, List.suffix_refl s, means_chunk htoken⟩
    · obtain ⟨rest, hrest, hmeans⟩ := ih hmore
      exact ⟨rest, hrest.trans (List.drop_suffix _ _), hmeans⟩
  | case3 q fresh s hs k n more htoken ih =>
    obtain ⟨rest, hrest, hmeans⟩ := ih h
    exact ⟨rest, hrest.trans (List.drop_suffix _ _), hmeans⟩

/-- The arguments of a row stand in the text, each with some blanks around it. -/
theorem infix_of_mem_row {args : List (List Char)} (h : ⟨p, .row args⟩ ∈ tokensFrom q fresh s) :
    ∀ arg ∈ args, arg <:+: s ∧ Trimmed arg := by
  obtain ⟨rest, hrest, hmeans⟩ := means_of_mem h
  cases hmeans with
  | @row args more hmore hargs =>
    obtain ⟨-, hread⟩ := reads_arguments 0 more args hargs
    have hfront : [','].intercalate args <+: more :=
      (List.prefix_append _ [')']).trans (hread ▸ List.take_prefix _ more)
    have htext := hfront.isInfix.trans (hmore.trans hrest).isInfix
    intro arg harg
    obtain ⟨w, hw, rfl⟩ := List.mem_map.mp harg
    exact ⟨((infix_trim w).trans (infix_intercalate hw)).trans htext, trimmed_trim w⟩

/-- The text of a doc block is that of a body that stands in the text and goes up to its closing mark
or to the end. -/
theorem body_of_mem_docBlock {text : List Char} (h : ⟨p, .docBlock text⟩ ∈ tokensFrom q fresh s) :
    ∃ body rest, text = Comment.plainText body ∧ body ++ rest <:+ s ∧ rest.head? ≠ some '\n' := by
  obtain ⟨rest, hrest, hmeans⟩ := means_of_mem h
  cases hmeans with
  | @docBlock more heq =>
    have hopened : more <:+ rest := ⟨['/', '*', '*'], heq.symm⟩
    have hmore := hopened.trans hrest
    unfold blockBody
    split
    · next body after hcut => exact ⟨body, _, rfl, eq_append_of_cut? hcut ▸ hmore, by simp⟩
    · exact ⟨more, [], rfl, by rwa [List.append_nil], by simp⟩

/-- The text of a doc line stands in the text, with some blanks around it. -/
theorem infix_of_mem_docLine {text : List Char} (h : ⟨p, .docLine text⟩ ∈ tokensFrom q fresh s) :
    text <:+: s ∧ Trimmed text ∧ '\n' ∉ text := by
  obtain ⟨rest, hrest, hmeans⟩ := means_of_mem h
  cases hmeans with
  | @docLine line hslashes =>
    have hsuffix : line <:+ restOfLine rest := ⟨['/', '/', '/'], hslashes.symm⟩
    have hwithin : line <:+: s :=
      (hsuffix.isInfix.trans (List.takeWhile_prefix _).isInfix).trans hrest.isInfix
    refine ⟨(infix_trim line).trans hwithin, trimmed_trim line, fun hfeed => ?_⟩
    have hmem := hsuffix.subset ((infix_trim line).subset hfeed)
    simpa using List.all_eq_true.mp List.all_takeWhile '\n' hmem

end Tokens

/-! ## Rows -/

/-- A row of a document is what some invocation says. -/
theorem exists_invocation {path text : String} {r : Row}
    (h : r ∈ (parse path text).document.rows) : ∃ raw,
      ⟨r.position, .row [raw, r.semanticType.toList, r.nameExtraction.toList,
        r.nativeExtraction.toList, r.flags.toList]⟩ ∈ tokens text.toList ∧
      Literal.decode? raw = some r.rawType.toList := by
  have hbare : r.bare ∈ (tokens text.toList).filterMap (row? none) :=
    bare_rows path text ▸ List.mem_map_of_mem h
  obtain ⟨⟨p, t⟩, hl, hrow⟩ := List.mem_filterMap.mp hbare
  unfold row? at hrow
  split at hrow
  · next raw semanticType nameExtraction nativeExtraction flags heq =>
    obtain ⟨rawType, hraw, hr⟩ := Option.map_eq_some_iff.mp hrow
    cases heq
    simp only [Row.bare, Row.mk.injEq, true_and] at hr
    obtain ⟨hrawType, hsemantic, hname, hnative, hflags, hposition⟩ := hr
    refine ⟨raw, ?_, ?_⟩
    · simpa [← hsemantic, ← hname, ← hnative, ← hflags, ← hposition] using hl
    · simpa [← hrawType] using hraw
  · cases hrow

end NodeAtlas.Definition
