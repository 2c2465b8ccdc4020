import Mathlib.Data.List.Forall2
import NodeAtlas.Proofs.Definition.Tokens
import NodeAtlas.Proofs.Text.Lines

/-!
Block comments that are written line by line. Their text is the lines without what decorates them.
-/

namespace NodeAtlas.Definition

open Text

/-! ## Marks of two characters -/

/-- A pattern of two characters is in one of two parts or where they meet. -/
theorem pair_infix_append {a b : Char} {s t : List Char} (hs : ¬ [a, b] <:+: s)
    (ht : ¬ [a, b] <:+: t) (hmeet : s.getLast? ≠ some a ∨ t.head? ≠ some b) :
    ¬ [a, b] <:+: s ++ t := by
  induction s with
  | nil => exact ht
  | cons c s ih =>
    rw [List.infix_cons_iff, not_or] at hs
    rw [List.cons_append, List.infix_cons_iff, not_or]
    constructor
    · rintro ⟨more, hmore⟩
      cases s with
      | nil =>
        cases t with
        | nil => cases hmore
        | cons d t =>
          cases hmore
          rcases hmeet with h | h <;> exact h rfl
      | cons d s =>
        cases hmore
        exact hs.1 ⟨s, rfl⟩
    · refine ih hs.2 ?_
      cases s with
      | nil => exact .inl (by simp)
      | cons d s => simpa using hmeet

theorem pair_infix_cons {a b c : Char} {t : List Char} (hc : c ≠ a) (ht : ¬ [a, b] <:+: t) :
    ¬ [a, b] <:+: c :: t := by
  have hnil : ¬ [a, b] <:+: [c] := by
    intro h
    have hlen := h.length_le
    simp at hlen
  exact @pair_infix_append a b [c] t hnil ht (.inl (by simpa using hc))

namespace Comment

/-- A line as it is written in a block comment: behind a star and a space, or a bare star if it is
empty. -/
def Decorates (w l : List Char) : Prop := w = [' ', '*', ' '] ++ l ∨ l = [] ∧ w = [' ', '*']

/-- What stands between the marks of a block comment with lines of its own. -/
def body (ws : List (List Char)) : List Char := '\n' :: (endLines ws ++ [' '])

/-- A comment that none of its lines closes goes on to its end. -/
theorem closing_body {ws : List (List Char)} (h : ∀ w ∈ ws, ¬ ['*', '/'] <:+: w) :
    ¬ ['*', '/'] <:+: body ws := by
  have hlines : ¬ ['*', '/'] <:+: endLines ws ++ [' '] := by
    induction ws with
    | nil => decide
    | cons w ws ih =>
      obtain ⟨hw, hws⟩ := List.forall_mem_cons.mp h
      rw [endLines_cons, List.append_assoc, List.cons_append]
      -- A star at the end of a line is before a line feed.
      exact pair_infix_append hw (pair_infix_cons (by decide) (ih hws)) (.inr (by simp))
  exact pair_infix_cons (by decide) hlines

/-- The text of a comment is its lines, as far as they are trimmed as a whole. -/
theorem plainText_body {ws ls : List (List Char)} (hline : ∀ w ∈ ws, IsLine w)
    (hplain : ws.map plainLine = ls) (htrimmed : Trimmed (unlines ls)) (hne : unlines ls ≠ []) :
    plainText (body ws) = unlines ls := by
  have hlines : (Text.lines (body ws)).map plainLine = [] :: (ls ++ [[]]) := by
    have hbody : Text.lines (body ws) = [] :: Text.lines (endLines ws ++ [' ']) := rfl
    rw [hbody, lines_endLines_append hline, List.map_cons, List.map_append, hplain]
    rfl
  -- The lines of the opening and the closing mark are empty, and trimming takes them away.
  have htext : unlines ([] :: (ls ++ [[]])) = ['\n'] ++ (unlines ls ++ ['\n']) := by
    obtain ⟨l, more, rfl⟩ := List.exists_cons_of_ne_nil (fun h : ls = [] => hne (by rw [h]; rfl))
    rw [← List.cons_append, unlines_concat_nil (List.cons_ne_nil _ _), unlines_cons_cons]
    rfl
  rw [plainText, hlines, htext]
  exact trim_append (by simp [isBlank]) (by simp [isBlank]) htrimmed hne

theorem plainLine_decorated (l : List Char) : plainLine ([' ', '*', ' '] ++ l) = trimEnd l := by
  have hstart : trimStart ([' ', '*', ' '] ++ l) = '*' :: ' ' :: l := rfl
  simp only [plainLine, hstart]

namespace Decorates

variable {w l : List Char}

theorem plainLine (h : Decorates w l) (hl : ∀ c ∈ l.getLast?, isBlank c = false) :
    plainLine w = l := by
  rcases h with rfl | ⟨rfl, rfl⟩
  · rw [plainLine_decorated, trimEnd_of_trimmed hl]
  · decide

theorem isLine (h : Decorates w l) (hl : IsLine l) : IsLine w := by
  rcases h with rfl | ⟨rfl, rfl⟩
  · obtain ⟨hfeed, hlast⟩ := hl
    refine ⟨by simpa using hfeed, ?_⟩
    by_cases hne : l = []
    · rw [hne]
      decide
    · rwa [List.getLast?_append_of_ne_nil _ hne]
  · exact ⟨by decide, by decide⟩

theorem closing (h : Decorates w l) (hl : ¬ ['*', '/'] <:+: l) : ¬ ['*', '/'] <:+: w := by
  rcases h with rfl | ⟨rfl, rfl⟩
  · exact pair_infix_append (by decide) hl (.inl (by decide))
  · decide

end Decorates

/-- A line that a comment can have, and that reads as it stands. -/
structure IsPlain (l : List Char) : Prop where
  feed : '\n' ∉ l
  closing : ¬ ['*', '/'] <:+: l
  solid : ∀ c ∈ l.getLast?, isBlank c = false

theorem IsPlain.isLine {l : List Char} (h : IsPlain l) : IsLine l :=
  ⟨h.feed, fun hlast => absurd (h.solid '\r' hlast) (by decide)⟩

section Written

variable {ws ls : List (List Char)} (h : List.Forall₂ Decorates ws ls) (hls : ∀ l ∈ ls, IsPlain l)

include h hls

theorem map_plainLine : ws.map plainLine = ls := by
  induction h with
  | nil => rfl
  | cons hw _ ih =>
    obtain ⟨hl, hls⟩ := List.forall_mem_cons.mp hls
    rw [List.map_cons, hw.plainLine hl.solid, ih hls]

theorem written_of_decorates : ∀ w ∈ ws, IsLine w ∧ ¬ ['*', '/'] <:+: w := by
  induction h with
  | nil => exact List.forall_mem_nil _
  | cons hw _ ih =>
    obtain ⟨hl, hls⟩ := List.forall_mem_cons.mp hls
    exact List.forall_mem_cons.mpr ⟨⟨hw.isLine hl.isLine, hw.closing hl.closing⟩, ih hls⟩

/-- A comment that is written line by line is one token with its lines. -/
theorem chunk_written (htrimmed : Trimmed (unlines ls)) (hne : unlines ls ≠ []) (fresh : Bool)
    (rest : List Char) : chunk fresh (blockText (body ws) ++ rest) =
      ⟨some (.docBlock (unlines ls)), (blockText (body ws)).length⟩ := by
  have hwritten := written_of_decorates h hls
  have hslash : (body ws).head? ≠ some '/' := by
    intro hhead
    cases hhead
  rw [chunk_docBlock (closing_body fun w hw => (hwritten w hw).2) hslash,
    plainText_body (fun w hw => (hwritten w hw).1) (map_plainLine h hls) htrimmed hne]

end Written

end Comment

end NodeAtlas.Definition
