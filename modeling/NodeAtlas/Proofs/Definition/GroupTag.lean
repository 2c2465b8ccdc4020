import Mathlib.Data.List.TakeWhile
import NodeAtlas.Definition.Block
import NodeAtlas.Proofs.Text.Trim

/-!
Reading a group tag. What stands in front of the tag is passed over, and the first line behind the
name that has more than blanks is the title, whichever line that is.
-/

namespace NodeAtlas

namespace Text

/-- The first line with more than blanks, trimmed. -/
def firstLine (s : List Char) : List Char := trim ((s.dropWhile isBlank).takeWhile (· ≠ '\n'))

theorem firstLine_blanks {gap : List Char} (h : AllBlank gap) (s : List Char) :
    firstLine (gap ++ s) = firstLine s := by
  rw [firstLine, List.dropWhile_append_of_pos h, firstLine]

theorem firstLine_append {line more : List Char} (hline : '\n' ∉ line)
    (hmore : ∀ c ∈ more.head?, c = '\n') (h : trim line ≠ []) :
    firstLine (line ++ more) = trim line := by
  obtain ⟨v, w, hv, hw, heq⟩ := exists_trim line
  have hsolid : ∀ c ∈ (trim line ++ (w ++ more)).head?, isBlank c = false := by
    obtain ⟨d, rest, hd⟩ := List.exists_cons_of_ne_nil h
    have hhead := (trimmed_trim line).1
    rw [hd] at hhead ⊢
    exact hhead
  have hsplit : line ++ more = v ++ (trim line ++ (w ++ more)) := by
    conv_lhs => rw [heq]
    simp only [List.append_assoc]
  have htake : (trim line ++ (w ++ more)).takeWhile (· ≠ '\n') = trim line ++ w := by
    rw [← List.append_assoc]
    apply takeWhile_append_stop
    · intro c hc
      have hmem : c ∈ line := heq ▸ List.mem_append_right v hc
      simpa using ne_of_mem_of_not_mem hmem hline
    · intro c hc
      simpa using hmore c hc
  have htrim : trim (trim line ++ w) = trim line :=
    (trim_blanks allBlank_nil hw).trans (trim_of_trimmed (trimmed_trim line))
  rw [firstLine, hsplit, dropWhile_append_stop hv hsolid, htake, htrim]

/-- The first line of a text that has more than blanks, in what stands before and behind it. -/
structure IsFirstLine (gap line more : List Char) : Prop where
  blank : AllBlank gap
  begins : ∀ c ∈ gap.getLast?, c = '\n'
  unbroken : '\n' ∉ line
  ends : ∀ c ∈ more.head?, c = '\n'
  solid : trim line ≠ []

theorem IsFirstLine.firstLine_eq {gap line more : List Char} (h : IsFirstLine gap line more) :
    firstLine (gap ++ (line ++ more)) = trim line := by
  rw [firstLine_blanks h.blank, firstLine_append h.unbroken h.ends h.solid]

theorem trim_ne_nil {s : List Char} (h : ¬ AllBlank s) : trim s ≠ [] := by
  intro hnil
  obtain ⟨v, w, hv, hw, heq⟩ := exists_trim s
  rw [hnil, List.nil_append] at heq
  exact h (heq ▸ allBlank_append.mpr ⟨hv, hw⟩)

theorem not_allBlank_of_trim {s : List Char} (h : trim s ≠ []) : ¬ AllBlank s :=
  fun hs => h (trim_of_allBlank hs)

theorem exists_isFirstLine {s : List Char} (h : ¬ AllBlank s) :
    ∃ gap line more, s = gap ++ (line ++ more) ∧ IsFirstLine gap line more := by
  induction s with
  | nil => exact absurd allBlank_nil h
  | cons c s ih =>
    cases hc : isBlank c with
    | false =>
      -- The line begins here and goes on to the next line feed.
      have hfeed : c ≠ '\n' := by
        rintro rfl
        cases hc
      refine ⟨[], c :: s.takeWhile (· ≠ '\n'), s.dropWhile (· ≠ '\n'), ?_,
        allBlank_nil, by simp, ?_, ?_, ?_⟩
      · rw [List.nil_append, List.cons_append, List.takeWhile_append_dropWhile]
      · rw [List.mem_cons, not_or]
        refine ⟨hfeed.symm, fun hmem => ?_⟩
        simpa using List.all_eq_true.mp List.all_takeWhile '\n' hmem
      · intro d hd
        have hnot := List.head?_dropWhile_not (fun c : Char => decide (c ≠ '\n')) s
        rw [Option.mem_def] at hd
        rw [hd] at hnot
        simpa using hnot
      · refine trim_ne_nil fun hall => ?_
        rw [hall c List.mem_cons_self] at hc
        cases hc
    | true =>
      have hs : ¬ AllBlank s := fun hs => h (List.forall_mem_cons.mpr ⟨hc, hs⟩)
      obtain ⟨gap, line, more, rfl, hfirst⟩ := ih hs
      by_cases hline : gap = [] ∧ c ≠ '\n'
      · -- A blank on the line itself.
        obtain ⟨rfl, hfeed⟩ := hline
        refine ⟨[], c :: line, more, rfl, allBlank_nil, by simp, ?_, hfirst.ends, ?_⟩
        · rw [List.mem_cons, not_or]
          exact ⟨hfeed.symm, hfirst.unbroken⟩
        · exact trim_ne_nil fun hall =>
            not_allBlank_of_trim hfirst.solid (List.forall_mem_cons.mp hall).2
      · refine ⟨c :: gap, line, more, rfl, List.forall_mem_cons.mpr ⟨hc, hfirst.blank⟩, ?_,
          hfirst.unbroken, hfirst.ends, hfirst.solid⟩
        intro d hd
        cases gap with
        | nil =>
          cases hd
          simpa using hline
        | cons e gap => exact hfirst.begins d (by simpa using hd)

end Text

namespace Definition.Block

open Text

theorem groupTag?_of_not_prefix {s : List Char} (h : ¬ "@defgroup".toList <+: s) :
    groupTag? s = none := by
  rw [groupTag?, dropStem?_eq_none_iff.mpr h]
  rfl

theorem firstGroup?_cons {c : Char} {s : List Char} (h : ¬ "@defgroup".toList <+: c :: s) :
    firstGroup? (c :: s) = firstGroup? s := by
  rw [firstGroup?, groupTag?_of_not_prefix h]

/-- No tag begins within what has no at sign. -/
theorem firstGroup?_append {w : List Char} (h : '@' ∉ w) (s : List Char) :
    firstGroup? (w ++ s) = firstGroup? s := by
  induction w with
  | nil => rfl
  | cons c w ih =>
    rw [List.mem_cons, not_or] at h
    rw [List.cons_append, firstGroup?_cons, ih h.2]
    rintro ⟨rest, heq⟩
    exact h.1 (List.cons.inj heq).1

/-- A text is read from its first tag on. -/
theorem firstGroup?_of_cut? {s front rest : List Char}
    (h : cut? "@defgroup".toList s = some (front, rest)) :
    firstGroup? s = (groupTag? ("@defgroup".toList ++ rest)).or (firstGroup? rest) := by
  induction s generalizing front with
  | nil => cases h
  | cons c s ih =>
    rw [cut?] at h
    split at h
    · next after hafter =>
      cases h
      have htag : c :: s = '@' :: ("defgroup".toList ++ rest) := dropStem?_eq_some_iff.mp hafter
      have hrest : firstGroup? ("defgroup".toList ++ rest) = firstGroup? rest :=
        firstGroup?_append (by decide) rest
      have htext : "@defgroup".toList ++ rest = '@' :: ("defgroup".toList ++ rest) := rfl
      rw [htag, htext, firstGroup?, hrest]
      cases groupTag? ('@' :: ("defgroup".toList ++ rest)) <;> rfl
    · next hnone =>
      obtain ⟨⟨front', rest'⟩, hcut, heq⟩ := Option.map_eq_some_iff.mp h
      cases heq
      rw [firstGroup?_cons (dropStem?_eq_none_iff.mp hnone), ih hcut]

/-- What a tag with a name gives, by what stands behind the name. -/
theorem groupTag?_append {gap name rest : List Char} (hgap : AllBlank gap) (hgap_ne : gap ≠ [])
    (hname : ∀ c ∈ name, isWordChar c = true) (hname_ne : name ≠ [])
    (hrest : ∀ c ∈ rest.head?, isWordChar c = false) :
    groupTag? ("@defgroup".toList ++ (gap ++ (name ++ rest))) =
      if rest.head?.any isBlank ∧ ¬ AllBlank rest then some (name, firstLine rest) else none := by
  have hstem := dropStem?_append "@defgroup".toList (gap ++ (name ++ rest))
  have hsolid : ∀ c ∈ (name ++ rest).head?, isBlank c = false := by
    obtain ⟨c, more, rfl⟩ := List.exists_cons_of_ne_nil hname_ne
    intro d hd
    cases hd
    exact isBlank_of_isWordChar (hname c List.mem_cons_self)
  have hhead : (gap ++ (name ++ rest)).head?.any isBlank = true := by
    obtain ⟨c, more, rfl⟩ := List.exists_cons_of_ne_nil hgap_ne
    exact hgap c List.mem_cons_self
  have htitle : rest.dropWhile isBlank = [] ↔ AllBlank rest := List.dropWhile_eq_nil_iff
  rw [groupTag?, hstem]
  simp only [Option.bind_eq_bind, Option.bind_some, dropWhile_append_stop hgap hsolid,
    takeWhile_append_stop hname hrest, dropWhile_append_stop hname hrest, hhead, Bool.and_eq_true,
    decide_eq_true_eq, ne_eq, hname_ne, htitle, not_false_eq_true, true_and, firstLine]

end Definition.Block

end NodeAtlas
