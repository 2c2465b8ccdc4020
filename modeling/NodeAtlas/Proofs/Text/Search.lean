import Mathlib.Data.List.Basic
import NodeAtlas.Text.Search

/-!
Where scanning stops: at the first character that fails a test, and at the first occurrence of a
pattern.
-/

namespace NodeAtlas.Text

section Scan

variable {α : Type} {p : α → Bool} {w rest : List α}

theorem takeWhile_append_stop (hw : ∀ c ∈ w, p c = true) (hrest : ∀ c ∈ rest.head?, p c = false) :
    (w ++ rest).takeWhile p = w := by
  rw [List.takeWhile_append_of_pos hw]
  cases rest with
  | nil => simp
  | cons c rest => simp [hrest c (by simp)]

theorem dropWhile_append_stop (hw : ∀ c ∈ w, p c = true) (hrest : ∀ c ∈ rest.head?, p c = false) :
    (w ++ rest).dropWhile p = rest := by
  rw [List.dropWhile_append_of_pos hw]
  cases rest with
  | nil => rfl
  | cons c rest => simp [hrest c (by simp)]

end Scan

theorem dropStem?_eq_some_iff {stem s rest : List Char} :
    dropStem? stem s = some rest ↔ s = stem ++ rest := by
  rw [dropStem?, List.isPrefixOf?_eq_some_iff_append_eq, eq_comm]

theorem dropStem?_append (stem s : List Char) : dropStem? stem (stem ++ s) = some s :=
  dropStem?_eq_some_iff.mpr rfl

theorem dropStem?_eq_none_iff {stem s : List Char} : dropStem? stem s = none ↔ ¬ stem <+: s := by
  constructor
  · rintro h ⟨rest, rfl⟩
    rw [dropStem?_append] at h
    cases h
  · intro h
    cases hs : dropStem? stem s with
    | none => rfl
    | some rest => exact absurd ⟨rest, (dropStem?_eq_some_iff.mp hs).symm⟩ h

theorem dropStem_append (stem s : List Char) : dropStem stem (stem ++ s) = s := by
  rw [dropStem, dropStem?_append, Option.getD_some]

theorem dropStem_eq_self {stem s : List Char} (h : ¬ stem <+: s) : dropStem stem s = s := by
  rw [dropStem, dropStem?_eq_none_iff.mpr h, Option.getD_none]

/-- What is dropped is the stem or nothing. -/
theorem exists_dropStem (stem s : List Char) :
    ∃ front ∈ [[], stem], s = front ++ dropStem stem s := by
  by_cases h : stem <+: s
  · obtain ⟨rest, rfl⟩ := h
    exact ⟨stem, by simp, by rw [dropStem_append]⟩
  · exact ⟨[], by simp, by rw [dropStem_eq_self h, List.nil_append]⟩

/-- A pattern that comes first is found there. -/
theorem cut?_stem {pat : List Char} (hne : pat ≠ []) (s : List Char) :
    cut? pat (pat ++ s) = some ([], s) := by
  have hstem := dropStem?_append pat s
  obtain ⟨c, rest, rfl⟩ := List.exists_cons_of_ne_nil hne
  rw [List.cons_append] at hstem ⊢
  rw [cut?, hstem]

theorem cut?_eq_none_iff {pat s : List Char} : cut? pat s = none ↔ ¬ pat <:+: s := by
  induction s with
  | nil => simp [cut?]
  | cons c rest ih =>
    rw [cut?, List.infix_cons_iff]
    split
    · next after hafter =>
      have hpre : pat <+: c :: rest := ⟨after, (dropStem?_eq_some_iff.mp hafter).symm⟩
      simp [hpre]
    · next hnone =>
      have hpre := dropStem?_eq_none_iff.mp hnone
      simp [hpre, ih]

theorem occursIn_iff {pat s : List Char} : occursIn pat s = true ↔ pat <:+: s := by
  rw [occursIn, Option.isSome_iff_ne_none, ne_eq, cut?_eq_none_iff, Classical.not_not]

theorem occursIn_eq_false_iff {pat s : List Char} : occursIn pat s = false ↔ ¬ pat <:+: s := by
  rw [← occursIn_iff, Bool.not_eq_true]

/-- A text is what stands before the pattern, the pattern, and what stands behind it. -/
theorem eq_append_of_cut? {pat s front rest : List Char} (h : cut? pat s = some (front, rest)) :
    s = front ++ (pat ++ rest) := by
  induction s generalizing front with
  | nil =>
    rw [cut?] at h
    split at h
    · next hpat =>
      cases h
      rw [hpat]
      rfl
    · cases h
  | cons c s ih =>
    rw [cut?] at h
    split at h
    · next after hafter =>
      cases h
      rw [List.nil_append]
      exact dropStem?_eq_some_iff.mp hafter
    · obtain ⟨⟨front', rest'⟩, hcut, heq⟩ := Option.map_eq_some_iff.mp h
      cases heq
      rw [ih hcut, List.cons_append]

/-- What stands before the first occurrence has none. -/
theorem not_infix_of_cut? {pat s front rest : List Char} (hne : pat ≠ [])
    (h : cut? pat s = some (front, rest)) : ¬ pat <:+: front := by
  induction s generalizing front with
  | nil =>
    rw [cut?, if_neg hne] at h
    cases h
  | cons c s ih =>
    rw [cut?] at h
    split at h
    · cases h
      simpa using hne
    · next hnone =>
      obtain ⟨⟨front', rest'⟩, hcut, heq⟩ := Option.map_eq_some_iff.mp h
      cases heq
      have hfront : c :: front' <+: c :: s := ⟨pat ++ rest', by
        rw [List.cons_append, ← eq_append_of_cut? hcut]⟩
      rw [List.infix_cons_iff, not_or]
      exact ⟨fun hpat => dropStem?_eq_none_iff.mp hnone (hpat.trans hfront), ih hcut⟩

/-- An occurrence that comes first would end before the last character of the pattern. -/
theorem cut?_append {front body : List Char} {c : Char} (h : ¬ front ++ [c] <:+: body ++ front)
    (rest : List Char) :
    cut? (front ++ [c]) (body ++ (front ++ c :: rest)) = some (body, rest) := by
  have happ : front ++ c :: rest = (front ++ [c]) ++ rest := by simp
  induction body with
  | nil =>
    have hstem := dropStem?_append (front ++ [c]) rest
    rw [← happ] at hstem
    rw [List.nil_append]
    cases hs : front ++ c :: rest with
    | nil => simp at hs
    | cons d more => rw [cut?, ← hs, hstem]
  | cons d body ih =>
    rw [List.cons_append, List.infix_cons_iff, not_or] at h
    have hnone : dropStem? (front ++ [c]) (d :: (body ++ (front ++ c :: rest))) = none := by
      rw [dropStem?_eq_none_iff]
      intro hpre
      have hlong : d :: (body ++ front) <+: d :: (body ++ (front ++ c :: rest)) := by
        exact ⟨c :: rest, by simp⟩
      have hlen : (front ++ [c]).length ≤ (d :: (body ++ front)).length := by simp
      exact h.1 (List.prefix_of_prefix_length_le hpre hlong hlen)
    rw [List.cons_append, cut?, hnone, ih h.2]
    rfl

/-- The mark that closes a block comment is found behind a body without it. -/
theorem cut?_closingMark {body : List Char} (h : ¬ ['*', '/'] <:+: body) (rest : List Char) :
    cut? ['*', '/'] (body ++ '*' :: '/' :: rest) = some (body, rest) := by
  refine @cut?_append ['*'] body '/' (fun hpair => ?_) rest
  rcases List.infix_concat_iff.mp hpair with hsuffix | hbody
  · have hlast := hsuffix.getLast (by simp)
    simp at hlast
  · exact h hbody

/-- No piece of a text has the character that the text is split at. -/
theorem not_mem_of_mem_splitOn {x : Char} {s piece : List Char} (h : piece ∈ s.splitOn x) :
    x ∉ piece := by
  induction s generalizing piece with
  | nil =>
    rw [List.mem_singleton.mp h]
    exact List.not_mem_nil
  | cons c s ih =>
    obtain ⟨first, rest, hs⟩ := List.exists_cons_of_ne_nil (List.splitOn_ne_nil x s)
    have hpieces {p : List Char} (hp : p ∈ first :: rest) : x ∉ p := ih (hs ▸ hp)
    rw [List.splitOn_eq_splitOnP] at hs
    rw [List.splitOn_eq_splitOnP, List.splitOnP_cons_eq_if_modifyHead, hs] at h
    split at h
    · rcases List.mem_cons.mp h with rfl | hmem
      · exact List.not_mem_nil
      · exact hpieces hmem
    · next hc =>
      rcases List.mem_cons.mp h with rfl | hmem
      · rw [List.mem_cons, not_or]
        exact ⟨fun heq => hc (beq_iff_eq.mpr heq.symm), hpieces List.mem_cons_self⟩
      · exact hpieces (List.mem_cons_of_mem first hmem)

end NodeAtlas.Text
