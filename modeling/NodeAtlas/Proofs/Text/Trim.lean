import NodeAtlas.Proofs.Text.Search
import NodeAtlas.Text.Blank
import NodeAtlas.Text.Lines
import NodeAtlas.Text.Word

/-!
Trimmed texts keep their characters, and lines that are put together are found again.
-/

namespace NodeAtlas.Text

/-- No blank comes first or last. -/
def Trimmed (s : List Char) : Prop :=
  (∀ c ∈ s.head?, isBlank c = false) ∧ ∀ c ∈ s.getLast?, isBlank c = false

/-- The test that decides whether a character at an end, if there is one, is no blank. -/
theorem notBlank_of_all {o : Option Char} (h : (o.all fun c => !isBlank c) = true) :
    ∀ c ∈ o, isBlank c = false := by
  simpa [Option.all_eq_true] using h

theorem trimStart_append {w s : List Char} (hw : ∀ c ∈ w, isBlank c = true)
    (hs : ∀ c ∈ s.head?, isBlank c = false) : trimStart (w ++ s) = s :=
  dropWhile_append_stop hw hs

theorem trimEnd_append {w s : List Char} (hw : ∀ c ∈ w, isBlank c = true)
    (hs : ∀ c ∈ s.getLast?, isBlank c = false) : trimEnd (s ++ w) = s := by
  have hrev : (s ++ w).reverse.dropWhile isBlank = s.reverse := by
    rw [List.reverse_append]
    refine dropWhile_append_stop (fun c hc => hw c (List.mem_reverse.mp hc)) ?_
    rwa [List.head?_reverse]
  rw [trimEnd, hrev, List.reverse_reverse]

theorem trimEnd_of_trimmed {s : List Char} (hs : ∀ c ∈ s.getLast?, isBlank c = false) :
    trimEnd s = s := by
  have h := trimEnd_append (w := []) (by simp) hs
  rwa [List.append_nil] at h

/-- Blanks around a trimmed text are taken off. -/
theorem trim_append {v s w : List Char} (hv : ∀ c ∈ v, isBlank c = true)
    (hw : ∀ c ∈ w, isBlank c = true) (hs : Trimmed s) (hne : s ≠ []) :
    trim (v ++ (s ++ w)) = s := by
  have hhead : ∀ c ∈ (s ++ w).head?, isBlank c = false := by
    obtain ⟨c, rest, rfl⟩ := List.exists_cons_of_ne_nil hne
    exact hs.1
  rw [trim, trimStart_append hv hhead, trimEnd_append hw hs.2]

theorem trim_of_trimmed {s : List Char} (hs : Trimmed s) : trim s = s := by
  by_cases hne : s = []
  · rw [hne]
    rfl
  · have h := trim_append (v := []) (w := []) (by simp) (by simp) hs hne
    rwa [List.nil_append, List.append_nil] at h

theorem getLast?_trimEnd (s : List Char) : ∀ c ∈ (trimEnd s).getLast?, isBlank c = false := by
  intro c hc
  rw [trimEnd, List.getLast?_reverse] at hc
  have hnot := List.head?_dropWhile_not isBlank s.reverse
  rw [hc] at hnot
  simpa using hnot

theorem trimmed_trim (s : List Char) : Trimmed (trim s) := by
  refine ⟨?_, getLast?_trimEnd _⟩
  intro c hc
  have hfront : trim s <+: trimStart s := by
    rw [trim, trimEnd, ← List.reverse_suffix, List.reverse_reverse]
    exact List.dropWhile_suffix isBlank
  obtain ⟨rest, hrest⟩ := hfront
  have hhead : (trimStart s).head? = some c := by
    rw [← hrest, List.head?_append, hc]
    rfl
  have hnot := List.head?_dropWhile_not isBlank s
  rw [← trimStart, hhead] at hnot
  exact hnot

theorem trimmed_of_trim {s : List Char} (h : trim s = s) : Trimmed s := by
  have htrimmed := trimmed_trim s
  rwa [h] at htrimmed

theorem trimmed_of_forall {s : List Char} (h : ∀ c ∈ s, isBlank c = false) : Trimmed s :=
  ⟨fun c hc => h c (List.mem_of_head? hc), fun c hc => h c (List.mem_of_getLast? hc)⟩

/-- What stands in the middle of a text may have blanks. -/
theorem trimmed_append {a s : List Char} (hne : a ≠ []) (ha : ∀ c ∈ a, isBlank c = false)
    (middle : List Char) (hsne : s ≠ []) (hs : Trimmed s) : Trimmed (a ++ (middle ++ s)) := by
  constructor
  · obtain ⟨c, rest, rfl⟩ := List.exists_cons_of_ne_nil hne
    simpa using ha c List.mem_cons_self
  · rw [← List.append_assoc, List.getLast?_append_of_ne_nil _ hsne]
    exact hs.2

/-! ## Blanks around a text -/

/-- Only blanks. -/
def AllBlank (w : List Char) : Prop := ∀ c ∈ w, isBlank c = true

instance (w : List Char) : Decidable (AllBlank w) :=
  decidable_of_iff (w.all isBlank = true) List.all_eq_true

theorem allBlank_nil : AllBlank [] := List.forall_mem_nil _

theorem allBlank_append {v w : List Char} : AllBlank (v ++ w) ↔ AllBlank v ∧ AllBlank w :=
  List.forall_mem_append

theorem trim_of_allBlank {s : List Char} (h : AllBlank s) : trim s = [] := by
  have hstart : trimStart s = [] := by
    have happ := trimStart_append (w := s) (s := []) h (by simp)
    rwa [List.append_nil] at happ
  rw [trim, hstart]
  rfl

/-- A text is its trimmed text with blanks around it. -/
theorem exists_trim (s : List Char) : ∃ v w, AllBlank v ∧ AllBlank w ∧ s = v ++ (trim s ++ w) := by
  refine ⟨s.takeWhile isBlank, ((trimStart s).reverse.takeWhile isBlank).reverse,
    List.all_eq_true.mp List.all_takeWhile, fun c hc => ?_, ?_⟩
  · exact List.all_eq_true.mp List.all_takeWhile c (List.mem_reverse.mp hc)
  · rw [trim, trimEnd, ← List.reverse_append, List.takeWhile_append_dropWhile,
      List.reverse_reverse, trimStart, List.takeWhile_append_dropWhile]

theorem infix_trim (s : List Char) : trim s <:+: s := by
  obtain ⟨v, w, -, -, hs⟩ := exists_trim s
  exact ⟨v, w, by rw [List.append_assoc, ← hs]⟩

/-- Blanks around a text do not matter. -/
theorem trim_blanks {v s w : List Char} (hv : AllBlank v) (hw : AllBlank w) :
    trim (v ++ (s ++ w)) = trim s := by
  obtain ⟨v', w', hv', hw', hs⟩ := exists_trim s
  by_cases hne : trim s = []
  · rw [hne, List.nil_append] at hs
    rw [hne, hs]
    exact trim_of_allBlank (by simp_all [allBlank_append])
  · have happ : v ++ (s ++ w) = (v ++ v') ++ (trim s ++ (w' ++ w)) := by
      conv_lhs => rw [hs]
      simp
    rw [happ]
    exact trim_append (allBlank_append.mpr ⟨hv, hv'⟩) (allBlank_append.mpr ⟨hw', hw⟩)
      (trimmed_trim s) hne

theorem trimStart_append_stop {c : Char} (hc : isBlank c = false) (a b : List Char) :
    trimStart (a ++ c :: b) = trimStart a ++ c :: b := by
  induction a with
  | nil => simp [trimStart, hc]
  | cons x a ih =>
    simp only [trimStart] at ih ⊢
    rw [List.cons_append, List.dropWhile_cons, List.dropWhile_cons]
    split
    · exact ih
    · rfl

theorem trimEnd_append_stop {c : Char} (hc : isBlank c = false) (a b : List Char) :
    trimEnd (a ++ c :: b) = a ++ c :: trimEnd b := by
  have hstart := trimStart_append_stop hc b.reverse a.reverse
  simp only [trimStart] at hstart
  simp [trimEnd, hstart]

/-- Blanks are taken off on both sides of a character that is none. -/
theorem trim_append_stop {c : Char} (hc : isBlank c = false) (a b : List Char) :
    trim (a ++ c :: b) = trimStart a ++ c :: trimEnd b := by
  rw [trim, trimStart_append_stop hc, trimEnd_append_stop hc]

/-! ## Blanks and words -/

/-- The code points of blanks. -/
def blankRanges : List (Nat × Nat) :=
  [(9, 13), (0x20, 0x20), (0x85, 0x85), (0xA0, 0xA0), (0x1680, 0x1680), (0x2000, 0x200A),
    (0x2028, 0x2029), (0x202F, 0x202F), (0x205F, 0x205F), (0x3000, 0x3000)]

theorem isBlank_inRanges {c : Char} (h : isBlank c = true) : inRanges blankRanges c = true := by
  simp only [isBlank, Bool.or_eq_true, Bool.and_eq_true, decide_eq_true_eq, List.contains_eq_mem,
    List.mem_cons, List.not_mem_nil, or_false] at h
  rw [inRanges_iff]
  simp only [blankRanges, List.exists_mem_cons_iff, List.not_mem_nil, false_and, exists_false,
    or_false]
  omega

theorem blankRanges_apart : (alphabeticRanges ++ wordExtraRanges).all (fun r =>
    blankRanges.all fun b => r.2.blt b.1 || b.2.blt r.1) = true := by
  decide +kernel

/-- Blanks are no word characters. -/
theorem isBlank_of_isWordChar {c : Char} (h : isWordChar c = true) : isBlank c = false := by
  by_cases hblank : isBlank c
  · obtain ⟨b, hb, hlow, hhigh⟩ := inRanges_iff.mp (isBlank_inRanges hblank)
    obtain ⟨r, hr, hrlow, hrhigh⟩ : ∃ r ∈ alphabeticRanges ++ wordExtraRanges,
        r.1 ≤ c.toNat ∧ c.toNat ≤ r.2 := by
      rw [isWordChar, Bool.or_eq_true, isAlphabetic, inRanges_iff, inRanges_iff] at h
      rcases h with ⟨r, hr, hin⟩ | ⟨r, hr, hin⟩
      · exact ⟨r, List.mem_append_left _ hr, hin⟩
      · exact ⟨r, List.mem_append_right _ hr, hin⟩
    have hapart := List.all_eq_true.mp (List.all_eq_true.mp blankRanges_apart r hr) b hb
    simp only [Bool.or_eq_true, Nat.blt_eq] at hapart
    omega
  · simpa using hblank

/-! ## Lines -/

/-- A line end as a whole: a line feed without a carriage return in front of it, or with one. -/
def EndsLine (w e : List Char) : Prop :=
  e = ['\n'] ∧ w.getLast? ≠ some '\r' ∨ e = ['\r', '\n']

theorem EndsLine.of_cons {c : Char} {w e : List Char} (h : EndsLine (c :: w) e) : EndsLine w e := by
  refine h.imp_left fun ⟨he, hlast⟩ => ⟨he, fun hw => hlast ?_⟩
  rw [List.getLast?_cons, hw]
  rfl

/-- No line end begins further in front. -/
theorem EndsLine.not_earlier {c : Char} {w e rest : List Char} (h : EndsLine (c :: w) e)
    (hw : ∀ more, c = '\r' → w = '\n' :: more → False) :
    ∀ more, c = '\r' → w ++ (e ++ rest) = '\n' :: more → False := by
  intro more hc heq
  cases w with
  | nil =>
    rcases h with ⟨rfl, hlast⟩ | rfl
    · exact hlast (hc ▸ rfl)
    · cases heq
  | cons d w =>
    cases heq
    exact hw _ hc rfl

theorem exists_endsLine (a : List Char) : ∃ w e, a ++ ['\n'] = w ++ e ∧ EndsLine w e ∧ w <+: a := by
  by_cases hlast : a.getLast? = some '\r'
  · obtain ⟨front, rfl⟩ := List.getLast?_eq_some_iff.mp hlast
    exact ⟨front, ['\r', '\n'], by simp, .inr rfl, List.prefix_append _ _⟩
  · exact ⟨a, ['\n'], rfl, .inl ⟨rfl, hlast⟩, List.prefix_refl a⟩

theorem lines_append_end {w e : List Char} (hw : '\n' ∉ w) (h : EndsLine w e) (rest : List Char) :
    lines (w ++ (e ++ rest)) = w :: lines rest := by
  induction w with
  | nil => rcases h with ⟨rfl, -⟩ | rfl <;> rfl
  | cons c w ih =>
    rw [List.mem_cons, not_or] at hw
    have hstart : ∀ more, c = '\r' → w = '\n' :: more → False := by
      rintro more - rfl
      exact hw.2 List.mem_cons_self
    rw [List.cons_append, lines.eq_4 _ _ (Ne.symm hw.1) (h.not_earlier hstart), ih hw.2 h.of_cons]

/-- A line is whole when taking the end off it leaves it alone. -/
def IsLine (w : List Char) : Prop := '\n' ∉ w ∧ w.getLast? ≠ some '\r'

theorem lines_append {w : List Char} (h : IsLine w) (rest : List Char) :
    lines (w ++ '\n' :: rest) = w :: lines rest :=
  lines_append_end h.1 (.inl ⟨rfl, h.2⟩) rest

theorem lines_of_isLine {w : List Char} (hne : w ≠ []) (h : '\n' ∉ w) : lines w = [w] := by
  induction w with
  | nil => exact absurd rfl hne
  | cons c w ih =>
    have hfeed : c ≠ '\n' := fun hc => h (hc ▸ List.mem_cons_self)
    have hw : '\n' ∉ w := fun hmem => h (List.mem_cons_of_mem c hmem)
    have hreturn : ∀ more, c = '\r' → w ≠ '\n' :: more := by
      rintro more - rfl
      exact hw List.mem_cons_self
    rw [lines.eq_4 _ _ hfeed hreturn]
    cases w with
    | nil => rfl
    | cons d w => rw [ih (by simp) hw]

theorem unlines_cons_cons (a b : List Char) (ls : List (List Char)) :
    unlines (a :: b :: ls) = a ++ '\n' :: unlines (b :: ls) := by
  rw [unlines, List.intercalate_cons_cons, List.append_assoc]
  rfl

theorem unlines_concat {ls : List (List Char)} (hne : ls ≠ []) (w : List Char) :
    unlines (ls ++ [w]) = unlines ls ++ '\n' :: w := by
  induction ls with
  | nil => exact absurd rfl hne
  | cons a ls ih =>
    cases ls with
    | nil => simp [unlines]
    | cons b ls =>
      rw [List.cons_append, List.cons_append, unlines_cons_cons, unlines_cons_cons,
        ← List.cons_append, ih (by simp), List.append_assoc, List.cons_append]

theorem head?_unlines {w : List Char} (hne : w ≠ []) (ls : List (List Char)) :
    (unlines (w :: ls)).head? = w.head? := by
  obtain ⟨c, rest, rfl⟩ := List.exists_cons_of_ne_nil hne
  cases ls with
  | nil => simp [unlines]
  | cons a ls => rw [unlines_cons_cons, List.cons_append, List.head?_cons, List.head?_cons]

theorem isLine_trimEnd {s : List Char} (h : '\n' ∉ s) : IsLine (trimEnd s) := by
  constructor
  · intro hmem
    rw [trimEnd, List.mem_reverse] at hmem
    exact h (List.mem_reverse.mp ((List.dropWhile_sublist isBlank).subset hmem))
  · intro hlast
    exact absurd (getLast?_trimEnd s '\r' hlast) (by decide)

/-- Lines that are put together are found again, when the last one is not empty. -/
theorem lines_unlines {ls : List (List Char)} {last : List Char} (h : ∀ w ∈ ls, IsLine w)
    (hne : last ≠ []) (hlast : '\n' ∉ last) : lines (unlines (ls ++ [last])) = ls ++ [last] := by
  induction ls with
  | nil => simpa [unlines] using lines_of_isLine hne hlast
  | cons w ls ih =>
    have hcons : unlines (w :: ls ++ [last]) = w ++ '\n' :: unlines (ls ++ [last]) := by
      cases ls <;> exact unlines_cons_cons _ _ _
    rw [hcons, lines_append (h w List.mem_cons_self), ih fun v hv => h v (List.mem_cons_of_mem w hv),
      List.cons_append]

end NodeAtlas.Text
