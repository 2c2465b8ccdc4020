import NodeAtlas.Json.Reader
import NodeAtlas.Proofs.Json.Layout

/-!
What the reader takes from a text it accounts for. The trees between two cursors cover the text there
up to white space: each begins where the one before it ends or after white space behind that, and a
tree with children is covered by them in the same way.
-/

namespace NodeAtlas.Json

open Text

namespace Cursor

/-- A text stands between two cursors. -/
def Passes (s : Cursor) (w : List Char) (t : Cursor) : Prop :=
  s.rest = w ++ t.rest ∧ t.offset = s.offset + byteLength w

/-- Nothing but white space stands between two cursors. -/
def Gap (s t : Cursor) : Prop := ∃ w, s.Passes w t ∧ ∀ c ∈ w, isGap c = true

/-- The second cursor is not before the first. -/
def Reaches (s t : Cursor) : Prop := ∃ w, s.Passes w t

/-- The second cursor is behind the first. -/
def Before (s t : Cursor) : Prop := ∃ w, s.Passes w t ∧ w ≠ []

theorem Passes.refl (s : Cursor) : s.Passes [] s := by simp [Passes]

theorem Passes.trans {s t u : Cursor} {w w' : List Char} (h : s.Passes w t) (h' : t.Passes w' u) :
    s.Passes (w ++ w') u := by
  obtain ⟨hrest, hoff⟩ := h
  obtain ⟨hrest', hoff'⟩ := h'
  constructor
  · rw [hrest, hrest', List.append_assoc]
  · rw [hoff', hoff, byteLength_append, Nat.add_assoc]

theorem passes_next {s : Cursor} {c : Char} {rest : List Char} (h : s.rest = c :: rest) :
    s.Passes [c] s.next := by
  simp [Passes, next, h]

theorem passes_skip (s : Cursor) (p : Char → Bool) : s.Passes (s.rest.takeWhile p) (s.skip p) := by
  simp [Passes, skip]

theorem passes_forward (s : Cursor) (n : Nat) : s.Passes (s.rest.take n) (s.forward n) := by
  simp [Passes, forward]

theorem reaches_refl (s : Cursor) : s.Reaches s := ⟨[], .refl s⟩

theorem Reaches.trans {s t u : Cursor} (h : s.Reaches t) (h' : t.Reaches u) : s.Reaches u := by
  obtain ⟨w, hw⟩ := h
  obtain ⟨w', hw'⟩ := h'
  exact ⟨w ++ w', hw.trans hw'⟩

theorem gap_refl (s : Cursor) : s.Gap s := ⟨[], .refl s, by simp⟩

theorem Gap.trans {s t u : Cursor} (h : s.Gap t) (h' : t.Gap u) : s.Gap u := by
  obtain ⟨w, hw, hgap⟩ := h
  obtain ⟨w', hw', hgap'⟩ := h'
  refine ⟨w ++ w', hw.trans hw', fun c hc => ?_⟩
  rcases List.mem_append.mp hc with hc | hc
  · exact hgap c hc
  · exact hgap' c hc

theorem Gap.reaches {s t : Cursor} (h : s.Gap t) : s.Reaches t := by
  obtain ⟨w, hw, -⟩ := h
  exact ⟨w, hw⟩

theorem gap_next {s : Cursor} {c : Char} {rest : List Char} (h : s.rest = c :: rest)
    (hc : isGap c = true) : s.Gap s.next :=
  ⟨[c], passes_next h, by simpa using hc⟩

theorem Before.reaches {s t : Cursor} (h : s.Before t) : s.Reaches t := by
  obtain ⟨w, hw, -⟩ := h
  exact ⟨w, hw⟩

theorem Before.trans {s t u : Cursor} (h : s.Before t) (h' : t.Reaches u) : s.Before u := by
  obtain ⟨w, hw, hne⟩ := h
  obtain ⟨w', hw'⟩ := h'
  exact ⟨w ++ w', hw.trans hw', by simp [hne]⟩

theorem Reaches.before {s t u : Cursor} (h : s.Reaches t) (h' : t.Before u) : s.Before u := by
  obtain ⟨w, hw⟩ := h
  obtain ⟨w', hw', hne⟩ := h'
  exact ⟨w ++ w', hw.trans hw', by simp [hne]⟩

theorem before_next {s : Cursor} (h : s.rest ≠ []) : s.Before s.next := by
  obtain ⟨c, rest, hrest⟩ := List.exists_cons_of_ne_nil h
  exact ⟨[c], passes_next hrest, List.cons_ne_nil c []⟩

theorem reaches_next (s : Cursor) : s.Reaches s.next := by
  by_cases h : s.rest = []
  · have hs : s.next = s := by simp [next, h]
    rw [hs]
    exact reaches_refl s
  · exact (before_next h).reaches

theorem reaches_skip (s : Cursor) (p : Char → Bool) : s.Reaches (s.skip p) := ⟨_, passes_skip s p⟩

theorem before_skip {s : Cursor} {p : Char → Bool} {c : Char} {rest : List Char}
    (h : s.rest = c :: rest) (hp : p c = true) : s.Before (s.skip p) :=
  ⟨s.rest.takeWhile p, passes_skip s p, by simp [h, hp]⟩

theorem before_forward {s : Cursor} {n : Nat} (h : s.rest ≠ []) (hn : 0 < n) :
    s.Before (s.forward n) := by
  refine ⟨s.rest.take n, passes_forward s n, fun hnil => ?_⟩
  rcases List.take_eq_nil_iff.mp hnil with hzero | hempty
  · omega
  · exact h hempty

theorem Before.length_lt {s t : Cursor} (h : s.Before t) : t.rest.length < s.rest.length := by
  obtain ⟨w, ⟨hrest, -⟩, hne⟩ := h
  have := List.length_pos_iff.mpr hne
  rw [hrest, List.length_append]
  omega

theorem Reaches.offset_le {s t : Cursor} (h : s.Reaches t) : s.offset ≤ t.offset := by
  obtain ⟨w, -, hoff⟩ := h
  omega

end Cursor

theorem Cursor.Before.offset_lt {s t : Cursor} (h : s.Before t) : s.offset < t.offset := by
  obtain ⟨w, ⟨-, hoff⟩, hne⟩ := h
  have := byteLength_pos hne
  omega

mutual

/-- A tree spans what stands between two cursors, and its children, if it has any, cover it. -/
def Covers (s t : Cursor) : Tree → Prop
  | .node _ b e ts => b = s.offset ∧ e = t.offset ∧ s.Before t ∧ (ts ≠ [] → CoversAll s t ts)

def CoversAll (s t : Cursor) : List Tree → Prop
  | [] => s.Gap t
  | u :: us => ∃ q r, s.Gap q ∧ Covers q r u ∧ CoversAll r t us

end

theorem CoversAll.gap {s t u : Cursor} {ts : List Tree} (hgap : s.Gap t) (h : CoversAll t u ts) :
    CoversAll s u ts := by
  cases ts with
  | nil => exact hgap.trans h
  | cons v vs =>
    obtain ⟨q, r, hq, hv, hvs⟩ := h
    exact ⟨q, r, hgap.trans hq, hv, hvs⟩

theorem CoversAll.append {s t u : Cursor} {ts us : List Tree} (h : CoversAll s t ts)
    (h' : CoversAll t u us) : CoversAll s u (ts ++ us) := by
  induction ts generalizing s with
  | nil => exact h'.gap h
  | cons v vs ih =>
    obtain ⟨q, r, hq, hv, hvs⟩ := h
    exact ⟨q, r, hq, hv, ih hvs⟩

theorem Covers.cons {s t u : Cursor} {v : Tree} {vs : List Tree} (h : Covers s t v)
    (h' : CoversAll t u vs) : CoversAll s u (v :: vs) :=
  ⟨s, t, Cursor.gap_refl s, h, h'⟩

theorem coversAll_nil (s : Cursor) : CoversAll s s [] := Cursor.gap_refl s

theorem Covers.single {s t : Cursor} {v : Tree} (h : Covers s t v) : CoversAll s t [v] :=
  h.cons (coversAll_nil t)

theorem Covers.before {s t : Cursor} {u : Tree} (h : Covers s t u) : s.Before t := by
  cases u
  exact h.2.2.1

theorem CoversAll.reaches {s t : Cursor} {ts : List Tree} (h : CoversAll s t ts) :
    s.Reaches t := by
  induction ts generalizing s with
  | nil => exact Cursor.Gap.reaches h
  | cons v vs ih =>
    obtain ⟨q, r, hgap, hv, hvs⟩ := h
    exact hgap.reaches.trans (hv.before.reaches.trans (ih hvs))

theorem covers_leaf {s t : Cursor} (k : NodeKind) (h : s.Before t) : Covers s t (leaf k s t) := by
  simpa [leaf, Covers] using h

theorem covers_token {s : Cursor} {c : Char} (h : s.rest ≠ []) : Covers s s.next (token c s) :=
  covers_leaf _ (Cursor.before_next h)

/-- A node over trees that cover a text, the first of which is not empty. -/
theorem covers_node {s q t : Cursor} {u : Tree} {us : List Tree} (k : NodeKind)
    (hu : Covers s q u) (hus : CoversAll q t us) :
    Covers s t (.node k s.offset t.offset (u :: us)) :=
  ⟨rfl, rfl, hu.before.trans hus.reaches, fun _ => hu.cons hus⟩

/-! ## White space, errors and scalars -/

theorem commentLength_pos {rest : List Char} (h : rest ≠ []) : 0 < commentLength rest := by
  have := List.length_pos_iff.mpr h
  unfold commentLength
  split <;> omega

theorem coversAll_trivia (s : Cursor) : CoversAll s (trivia s).2 (trivia s).1 := by
  fun_induction trivia s with
  | case1 s => exact coversAll_nil s
  | case2 s rest h t more u htrivia ih =>
    rw [htrivia] at ih
    exact (covers_leaf _ (Cursor.before_skip h (by decide))).cons ih
  | case3 s rest h t more u htrivia ih =>
    rw [htrivia] at ih
    have hne : s.rest ≠ [] := by simp [h]
    exact (covers_leaf _ (Cursor.before_forward hne (commentLength_pos hne))).cons ih
  | case4 s c rest _ _ h hgap ih => exact ih.gap (Cursor.gap_next h hgap)
  | case5 s => exact coversAll_nil s

theorem covers_errorUntil {stops : Char → Bool} {s : Cursor} (h : s.rest ≠ []) :
    Covers s (errorUntil stops s).2 (errorUntil stops s).1 :=
  covers_leaf _ ((Cursor.before_next h).trans (Cursor.reaches_skip _ _))

theorem covers_word {s : Cursor} {c : Char} {rest : List Char} (h : s.rest = c :: rest)
    (hc : isAsciiLetter c = true) : Covers s (word s).2 (word s).1 :=
  covers_leaf _ (Cursor.before_skip h (by simp [hc]))

theorem reaches_digits (s : Cursor) : s.Reaches (digits s).2 := Cursor.reaches_skip s _

theorem reaches_fraction (valid : Bool) (s : Cursor) : s.Reaches (fraction valid s).2 := by
  unfold fraction
  split
  · exact (Cursor.reaches_next s).trans (reaches_digits _)
  · exact Cursor.reaches_refl s

theorem reaches_exponent (valid : Bool) (s : Cursor) : s.Reaches (exponent valid s).2 := by
  unfold exponent
  split
  · apply (Cursor.reaches_next s).trans
    dsimp only
    split
    · exact (Cursor.reaches_next _).trans (reaches_digits _)
    · exact reaches_digits _
  · exact Cursor.reaches_refl s

/-- A number has a sign or a digit. -/
theorem covers_number {s : Cursor} {c : Char} {rest : List Char} (h : s.rest = c :: rest)
    (hc : c = '-' ∨ isAsciiDigit c = true) : Covers s (number s).2 (number s).1 := by
  have hbefore : s.Before (digits (optional '-' s)).2 := by
    by_cases hminus : c = '-'
    · have hopt : optional '-' s = s.next := by simp [optional, h, hminus]
      rw [hopt]
      exact (Cursor.before_next (by simp [h])).trans (reaches_digits _)
    · have hopt : optional '-' s = s := by simp [optional, h, hminus]
      rw [hopt]
      exact Cursor.before_skip h (hc.resolve_left hminus)
  exact covers_leaf _ ((hbefore.trans (reaches_fraction _ _)).trans (reaches_exponent _ _))

theorem coversAll_stringParts (s : Cursor) :
    CoversAll s (stringParts s).2.2 (stringParts s).1 := by
  fun_induction stringParts s with
  | case1 s => exact coversAll_nil s
  | case2 s => exact coversAll_nil s
  | case3 s rest h => exact (covers_token (by simp [h])).single
  | case4 s rest h t more r hparts ih =>
    rw [hparts] at ih
    exact (covers_leaf _ (Cursor.before_forward (by simp [h]) (escapeLength_pos _))).cons ih
  | case5 s c rest _ _ _ h t more r hparts ih =>
    rw [hparts] at ih
    have hbefore := (Cursor.before_next (s := s) (by simp [h])).trans
      (Cursor.reaches_skip s.next isStringContent)
    exact (covers_leaf _ hbefore).cons ih

theorem covers_string {s : Cursor} (h : s.rest ≠ []) : Covers s (string s).2 (string s).1 :=
  covers_node _ (covers_token h) (coversAll_stringParts s.next)

/-! ## Containers -/

theorem skipContainer_suffix (depth : Nat) (inString : Bool) (s : List Char) :
    skipContainer depth inString s <:+ s := by
  fun_induction skipContainer depth inString s with
  | case1 => exact List.suffix_refl []
  | case2 => exact List.nil_suffix
  | case3 depth c rest ih => exact (ih.trans (List.suffix_cons c rest)).trans (List.suffix_cons _ _)
  | case4 depth c rest _ ih => exact ih.trans (List.suffix_cons c rest)
  | case5 depth inString rest _ ih => exact ih.trans (List.suffix_cons '"' rest)
  | case6 depth inString c rest _ _ _ ih => exact ih.trans (List.suffix_cons c rest)
  | case7 inString c rest => exact List.suffix_cons c rest
  | case8 inString c rest _ _ _ _ depth ih => exact ih.trans (List.suffix_cons c rest)
  | case9 depth inString c rest _ _ _ _ ih => exact ih.trans (List.suffix_cons c rest)

theorem covers_tooDeep {s : Cursor} (h : s.rest ≠ []) : Covers s (tooDeep s).2 (tooDeep s).1 := by
  have hle := (skipContainer_suffix 0 false (s.rest.drop 1)).length_le
  have hpos := List.length_pos_iff.mpr h
  rw [List.length_drop] at hle
  exact covers_leaf _ (Cursor.before_forward h (by omega))

theorem coversAll_separator (closing : Char) (s : Cursor) :
    CoversAll s (separator closing s).2 (separator closing s).1 := by
  unfold separator
  split
  · exact coversAll_nil s
  · next c rest h =>
    have hne : s.rest ≠ [] := by simp [h]
    split
    · exact (covers_token hne).single
    split
    · exact coversAll_nil s
    have herr := @covers_errorUntil (fun c => c = ',' || c = closing) _ hne
    dsimp only
    split
    · next hcomma =>
      have hne' : (errorUntil (fun c => c = ',' || c = closing) s).2.rest ≠ [] := by
        intro hnil
        simp [hnil] at hcomma
      exact herr.cons (covers_token hne').single
    · exact herr.single

section Items

variable {shape : Shape} {item : Cursor → Tree × Cursor}
  (hitem : ∀ s c rest, s.rest = c :: rest → shape.startsItem c = true →
    Covers s (item s).2 (item s).1)

include hitem

/-- A round covers what it takes if the items do. -/
theorem coversAll_round (s : Cursor) :
    CoversAll s (round shape item s).cursor (round shape item s).nodes := by
  have hgap := coversAll_trivia s
  unfold round
  dsimp only
  split
  · exact hgap
  · next c rest h =>
    have hne : (trivia s).2.rest ≠ [] := by simp [h]
    split
    · exact hgap.append (covers_token hne).single
    split
    · exact hgap.append (covers_errorUntil hne).single
    split
    · next hstart =>
      have hi := hitem _ c rest h hstart
      have hgap' := coversAll_trivia (item (trivia s).2).2
      have hsep := coversAll_separator shape.closing (trivia (item (trivia s).2).2).2
      simpa using hgap.append (hi.cons (hgap'.append hsep))
    · exact hgap.append (covers_errorUntil hne).single

theorem coversAll_items (s : Cursor) :
    CoversAll s (items shape item s).2 (items shape item s).1 := by
  fun_induction items shape item s with
  | case1 s r h more t hitems ih =>
    rw [hitems] at ih
    exact (coversAll_round hitem s).append ih
  | case2 s => exact coversAll_round hitem s

theorem covers_container {s : Cursor} (h : s.rest ≠ []) :
    Covers s (container shape item s).2 (container shape item s).1 :=
  covers_node _ (covers_token h) (coversAll_items hitem s.next)

end Items

theorem covers_key {s : Cursor} {c : Char} {rest : List Char} (h : s.rest = c :: rest)
    (hc : isQuoteOrNumber c = true) : Covers s (key s).2 (key s).1 := by
  unfold key
  split
  · exact covers_string (by simp [h])
  · next hquote =>
    have hne : c ≠ '"' := by simpa [h] using hquote
    apply covers_number h
    simpa [isQuoteOrNumber, hne] using hc

theorem covers_pair {value : Cursor → Tree × Cursor}
    (hvalue : ∀ s c rest, s.rest = c :: rest → startsValue c = true →
      Covers s (value s).2 (value s).1) {s : Cursor} {c : Char} {rest : List Char}
    (h : s.rest = c :: rest) (hc : isQuoteOrNumber c = true) :
    Covers s (pair value s).2 (pair value s).1 := by
  have hkey := covers_key h hc
  have hgap := coversAll_trivia (key s).2
  unfold pair
  dsimp only
  split
  · next hcolon =>
    have hne : (trivia (key s).2).2.rest ≠ [] := by
      intro hnil
      simp [hnil] at hcolon
    have hgap' := coversAll_trivia (trivia (key s).2).2.next
    have hfront := hgap.append ((covers_token (c := ':') hne).cons hgap')
    split
    · next d more hrest =>
      split
      · next hstart =>
        exact covers_node _ hkey (hfront.append (hvalue _ d more hrest hstart).single)
      · exact covers_node _ hkey hfront
    · exact covers_node _ hkey hfront
  · exact covers_node _ hkey hgap

theorem covers_scalar {s : Cursor} (h : s.rest ≠ []) : Covers s (scalar s).2 (scalar s).1 := by
  unfold scalar
  split
  · next c rest hrest =>
    split
    · exact covers_string h
    split
    · next hnum => exact covers_number hrest (by simpa using hnum)
    split
    · next hletter => exact covers_word hrest hletter
    · exact covers_errorUntil h
  · exact covers_errorUntil h

theorem covers_value (room : Nat) {s : Cursor} (h : s.rest ≠ []) :
    Covers s (value room s).2 (value room s).1 := by
  induction room generalizing s with
  | zero =>
    unfold value
    split
    · exact covers_tooDeep h
    · exact covers_scalar h
  | succ room ih =>
    have hvalue : ∀ s c rest, s.rest = c :: rest → startsValue c = true →
        Covers s (value room s).2 (value room s).1 :=
      fun s c rest hrest _ => ih (by simp [hrest])
    unfold value
    split
    · exact covers_container (fun s c rest => covers_pair hvalue) h
    split
    · exact covers_container hvalue h
    · exact covers_scalar h

/-- A value or an error of a document covers what it takes. -/
theorem covers_documentItem {s t : Cursor} {c : Char} {x : Tree} (h : s.rest ≠ [])
    (hx : (if _ : startsValue c = true then value maxNesting s
      else errorUntil (fun c => isGap c || startsValue c) s) = (x, t)) : Covers s t x := by
  split at hx
  · have hcov := covers_value maxNesting h
    rwa [hx] at hcov
  · have hcov := @covers_errorUntil (fun c => isGap c || startsValue c) _ h
    rwa [hx] at hcov

/-- The nodes of a document cover the whole text. -/
theorem coversAll_documentItems (s : Cursor) :
    ∃ t, t.rest = [] ∧ CoversAll s t (documentItems s) := by
  fun_induction documentItems s with
  | case1 s gap u htrivia hrest =>
    have hgap := coversAll_trivia s
    rw [htrivia] at hgap
    exact ⟨u, hrest, hgap⟩
  | case2 s gap u htrivia c rest hrest x t hx hlt ih =>
    have hgap := coversAll_trivia s
    rw [htrivia] at hgap
    obtain ⟨e, hend, hmore⟩ := ih
    exact ⟨e, hend, hgap.append ((covers_documentItem (by simp [hrest]) hx).cons hmore)⟩
  | case3 s gap u htrivia c rest hrest x t hx hlt =>
    have hgap := coversAll_trivia s
    rw [htrivia] at hgap
    -- An item always takes something, so reading does not stop here.
    have hlen := (hgap.reaches.before (covers_documentItem (by simp [hrest]) hx).before).length_lt
    exact absurd hlen hlt

end NodeAtlas.Json
