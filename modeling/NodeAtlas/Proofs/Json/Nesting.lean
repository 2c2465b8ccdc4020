import NodeAtlas.Proofs.Json.Tokens

/-!
Skipping a container whole. The scanner keeps no tree: it counts brackets outside strings, and on a
derived text without comments it stops exactly behind the bracket that closes the container.
-/

namespace NodeAtlas.Json

open Text Grammar

/-- Characters that neither open nor close anything. -/
def Neutral (c : Char) : Prop := c ≠ '"' ∧ c ≠ '\x7b' ∧ c ≠ '[' ∧ c ≠ '\x7d' ∧ c ≠ ']'

theorem skipContainer_cons {c : Char} (h : Neutral c) (depth : Nat) (rest : List Char) :
    skipContainer depth false (c :: rest) = skipContainer depth false rest := by
  obtain ⟨h₁, h₂, h₃, h₄, h₅⟩ := h
  rw [skipContainer.eq_def]
  simp [h₁, h₂, h₃, h₄, h₅]

theorem skipContainer_neutral {w : List Char} (h : ∀ c ∈ w, Neutral c) (depth : Nat)
    (rest : List Char) :
    skipContainer depth false (w ++ rest) = skipContainer depth false rest := by
  induction w with
  | nil => rfl
  | cons c w ih =>
    rw [List.cons_append, skipContainer_cons (h c List.mem_cons_self),
      ih fun d hd => h d (List.mem_cons_of_mem c hd)]

theorem neutral_of_isDigit {c : Char} (h : IsDigit c) : Neutral c := by
  refine ⟨?_, ?_, ?_, ?_, ?_⟩ <;> rintro rfl <;> revert h <;> unfold IsDigit <;> decide

theorem neutral_numeral (n : Numeral) : ∀ c ∈ n.text, Neutral c := by
  have hdigits (ds : Digits) : ∀ c ∈ ds.chars, Neutral c :=
    fun c hc => neutral_of_isDigit (ds.isDigit c hc)
  intro c hc
  simp only [Numeral.text, List.mem_append] at hc
  rcases hc with ((hsign | hwhole) | hfrac) | hexp
  · unfold Numeral.sign at hsign
    split at hsign
    · rw [List.mem_singleton.mp hsign]
      unfold Neutral
      decide
    · cases hsign
  · exact hdigits _ c hwhole
  · unfold Numeral.fractionText at hfrac
    split at hfrac
    · cases hfrac
    · rcases List.mem_cons.mp hfrac with rfl | hmem
      · unfold Neutral
        decide
      · exact hdigits _ c hmem
  · unfold Numeral.exponentText at hexp
    split at hexp
    · cases hexp
    · next e he =>
      simp only [Exponent.text, List.cons_append, List.mem_cons, List.mem_append,
        Option.mem_toList] at hexp
      rcases hexp with rfl | hsign | hmem
      · rcases e.mark_eq with hmark | hmark <;> rw [hmark] <;> unfold Neutral <;> decide
      · rcases e.sign_eq c hsign with rfl | rfl <;> unfold Neutral <;> decide
      · exact hdigits _ c hmem

theorem neutral_literal (w : Literal) : ∀ c ∈ w.text, Neutral c := by
  unfold Neutral
  cases w <;> simp [Literal.text]

theorem neutral_spacing {g : Spacing} (h : g.Plain) : ∀ c ∈ g.text, Neutral c := by
  intro c hc
  obtain ⟨f, hf, hcf⟩ := List.mem_flatMap.mp hc
  cases f with
  | blank d hd =>
    rw [List.mem_singleton.mp hcf]
    unfold Neutral
    rcases hd with rfl | rfl | rfl | rfl <;> decide
  | block body hbody => exact (h _ hf).elim
  | line body hbody => exact (h _ hf).elim

/-! ## Strings -/

theorem skipContainer_chars {w : List Char} (h : ∀ c ∈ w, c ≠ '"' ∧ c ≠ '\\') (depth : Nat)
    (rest : List Char) :
    skipContainer depth true (w ++ rest) = skipContainer depth true rest := by
  induction w with
  | nil => rfl
  | cons c w ih =>
    obtain ⟨hquote, hslash⟩ := h c List.mem_cons_self
    rw [List.cons_append, skipContainer.eq_def]
    simp [hquote, hslash, ih fun d hd => h d (List.mem_cons_of_mem c hd)]

theorem skipContainer_escape (e : Escape) (depth : Nat) (rest : List Char) :
    skipContainer depth true (e.text ++ rest) = skipContainer depth true rest := by
  cases e with
  | letter c hc => simp [Escape.text, skipContainer]
  | code ds hlen hhex =>
    have hplain : ∀ c ∈ ds, c ≠ '"' ∧ c ≠ '\\' := by
      intro c hc
      have := hhex c hc
      constructor <;> rintro rfl <;> revert this <;> unfold IsHexDigit IsDigit <;> decide
    simp [Escape.text, skipContainer, skipContainer_chars hplain]

theorem skipContainer_moreText (more : List (Escape × Run)) (depth : Nat) (rest : List Char) :
    skipContainer depth true (Quoted.moreText more ++ rest) = skipContainer depth true rest := by
  induction more with
  | nil => rfl
  | cons p more ih =>
    obtain ⟨e, r⟩ := p
    rw [Quoted.moreText, List.append_assoc, List.append_assoc, skipContainer_escape,
      skipContainer_chars (fun c hc => (r.plain c hc).2), ih]

theorem skipContainer_quoted (q : Quoted) (depth : Nat) (rest : List Char) :
    skipContainer depth false (q.text ++ rest) = skipContainer depth false rest := by
  have hopen (s : List Char) : skipContainer depth false ('"' :: s) = skipContainer depth true s := by
    rw [skipContainer.eq_def]
    rfl
  have hclose (s : List Char) : skipContainer depth true ('"' :: s) = skipContainer depth false s := by
    rw [skipContainer.eq_def]
    rfl
  have htext : q.text ++ rest =
      '"' :: (q.first.chars ++ (Quoted.moreText q.more ++ '"' :: rest)) := by
    simp [Quoted.text, Quoted.inside]
  rw [htext, hopen, skipContainer_chars (fun c hc => (q.first.plain c hc).2),
    skipContainer_moreText, hclose]

/-! ## Containers -/

theorem skipContainer_opening (b : Bracket) (depth : Nat) (s : List Char) :
    skipContainer depth false (b.opening :: s) = skipContainer (depth + 1) false s := by
  rw [skipContainer.eq_def]
  cases b <;> rfl

theorem skipContainer_closing (b : Bracket) (depth : Nat) (s : List Char) :
    skipContainer (depth + 1) false (b.closing :: s) = skipContainer depth false s := by
  rw [skipContainer.eq_def]
  cases b <;> rfl

theorem skipContainer_last (b : Bracket) (s : List Char) :
    skipContainer 0 false (b.closing :: s) = s := by
  rw [skipContainer.eq_def]
  cases b <;> rfl

theorem skipContainer_label {b : Bracket} {l : Label b} (h : l.Plain) (depth : Nat)
    (rest : List Char) :
    skipContainer depth false (l.text ++ rest) = skipContainer depth false rest := by
  cases l with
  | none => rfl
  | key name before after =>
    have hcolon := skipContainer_cons (c := ':') (by unfold Neutral; decide) depth
      (after.text ++ rest)
    rw [Label.text, List.append_assoc, List.append_assoc, skipContainer_quoted,
      skipContainer_neutral (neutral_spacing h.1)]
    exact hcolon.trans (skipContainer_neutral (neutral_spacing h.2) depth rest)

mutual

theorem skipContainer_value : ∀ {v : Phrase}, v.Plain → ∀ (depth : Nat) (rest : List Char),
    skipContainer depth false (v.text ++ rest) = skipContainer depth false rest
  | .literal w, _, depth, rest => skipContainer_neutral (neutral_literal w) depth rest
  | .number n, _, depth, rest => skipContainer_neutral (neutral_numeral n) depth rest
  | .string q, _, depth, rest => skipContainer_quoted q depth rest
  -- The bracket of a container adds one to the depth, and what is inside keeps it.
  | .empty b inside, h, depth, rest => by
    rw [Phrase.text, List.cons_append, skipContainer_opening, List.append_assoc,
      skipContainer_neutral (neutral_spacing h)]
    exact skipContainer_closing b depth rest
  | .container b items, h, depth, rest => by
    rw [Phrase.text, List.cons_append, skipContainer_opening, List.append_assoc,
      skipContainer_items h]
    exact skipContainer_closing b depth rest

theorem skipContainer_items {b : Bracket} : ∀ {items : Items b}, items.Plain →
    ∀ (depth : Nat) (rest : List Char),
      skipContainer depth false (items.text ++ rest) = skipContainer depth false rest
  | .last before l v after, ⟨hbefore, hl, hv, hafter⟩, depth, rest => by
    simp only [Items.text, List.append_assoc]
    rw [skipContainer_neutral (neutral_spacing hbefore), skipContainer_label hl,
      skipContainer_value hv, skipContainer_neutral (neutral_spacing hafter)]
  | .cons before l v after more, ⟨hbefore, hl, hv, hafter, hmore⟩, depth, rest => by
    have hcomma := skipContainer_cons (c := ',') (by unfold Neutral; decide) depth
      (more.text ++ rest)
    simp only [Items.text, List.append_assoc, List.cons_append]
    rw [skipContainer_neutral (neutral_spacing hbefore), skipContainer_label hl,
      skipContainer_value hv, skipContainer_neutral (neutral_spacing hafter)]
    exact hcomma.trans (skipContainer_items hmore depth rest)

end

/-- A container is one error node when what is inside keeps its brackets in balance. -/
theorem tooDeep_bracket (b : Bracket) {inside rest : List Char} (o : Nat)
    (h : skipContainer 0 false (inside ++ b.closing :: rest) =
      skipContainer 0 false (b.closing :: rest)) :
    tooDeep ⟨o, b.opening :: (inside ++ [b.closing]) ++ rest⟩ =
      (leafAt .error o (b.opening :: (inside ++ [b.closing])),
        ⟨o + byteLength (b.opening :: (inside ++ [b.closing])), rest⟩) := by
  have hforward := Cursor.forward_append o (b.opening :: (inside ++ [b.closing])) rest
  have hskip : skipContainer 0 false (inside ++ ([b.closing] ++ rest)) = rest :=
    h.trans (skipContainer_last b rest)
  have hlen : (b.opening :: (inside ++ [b.closing]) ++ rest).length - rest.length =
      (b.opening :: (inside ++ [b.closing])).length := by
    rw [List.length_append]
    omega
  simp only [tooDeep, List.cons_append, List.drop_succ_cons, List.drop_zero, List.append_assoc,
    hskip] at *
  rw [hlen, hforward]
  rfl

end NodeAtlas.Json
