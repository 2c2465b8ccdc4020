import NodeAtlas.Json.Reader
import NodeAtlas.Proofs.Json.Grammar
import NodeAtlas.Proofs.Text.Search

/-!
Reading the parts of a derived text that have no values inside: spacing, numbers, strings and names.
Each is read up to its end when what follows cannot belong to it.
-/

namespace NodeAtlas.Json

open Text Grammar

mutual

/-- A tree without the comments in it. -/
def Tree.withoutComments : Tree → Tree
  | .node k s e ts => .node k s e (withoutCommentsAll ts)

def Tree.withoutCommentsAll : List Tree → List Tree
  | [] => []
  | u :: us =>
    if u.kind = .comment ∧ u.children = [] then withoutCommentsAll us
    else u.withoutComments :: withoutCommentsAll us

end

open NodeAtlas.Json.Tree (withoutCommentsAll)

@[simp] theorem withoutCommentsAll_nil : withoutCommentsAll [] = [] := rfl

@[simp] theorem withoutCommentsAll_append (us vs : List Tree) :
    withoutCommentsAll (us ++ vs) = withoutCommentsAll us ++ withoutCommentsAll vs := by
  induction us with
  | nil => rfl
  | cons u us ih =>
    simp only [List.cons_append, withoutCommentsAll, ih]
    split <;> rfl

theorem withoutCommentsAll_cons {u : Tree} (h : u.kind ≠ .comment) (us : List Tree) :
    withoutCommentsAll (u :: us) = u.withoutComments :: withoutCommentsAll us := by
  simp [withoutCommentsAll, h]

/-- Nothing that could be skipped comes first. -/
def Solid (rest : List Char) : Prop := ∀ c ∈ rest.head?, isGap c = false ∧ c ≠ '/'

theorem solid_cons {c : Char} (h : isGap c = false ∧ c ≠ '/') (rest : List Char) :
    Solid (c :: rest) := by
  intro d hd
  cases hd
  exact h

/-- A value may end here. -/
def Follows (rest : List Char) : Prop :=
  ∀ c ∈ rest.head?, isGap c = true ∨ c = '/' ∨ c = ',' ∨ c = '\x7d' ∨ c = ']'

theorem follows_cons {c : Char} (h : isGap c = true ∨ c = '/' ∨ c = ',' ∨ c = '\x7d' ∨ c = ']')
    (rest : List Char) : Follows (c :: rest) := by
  intro d hd
  cases hd
  exact h

namespace Cursor

theorem next_cons (o : Nat) (c : Char) (rest : List Char) :
    (⟨o, c :: rest⟩ : Cursor).next = ⟨o + c.utf8Size, rest⟩ := rfl

theorem skip_append {p : Char → Bool} {w rest : List Char} (hw : ∀ c ∈ w, p c = true)
    (hrest : ∀ c ∈ rest.head?, p c = false) (o : Nat) :
    (⟨o, w ++ rest⟩ : Cursor).skip p = ⟨o + byteLength w, rest⟩ := by
  simp only [skip, takeWhile_append_stop hw hrest, dropWhile_append_stop hw hrest]

theorem forward_append (o : Nat) (w rest : List Char) :
    (⟨o, w ++ rest⟩ : Cursor).forward w.length = ⟨o + byteLength w, rest⟩ := by
  simp [forward]

end Cursor

/-! ## Spacing -/

theorem trivia_solid {rest : List Char} (h : Solid rest) (o : Nat) :
    trivia ⟨o, rest⟩ = ([], ⟨o, rest⟩) := by
  cases rest with
  | nil => simp [trivia]
  | cons c rest =>
    obtain ⟨hgap, hslash⟩ := h c (by simp)
    rw [trivia]
    simp [hgap, hslash]

theorem trivia_blank {c : Char} (h : isGap c = true) (o : Nat) (rest : List Char) :
    trivia ⟨o, c :: rest⟩ = trivia ⟨o + c.utf8Size, rest⟩ := by
  have hslash : c ≠ '/' := by
    rintro rfl
    cases h
  rw [trivia]
  simp [h, hslash, Cursor.next]

theorem trivia_line {body rest : List Char} (hbody : '\n' ∉ body)
    (hrest : ∀ c ∈ rest.head?, c = '\n') (o : Nat) :
    let t : Cursor := ⟨o + byteLength ('/' :: '/' :: body), rest⟩
    trivia ⟨o, '/' :: '/' :: (body ++ rest)⟩ =
      (leaf .comment ⟨o, '/' :: '/' :: (body ++ rest)⟩ t :: (trivia t).1, (trivia t).2) := by
  have hskip := @Cursor.skip_append (· ≠ '\n') ('/' :: '/' :: body) rest
    (by
      intro c hc
      simp only [List.mem_cons] at hc
      rcases hc with rfl | rfl | hc
      · decide
      · decide
      · simpa using ne_of_mem_of_not_mem hc hbody)
    (by simpa using hrest) o
  simp only [List.cons_append] at hskip
  rw [trivia]
  simp only [hskip]

theorem trivia_block {body : List Char} (hbody : ¬ ['*', '/'] <:+: body) (o : Nat)
    (rest : List Char) :
    let w := '/' :: '*' :: (body ++ ['*', '/'])
    let t : Cursor := ⟨o + byteLength w, rest⟩
    trivia ⟨o, w ++ rest⟩ = (leaf .comment ⟨o, w ++ rest⟩ t :: (trivia t).1, (trivia t).2) := by
  intro w t
  have hw : w ++ rest = '/' :: '*' :: (body ++ '*' :: '/' :: rest) := by simp [w]
  have hlen : commentLength (w ++ rest) = w.length := by
    rw [hw, commentLength, List.drop_succ_cons, List.drop_succ_cons, List.drop_zero,
      cut?_closingMark hbody]
    simp [w]
  have hforward := Cursor.forward_append o w rest
  rw [← hlen] at hforward
  rw [hw] at hforward ⊢
  rw [trivia]
  simp only [hforward]
  rfl

theorem isGap_of_blank {c : Char} (h : c = ' ' ∨ c = '\t' ∨ c = '\n' ∨ c = '\r') :
    isGap c = true := by
  rcases h with rfl | rfl | rfl | rfl <;> rfl

theorem withoutCommentsAll_comment (s t : Cursor) (us : List Tree) :
    withoutCommentsAll (leaf .comment s t :: us) = withoutCommentsAll us := by
  simp [withoutCommentsAll, leaf, Tree.kind, Tree.children]

/-- A filler is skipped, and nothing of it but a comment is kept. -/
theorem trivia_filler (f : Filler) (o : Nat) (rest : List Char) :
    ∃ us, trivia ⟨o, f.text ++ rest⟩ =
        (us ++ (trivia ⟨o + byteLength f.text, rest⟩).1,
          (trivia ⟨o + byteLength f.text, rest⟩).2) ∧
      withoutCommentsAll us = [] := by
  cases f with
  | blank c hc =>
    refine ⟨[], ?_, rfl⟩
    exact trivia_blank (isGap_of_blank hc) o rest
  | block body hbody =>
    refine ⟨[_], trivia_block hbody o rest, ?_⟩
    exact withoutCommentsAll_comment _ _ _
  | line body hbody =>
    have hfeed := trivia_blank (c := '\n') (by decide)
      (o + byteLength ('/' :: '/' :: body)) rest
    have hline := @trivia_line body ('\n' :: rest) hbody (by simp) o
    have htext : (Filler.line body hbody).text ++ rest = '/' :: '/' :: (body ++ '\n' :: rest) := by
      simp [Filler.text]
    have hlen : byteLength (Filler.line body hbody).text =
        byteLength ('/' :: '/' :: body) + '\n'.utf8Size := by
      simp only [Filler.text, byteLength_cons, byteLength_append, byteLength_nil]
      omega
    rw [htext, hlen, ← Nat.add_assoc, ← hfeed]
    exact ⟨[_], hline, withoutCommentsAll_comment _ _ _⟩

/-- Spacing is skipped, and nothing of it but comments is kept. -/
theorem trivia_spacing_append (g : Spacing) (o : Nat) (rest : List Char) :
    ∃ us, trivia ⟨o, g.text ++ rest⟩ =
        (us ++ (trivia ⟨o + byteLength g.text, rest⟩).1,
          (trivia ⟨o + byteLength g.text, rest⟩).2) ∧
      withoutCommentsAll us = [] := by
  obtain ⟨fs⟩ := g
  simp only [Spacing.text]
  induction fs generalizing o with
  | nil => exact ⟨[], rfl, rfl⟩
  | cons f fs ih =>
    obtain ⟨us, hus, hnone⟩ := trivia_filler f o (fs.flatMap Filler.text ++ rest)
    obtain ⟨vs, hvs, hnone'⟩ := ih (o + byteLength f.text)
    refine ⟨us ++ vs, ?_, by simp [hnone, hnone']⟩
    rw [List.flatMap_cons, List.append_assoc, hus, hvs, byteLength_append, Nat.add_assoc,
      List.append_assoc]

/-- Spacing is skipped up to what comes behind it. -/
theorem trivia_spacing (g : Spacing) {rest : List Char} (h : Solid rest) (o : Nat) :
    ∃ us, trivia ⟨o, g.text ++ rest⟩ = (us, ⟨o + byteLength g.text, rest⟩) ∧
      withoutCommentsAll us = [] := by
  obtain ⟨us, hus, hnone⟩ := trivia_spacing_append g o rest
  rw [trivia_solid h, List.append_nil] at hus
  exact ⟨us, hus, hnone⟩

theorem follows_spacing (g : Spacing) {rest : List Char} (h : Follows rest) :
    Follows (g.text ++ rest) := by
  obtain ⟨fs⟩ := g
  cases fs with
  | nil => exact h
  | cons f fs =>
    intro c hc
    cases f with
    | blank d hd =>
      have hcd : d = c := by simpa [Spacing.text, Filler.text] using hc
      exact .inl (hcd ▸ isGap_of_blank hd)
    | block body hbody =>
      have hcd : '/' = c := by simpa [Spacing.text, Filler.text] using hc
      exact .inr (.inl hcd.symm)
    | line body hbody =>
      have hcd : '/' = c := by simpa [Spacing.text, Filler.text] using hc
      exact .inr (.inl hcd.symm)

/-! ## Numbers -/

theorem isAsciiDigit_of_isDigit {c : Char} (h : IsDigit c) : isAsciiDigit c = true := by
  simpa [isAsciiDigit, IsDigit] using h

/-- The end of a run of digits. -/
def NoDigit (rest : List Char) : Prop := ∀ c ∈ rest.head?, isAsciiDigit c = false

theorem digits_append (ds : Digits) {rest : List Char} (h : NoDigit rest) (o : Nat) :
    digits ⟨o, ds.chars ++ rest⟩ = (true, ⟨o + byteLength ds.chars, rest⟩) := by
  have hall : ∀ c ∈ ds.chars, isAsciiDigit c = true :=
    fun c hc => isAsciiDigit_of_isDigit (ds.isDigit c hc)
  obtain ⟨c, more, hds⟩ := List.exists_cons_of_ne_nil ds.ne_nil
  rw [digits, Cursor.skip_append hall h]
  simp [hds, hall c (by simp [hds])]

/-- Nothing that could continue a number comes first. -/
def NumberEnd (rest : List Char) : Prop :=
  ∀ c ∈ rest.head?, isAsciiDigit c = false ∧ c ≠ '.' ∧ c ≠ 'e' ∧ c ≠ 'E'

theorem Follows.numberEnd {rest : List Char} (h : Follows rest) : NumberEnd rest := by
  intro c hc
  rcases h c hc with hgap | rfl | rfl | rfl | rfl
  · rcases isGap_iff.mp hgap with rfl | rfl | rfl | rfl | rfl <;> decide
  all_goals decide

theorem exponentSign_append {sign : Option Char} (hsign : ∀ c ∈ sign, c = '+' ∨ c = '-')
    (ds : Digits) (rest : List Char) (o : Nat) :
    let t : Cursor := ⟨o, sign.toList ++ (ds.chars ++ rest)⟩
    (if t.rest.head? = some '+' || t.rest.head? = some '-' then t.next else t) =
      ⟨o + byteLength sign.toList, ds.chars ++ rest⟩ := by
  cases sign with
  | none =>
    obtain ⟨c, more, hds⟩ := List.exists_cons_of_ne_nil ds.ne_nil
    have hc := ds.isDigit c (by simp [hds])
    have hplus : c ≠ '+' := by
      rintro rfl
      exact absurd hc (by unfold IsDigit; decide)
    have hminus : c ≠ '-' := by
      rintro rfl
      exact absurd hc (by unfold IsDigit; decide)
    simp [hds, hplus, hminus]
  | some c =>
    rcases hsign c rfl with rfl | rfl <;> simp [Cursor.next]

theorem exponent_append (n : Numeral) {rest : List Char} (h : NumberEnd rest) (o : Nat) :
    exponent true ⟨o, n.exponentText ++ rest⟩ = (true, ⟨o + byteLength n.exponentText, rest⟩) := by
  cases hn : n.exponent with
  | none =>
    have hE : rest.head? ≠ some 'e' ∧ rest.head? ≠ some 'E' :=
      ⟨fun he => (h 'e' he).2.2.1 rfl, fun hE => (h 'E' hE).2.2.2 rfl⟩
    simp [exponent, Numeral.exponentText, hn, hE]
  | some e =>
    have hsign := exponentSign_append e.sign_eq e.digits rest (o + e.mark.utf8Size)
    have hdigits := digits_append e.digits (fun c hc => (h c hc).1)
      (o + e.mark.utf8Size + byteLength e.sign.toList)
    have hmark : e.mark = 'e' ∨ e.mark = 'E' := e.mark_eq
    have htext : n.exponentText ++ rest = e.mark :: (e.sign.toList ++ (e.digits.chars ++ rest)) := by
      simp [Numeral.exponentText, hn, Exponent.text]
    have hlen : byteLength n.exponentText =
        e.mark.utf8Size + byteLength e.sign.toList + byteLength e.digits.chars := by
      simp [Numeral.exponentText, hn, Exponent.text, Nat.add_assoc]
    rw [htext, hlen, exponent, if_pos (by simpa using hmark)]
    dsimp only at hsign ⊢
    rw [Cursor.next_cons, hsign, hdigits, ← Nat.add_assoc, ← Nat.add_assoc]

theorem fraction_append (n : Numeral) {rest : List Char} (hdigit : NoDigit rest)
    (hdot : rest.head? ≠ some '.') (o : Nat) :
    fraction true ⟨o, n.fractionText ++ rest⟩ = (true, ⟨o + byteLength n.fractionText, rest⟩) := by
  cases hn : n.fraction with
  | none => simp [fraction, Numeral.fractionText, hn, hdot]
  | some ds =>
    have hdigits := digits_append ds hdigit (o + '.'.utf8Size)
    simp only [fraction, Numeral.fractionText, hn, List.cons_append, List.head?_cons, decide_true,
      Bool.and_self, if_true, Cursor.next_cons, hdigits, byteLength_cons, Nat.add_assoc]

/-- What comes behind the digits of a number does not belong to them. -/
theorem noDigit_exponentText (n : Numeral) {rest : List Char} (h : NumberEnd rest) :
    NoDigit (n.exponentText ++ rest) ∧ (n.exponentText ++ rest).head? ≠ some '.' := by
  cases hn : n.exponent with
  | none =>
    simp only [Numeral.exponentText, hn, List.nil_append]
    exact ⟨fun c hc => (h c hc).1, fun hdot => (h '.' hdot).2.1 rfl⟩
  | some e =>
    simp only [Numeral.exponentText, hn, Exponent.text, NoDigit, List.cons_append, List.head?_cons,
      Option.mem_def, Option.some.injEq, forall_eq', ne_eq]
    rcases e.mark_eq with hmark | hmark <;> rw [hmark] <;> decide

theorem noDigit_fractionText (n : Numeral) {rest : List Char} (h : NoDigit rest) :
    NoDigit (n.fractionText ++ rest) := by
  cases hn : n.fraction with
  | none => simpa [Numeral.fractionText, hn] using h
  | some ds =>
    simp only [Numeral.fractionText, hn, NoDigit, List.cons_append, List.head?_cons,
      Option.mem_def, Option.some.injEq, forall_eq']
    decide

theorem optional_sign (n : Numeral) (rest : List Char) (o : Nat) :
    optional '-' ⟨o, n.sign ++ (n.whole.chars ++ rest)⟩ =
      ⟨o + byteLength n.sign, n.whole.chars ++ rest⟩ := by
  by_cases hn : n.negative
  · simp [optional, Numeral.sign, hn, Cursor.next]
  · obtain ⟨c, more, hds⟩ := List.exists_cons_of_ne_nil n.whole.ne_nil
    have hminus : c ≠ '-' := by
      rintro rfl
      exact absurd (n.whole.isDigit '-' (by simp [hds])) (by unfold IsDigit; decide)
    simp [optional, Numeral.sign, hn, hds, hminus]

theorem number_numeral (n : Numeral) {rest : List Char} (h : NumberEnd rest) (o : Nat) :
    number ⟨o, n.text ++ rest⟩ =
      (leafAt .number o n.text, ⟨o + byteLength n.text, rest⟩) := by
  obtain ⟨hdigit, hdot⟩ := noDigit_exponentText n h
  have hwhole := digits_append n.whole (noDigit_fractionText n hdigit) (o + byteLength n.sign)
  have hfrac := fraction_append n hdigit hdot (o + byteLength n.sign + byteLength n.whole.chars)
  have hexp := exponent_append n h
    (o + byteLength n.sign + byteLength n.whole.chars + byteLength n.fractionText)
  simp only [number, Numeral.text, List.append_assoc, optional_sign, hwhole, hfrac, hexp, if_true]
  simp only [leaf, leafAt, byteLength_append, Nat.add_assoc]

/-! ## Strings -/

theorem isStringContent_of_plain {c : Char} (h : 0x20 ≤ c.toNat ∧ c ≠ '"' ∧ c ≠ '\\') :
    isStringContent c = true := by
  have hfeed : c ≠ '\n' := by
    rintro rfl
    exact absurd h.1 (by decide)
  simp [isStringContent, h.2.1, h.2.2, hfeed]

/-- A run ends before a quote or a backslash. -/
def RunEnd (rest : List Char) : Prop := rest.head? = some '"' ∨ rest.head? = some '\\'

theorem stringParts_run (r : Run) {rest : List Char} (h : RunEnd rest) (o : Nat) :
    stringParts ⟨o, r.chars ++ rest⟩ =
      (r.trees o ++ (stringParts ⟨o + byteLength r.chars, rest⟩).1,
        (stringParts ⟨o + byteLength r.chars, rest⟩).2) := by
  cases hr : r.chars with
  | nil => simp [Run.trees, hr]
  | cons c more =>
    have hplain := r.plain
    rw [hr] at hplain
    obtain ⟨hlow, hquote, hslash⟩ := hplain c (by simp)
    have hfeed : c ≠ '\n' := by
      rintro rfl
      exact absurd hlow (by decide)
    have hskip := @Cursor.skip_append isStringContent more rest
      (fun d hd => isStringContent_of_plain (hplain d (List.mem_cons_of_mem c hd)))
      (by
        rintro d hd
        rcases h with h | h <;> rw [h] at hd <;> cases hd <;> rfl)
      (o + c.utf8Size)
    rw [List.cons_append, stringParts]
    simp only [Cursor.next_cons, hskip]
    simp [Run.trees, hr, leaf, leafAt, Nat.add_assoc]

theorem isHexDigit_of_grammar {c : Char} (h : IsHexDigit c) : isHexDigit c = true := by
  simpa [isHexDigit, IsHexDigit, IsDigit, isAsciiDigit, or_assoc] using h

theorem escapeLength_text (e : Escape) (rest : List Char) :
    escapeLength (e.text ++ rest) = e.text.length := by
  cases e with
  | letter c hc =>
    have hu : c ≠ 'u' := by
      rintro rfl
      exact absurd hc (by decide)
    have hfeed : c ≠ '\n' := by
      rintro rfl
      exact absurd hc (by decide)
    simp only [Escape.text, List.cons_append, List.nil_append]
    rw [escapeLength.eq_2 _ _ _ fun h => hu h, if_neg hfeed]
    rfl
  | code ds hlen hhex =>
    have htake : (ds ++ rest).take 4 = ds := by rw [← hlen, List.take_left]
    have hwhile : ds.takeWhile isHexDigit = ds := by
      have := @List.takeWhile_append_of_pos _ isHexDigit ds [] fun c hc => isHexDigit_of_grammar (hhex c hc)
      simpa using this
    simp only [Escape.text, List.cons_append, escapeLength, htake, hwhile, List.length_cons]
    omega

theorem stringParts_escape (e : Escape) (rest : List Char) (o : Nat) :
    stringParts ⟨o, e.text ++ rest⟩ =
      (leafAt .escapeSequence o e.text :: (stringParts ⟨o + byteLength e.text, rest⟩).1,
        (stringParts ⟨o + byteLength e.text, rest⟩).2) := by
  have hforward := Cursor.forward_append o e.text rest
  rw [← escapeLength_text e rest] at hforward
  obtain ⟨more, hmore⟩ : ∃ more, e.text ++ rest = '\\' :: more := by
    cases e <;> exact ⟨_, rfl⟩
  rw [hmore] at hforward ⊢
  rw [stringParts]
  simp only [hforward]
  rfl

theorem runEnd_moreText (more : List (Escape × Run)) (rest : List Char) :
    RunEnd (Quoted.moreText more ++ '"' :: rest) := by
  cases more with
  | nil => exact .inl rfl
  | cons p more =>
    obtain ⟨e, r⟩ := p
    cases e <;> exact .inr rfl

theorem stringParts_moreText (more : List (Escape × Run)) (rest : List Char) (o : Nat) :
    stringParts ⟨o, Quoted.moreText more ++ '"' :: rest⟩ =
      (Quoted.moreTrees o more ++ [tokenAt '"' (o + byteLength (Quoted.moreText more))], true,
        ⟨o + byteLength (Quoted.moreText more) + 1, rest⟩) := by
  induction more generalizing o with
  | nil =>
    rw [Quoted.moreText, List.nil_append, stringParts]
    rfl
  | cons p more ih =>
    obtain ⟨e, r⟩ := p
    simp only [Quoted.moreText, Quoted.moreTrees, List.append_assoc, stringParts_escape,
      stringParts_run r (runEnd_moreText more rest), ih, byteLength_append, Nat.add_assoc,
      List.cons_append]

theorem token_cons (c : Char) (rest : List Char) (o : Nat) :
    token c ⟨o, c :: rest⟩ = tokenAt c o := rfl

theorem string_quoted (q : Quoted) (rest : List Char) (o : Nat) :
    string ⟨o, q.text ++ rest⟩ = (q.tree o, ⟨o + byteLength q.text, rest⟩) := by
  have hsize : '"'.utf8Size = 1 := rfl
  have hrun := stringParts_run q.first (runEnd_moreText q.more rest) (o + 1)
  rw [stringParts_moreText] at hrun
  have htext : q.text ++ rest =
      '"' :: (q.first.chars ++ (Quoted.moreText q.more ++ '"' :: rest)) := by
    simp [Quoted.text, Quoted.inside]
  have hlen : o + byteLength q.text =
      o + 1 + byteLength q.first.chars + byteLength (Quoted.moreText q.more) + 1 := by
    simp only [Quoted.text, Quoted.inside, byteLength_cons, byteLength_append, byteLength_nil, hsize]
    omega
  rw [htext, string, Cursor.next_cons, hsize, hrun]
  simp only [if_true, token_cons]
  simp only [← hlen, Quoted.tree, Quoted.inside, byteLength_append, ← Nat.add_assoc,
    List.cons_append, List.append_assoc]

/-! ## Names -/

theorem Follows.not_wordPart {rest : List Char} (h : Follows rest) :
    ∀ c ∈ rest.head?, (isAsciiLetter c || isAsciiDigit c || c = '_') = false := by
  intro c hc
  rcases h c hc with hgap | rfl | rfl | rfl | rfl
  · rcases isGap_iff.mp hgap with rfl | rfl | rfl | rfl | rfl <;> decide
  all_goals decide

theorem word_literal (w : Literal) {rest : List Char} (h : Follows rest) (o : Nat) :
    word ⟨o, w.text ++ rest⟩ = (leafAt w.kind o w.text, ⟨o + byteLength w.text, rest⟩) := by
  have hall : ∀ c ∈ w.text, (isAsciiLetter c || isAsciiDigit c || c = '_') = true := by
    apply List.all_eq_true.mp
    cases w <;> rfl
  have hskip := Cursor.skip_append hall h.not_wordPart o
  have htake := takeWhile_append_stop hall h.not_wordPart
  simp only [word, hskip, htake]
  cases w <;> rfl

end NodeAtlas.Json
