import NodeAtlas.Proofs.Json.Nesting

/-!
Every derived value is read up to its end and as its tree. What the reader returns has comments in it,
so it is compared after they are taken out.
-/

namespace NodeAtlas.Json

open Text Grammar
open NodeAtlas.Json.Tree (withoutCommentsAll)

namespace Grammar.Bracket

def shape : Bracket → Shape
  | object => .object
  | array => .array

/-- Reads an item of a container, given how values are read. -/
def item (b : Bracket) (value : Cursor → Tree × Cursor) : Cursor → Tree × Cursor :=
  match b with
  | object => pair value
  | array => value

end Grammar.Bracket

/-! ## First characters -/

theorem startsValue_of_digit {c : Char} (h : isAsciiDigit c = true) : startsValue c = true := by
  simp [startsValue, isQuoteOrNumber, h]

theorem numeral_eq_cons (n : Numeral) :
    ∃ c w, n.text = c :: w ∧ (c = '-' ∨ isAsciiDigit c = true) := by
  by_cases hn : n.negative
  · exact ⟨'-', _, by simp [Numeral.text, Numeral.sign, hn]; rfl, .inl rfl⟩
  · obtain ⟨c, w, hds⟩ := List.exists_cons_of_ne_nil n.whole.ne_nil
    have hc := isAsciiDigit_of_isDigit (n.whole.isDigit c (by simp [hds]))
    exact ⟨c, _, by simp [Numeral.text, Numeral.sign, hn, hds]; rfl, .inr hc⟩

theorem value_eq_cons (v : Phrase) : ∃ c w, v.text = c :: w ∧ startsValue c = true := by
  cases v with
  | literal w => cases w <;> exact ⟨_, _, rfl, by decide⟩
  | number n =>
    obtain ⟨c, w, hw, hc⟩ := numeral_eq_cons n
    refine ⟨c, w, by rw [Phrase.text, hw], ?_⟩
    rcases hc with rfl | hc
    · decide
    · exact startsValue_of_digit hc
  | string q => exact ⟨_, _, rfl, by decide⟩
  | empty b inside => exact ⟨b.opening, _, by rw [Phrase.text], by cases b <;> decide⟩
  | container b items => exact ⟨b.opening, _, by rw [Phrase.text], by cases b <;> decide⟩

theorem item_eq_cons {b : Bracket} (l : Label b) (v : Phrase) :
    ∃ c w, l.text ++ v.text = c :: w ∧ b.shape.startsItem c = true := by
  cases l with
  | none => exact value_eq_cons v
  | key name before after => exact ⟨'"', _, rfl, by decide⟩

theorem startsValue_of_startsItem {b : Bracket} {c : Char} (h : b.shape.startsItem c = true) :
    startsValue c = true := by
  cases b with
  | array => exact h
  | object =>
    have hc : isQuoteOrNumber c = true := h
    simp [startsValue, hc]

/-- A character that starts a value is neither skipped nor a separator. -/
theorem not_gap_of_startsValue {c : Char} (h : startsValue c = true) :
    (isGap c = false ∧ c ≠ '/') ∧ c ≠ ',' ∧ c ≠ '\x7d' ∧ c ≠ ']' := by
  have hne (d : Char) (hd : startsValue d = false) : c ≠ d := by
    rintro rfl
    rw [h] at hd
    cases hd
  refine ⟨⟨?_, hne _ (by decide)⟩, hne _ (by decide), hne _ (by decide), hne _ (by decide)⟩
  by_cases hgap : isGap c
  · rcases isGap_iff.mp hgap with rfl | rfl | rfl | rfl | rfl <;> cases h
  · simpa using hgap

theorem solid_of_startsValue {c : Char} (h : startsValue c = true) (rest : List Char) :
    Solid (c :: rest) :=
  solid_cons (not_gap_of_startsValue h).1 rest

theorem solid_value (v : Phrase) (rest : List Char) : Solid (v.text ++ rest) := by
  obtain ⟨c, w, hw, hc⟩ := value_eq_cons v
  rw [hw]
  exact solid_of_startsValue hc _

theorem solid_closing (b : Bracket) (rest : List Char) : Solid (b.closing :: rest) :=
  solid_cons (by cases b <;> exact ⟨rfl, by decide⟩) rest

theorem follows_closing (b : Bracket) (rest : List Char) : Follows (b.closing :: rest) :=
  follows_cons (by cases b <;> simp [Bracket.closing]) rest

/-! ## Trees without comments -/

theorem withoutComments_leaf (k : NodeKind) (o : Nat) (w : List Char) :
    (leafAt k o w).withoutComments = leafAt k o w := rfl

theorem kind_tokenAt (c : Char) (o : Nat) : (tokenAt c o).kind ≠ .comment := by
  intro h
  cases h

theorem withoutCommentsAll_run (r : Run) (o : Nat) (us : List Tree) :
    withoutCommentsAll (r.trees o ++ us) = r.trees o ++ withoutCommentsAll us := by
  rw [withoutCommentsAll_append]
  unfold Run.trees
  split <;> rfl

theorem withoutCommentsAll_moreTrees (more : List (Escape × Run)) (o : Nat) (us : List Tree) :
    withoutCommentsAll (Quoted.moreTrees o more ++ us) =
      Quoted.moreTrees o more ++ withoutCommentsAll us := by
  induction more generalizing o with
  | nil => rfl
  | cons p more ih =>
    obtain ⟨e, r⟩ := p
    rw [Quoted.moreTrees, List.cons_append, List.cons_append,
      withoutCommentsAll_cons (by simp [leafAt, Tree.kind]), withoutComments_leaf,
      List.append_assoc, withoutCommentsAll_run, ih, List.cons_append, List.append_assoc]

theorem withoutComments_quoted (q : Quoted) (o : Nat) : (q.tree o).withoutComments = q.tree o := by
  simp only [Quoted.tree, Tree.withoutComments, List.cons_append, List.append_assoc]
  rw [withoutCommentsAll_cons (kind_tokenAt _ _), withoutCommentsAll_run,
    withoutCommentsAll_moreTrees]
  rfl

theorem kind_withoutComments (u : Tree) : u.withoutComments.kind = u.kind := by
  obtain ⟨k, s, e, ts⟩ := u
  rfl

theorem kind_value (v : Phrase) (depth o : Nat) : (v.tree depth o).kind ≠ .comment := by
  intro h
  cases v with
  | literal w => cases w <;> cases h
  | number n => cases h
  | string q => cases h
  | empty b inside =>
    simp only [Phrase.tree] at h
    split at h
    · cases h
    · cases b <;> cases h
  | container b items =>
    simp only [Phrase.tree] at h
    split at h
    · cases h
    · cases b <;> cases h

theorem kind_wrap {b : Bracket} (l : Label b) (v : Phrase) (depth o : Nat) (w : List Char) :
    (l.wrap o w fun o => v.tree depth o).kind ≠ .comment := by
  cases l with
  | none => exact kind_value v depth o
  | key name before after =>
    intro h
    cases h

/-! ## Items and separators -/

theorem key_quoted (q : Quoted) (o : Nat) (rest : List Char) :
    key ⟨o, q.text ++ rest⟩ = (q.tree o, ⟨o + byteLength q.text, rest⟩) := by
  have hquote : (q.text ++ rest).head? = some '"' := rfl
  rw [key, if_pos hquote, string_quoted]

/-- An item is read with its label when the value behind the label is. -/
theorem item_label {b : Bracket} (l : Label b) (v : Phrase) {read : Cursor → Tree × Cursor}
    {depth o : Nat} {rest : List Char} {u : Tree}
    (hread : read ⟨o + byteLength l.text, v.text ++ rest⟩ =
      (u, ⟨o + byteLength l.text + byteLength v.text, rest⟩))
    (hu : u.withoutComments = v.tree depth (o + byteLength l.text)) :
    ∃ i, b.item read ⟨o, l.text ++ (v.text ++ rest)⟩ =
        (i, ⟨o + byteLength l.text + byteLength v.text, rest⟩) ∧
      i.withoutComments = l.wrap o v.text fun o => v.tree depth o := by
  cases l with
  | none => exact ⟨u, hread, hu⟩
  | key name before after =>
    obtain ⟨c, w, hw, hc⟩ := value_eq_cons v
    have hcolonSolid : Solid (':' :: (after.text ++ (v.text ++ rest))) :=
      solid_cons ⟨rfl, by decide⟩ _
    obtain ⟨gap, hgap, hnone⟩ :=
      trivia_spacing before hcolonSolid (o + byteLength name.text)
    obtain ⟨gap', hgap', hnone'⟩ :=
      trivia_spacing after (solid_value v rest) (o + byteLength name.text + byteLength before.text + 1)
    have hcolon : ':'.utf8Size = 1 := rfl
    have hlen : o + byteLength (Label.key name before after).text =
        o + byteLength name.text + byteLength before.text + 1 + byteLength after.text := by
      simp only [Label.text, byteLength_append, byteLength_cons, hcolon]
      omega
    have htext : (Label.key name before after).text ++ (v.text ++ rest) =
        name.text ++ (before.text ++ ':' :: (after.text ++ (v.text ++ rest))) := by
      simp [Label.text]
    have hmatch : v.text ++ rest = c :: (w ++ rest) := by rw [hw, List.cons_append]
    rw [hlen] at hread hu ⊢
    refine ⟨.node .pair o (o + byteLength name.text + byteLength before.text + 1 +
        byteLength after.text + byteLength v.text)
      (name.tree o :: gap ++ tokenAt ':' (o + byteLength name.text + byteLength before.text) ::
        gap' ++ [u]), ?_, ?_⟩
    · rw [htext]
      simp only [Bracket.item, pair, key_quoted, hgap, List.head?_cons, if_true, Cursor.next_cons,
        hcolon, hgap', token_cons]
      rw [hmatch] at hread ⊢
      simp only [hc, if_true, hread]
    · have hkind : u.kind ≠ .comment := by
        rw [← kind_withoutComments, hu]
        exact kind_value v depth _
      have hname : (name.tree o).kind ≠ .comment := by
        intro h
        cases h
      have htoken := kind_tokenAt ':' (o + byteLength name.text + byteLength before.text)
      simp only [Label.wrap, hlen, Tree.withoutComments, List.cons_append, List.append_assoc]
      rw [withoutCommentsAll_cons hname, withoutCommentsAll_append, hnone,
        withoutComments_quoted, List.nil_append, withoutCommentsAll_cons htoken,
        withoutCommentsAll_append, hnone', withoutCommentsAll_cons hkind, hu]
      rfl

theorem separator_comma (closing : Char) (o : Nat) (rest : List Char) :
    separator closing ⟨o, ',' :: rest⟩ = ([tokenAt ',' o], ⟨o + 1, rest⟩) := rfl

theorem shape_closing (b : Bracket) : b.shape.closing = b.closing := by
  cases b <;> rfl

theorem separator_closing (b : Bracket) (o : Nat) (rest : List Char) :
    separator b.shape.closing ⟨o, b.closing :: rest⟩ = ([], ⟨o, b.closing :: rest⟩) := by
  cases b <;> rfl

/-! ## Rounds of a container -/

theorem round_closing (b : Bracket) (item : Cursor → Tree × Cursor) (g : Spacing) (o : Nat)
    (rest : List Char) :
    ∃ gap, round b.shape item ⟨o, g.text ++ b.closing :: rest⟩ =
        ⟨gap ++ [tokenAt b.closing (o + byteLength g.text)],
          ⟨o + byteLength g.text + 1, rest⟩, true⟩ ∧
      withoutCommentsAll gap = [] := by
  obtain ⟨gap, hgap, hnone⟩ := trivia_spacing g (solid_closing b rest) o
  have hsize : b.closing.utf8Size = 1 := by cases b <;> rfl
  refine ⟨gap, ?_, hnone⟩
  simp only [round, hgap, shape_closing, if_true, token_cons, Cursor.next_cons, hsize]

theorem round_item {b : Bracket} {item : Cursor → Tree × Cursor} {w rest : List Char}
    {o : Nat} {i : Tree} (before : Spacing) (gap : Spacing) {sep : List Tree} {t : Cursor}
    (hstart : ∃ c more, w = c :: more ∧ b.shape.startsItem c = true)
    (hitem : item ⟨o + byteLength before.text, w ++ (gap.text ++ rest)⟩ =
      (i, ⟨o + byteLength before.text + byteLength w, gap.text ++ rest⟩))
    (hsolid : Solid rest)
    (hsep : separator b.shape.closing
      ⟨o + byteLength before.text + byteLength w + byteLength gap.text, rest⟩ = (sep, t)) :
    ∃ us vs, round b.shape item ⟨o, before.text ++ (w ++ (gap.text ++ rest))⟩ =
        ⟨us ++ i :: vs ++ sep, t, false⟩ ∧
      withoutCommentsAll us = [] ∧ withoutCommentsAll vs = [] := by
  obtain ⟨c, more, rfl, hc⟩ := hstart
  have hvalue := startsValue_of_startsItem hc
  obtain ⟨-, hcomma, hbrace, hbracket⟩ := not_gap_of_startsValue hvalue
  have hclosing : c ≠ b.shape.closing := by cases b <;> assumption
  obtain ⟨us, hus, hnone⟩ :=
    trivia_spacing before (solid_of_startsValue hvalue (more ++ (gap.text ++ rest))) o
  obtain ⟨vs, hvs, hnone'⟩ :=
    trivia_spacing gap hsolid (o + byteLength before.text + byteLength (c :: more))
  refine ⟨us, vs, ?_, hnone, hnone'⟩
  rw [List.cons_append] at hitem ⊢
  simp only [round, hus, hclosing, hcomma, hc, if_true, if_false, hitem, hvs, hsep]

theorem items_closing (b : Bracket) (item : Cursor → Tree × Cursor) (g : Spacing) (o : Nat)
    (rest : List Char) :
    ∃ us, items b.shape item ⟨o, g.text ++ b.closing :: rest⟩ =
        (us, ⟨o + byteLength g.text + 1, rest⟩) ∧
      withoutCommentsAll us = [tokenAt b.closing (o + byteLength g.text)] := by
  obtain ⟨gap, hround, hnone⟩ := round_closing b item g o rest
  refine ⟨gap ++ [tokenAt b.closing (o + byteLength g.text)], ?_, ?_⟩
  · rw [items]
    simp [hround]
  · rw [withoutCommentsAll_append, hnone, withoutCommentsAll_cons (kind_tokenAt _ _)]
    rfl

theorem items_round {shape : Shape} {item : Cursor → Tree × Cursor} {s t : Cursor}
    {nodes : List Tree} (h : round shape item s = ⟨nodes, t, false⟩)
    (hlt : t.rest.length < s.rest.length) :
    items shape item s = (nodes ++ (items shape item t).1, (items shape item t).2) := by
  rw [items]
  simp [h, hlt]

/-! ## Values -/

theorem value_scalar {c : Char} (hbrace : c ≠ '\x7b') (hbracket : c ≠ '[') (room o : Nat)
    (rest : List Char) : value room ⟨o, c :: rest⟩ = scalar ⟨o, c :: rest⟩ := by
  cases room <;> simp [value, hbrace, hbracket]

theorem value_literal (w : Literal) (room o : Nat) {rest : List Char} (h : Follows rest) :
    value room ⟨o, w.text ++ rest⟩ = (leafAt w.kind o w.text, ⟨o + byteLength w.text, rest⟩) := by
  have hword := word_literal w h o
  rw [← hword]
  cases w <;> exact value_scalar (by decide) (by decide) room o _

theorem value_numeral (n : Numeral) (room o : Nat) {rest : List Char} (h : Follows rest) :
    value room ⟨o, n.text ++ rest⟩ = (leafAt .number o n.text, ⟨o + byteLength n.text, rest⟩) := by
  have hnumber := number_numeral n h.numberEnd o
  obtain ⟨c, w, hw, hc⟩ := numeral_eq_cons n
  rw [← hnumber, hw, List.cons_append]
  have hne (d : Char) (hd : d ≠ '-' ∧ isAsciiDigit d = false) : c ≠ d := by
    rintro rfl
    rcases hc with hc | hc
    · exact hd.1 hc
    · rw [hd.2] at hc
      cases hc
  rw [value_scalar (hne _ (by decide)) (hne _ (by decide))]
  have hquote := hne '"' (by decide)
  simp [scalar, hquote, hc]

theorem value_quoted (q : Quoted) (room o : Nat) (rest : List Char) :
    value room ⟨o, q.text ++ rest⟩ = (q.tree o, ⟨o + byteLength q.text, rest⟩) := by
  rw [← string_quoted]
  exact value_scalar (by decide) (by decide) room o _

theorem value_tooDeep (b : Bracket) (o : Nat) (rest : List Char) :
    value 0 ⟨o, b.opening :: rest⟩ = tooDeep ⟨o, b.opening :: rest⟩ := by
  cases b <;> rfl

theorem value_container (b : Bracket) (room o : Nat) (rest : List Char) :
    value (room + 1) ⟨o, b.opening :: rest⟩ =
      container b.shape (b.item (value room)) ⟨o, b.opening :: rest⟩ := by
  cases b <;> rfl

/-- A container is read when what is inside is read up to its closing bracket. -/
theorem value_bracket {b : Bracket} {room o : Nat} {inside rest : List Char} {us ts : List Tree}
    (hitems : items b.shape (b.item (value room)) ⟨o + 1, inside ++ b.closing :: rest⟩ =
      (us, ⟨o + 1 + byteLength inside + 1, rest⟩))
    (hus : withoutCommentsAll us = ts) :
    ∃ u, value (room + 1) ⟨o, b.opening :: (inside ++ [b.closing]) ++ rest⟩ =
        (u, ⟨o + byteLength (b.opening :: (inside ++ [b.closing])), rest⟩) ∧
      u.withoutComments =
        .node b.kind o (o + byteLength (b.opening :: (inside ++ [b.closing])))
          (tokenAt b.opening o :: ts) := by
  have hopen : b.opening.utf8Size = 1 := by cases b <;> rfl
  have hclose : b.closing.utf8Size = 1 := by cases b <;> rfl
  have hlen : o + byteLength (b.opening :: (inside ++ [b.closing])) =
      o + 1 + byteLength inside + 1 := by
    simp only [byteLength_cons, byteLength_append, byteLength_nil, hopen, hclose]
    omega
  have htext : b.opening :: (inside ++ [b.closing]) ++ rest =
      b.opening :: (inside ++ b.closing :: rest) := by simp
  have hkind : b.shape.kind = b.kind := by cases b <;> rfl
  have hopening : b.shape.opening = b.opening := by cases b <;> rfl
  rw [hlen, htext, value_container, container, Cursor.next_cons, hopen, hitems]
  refine ⟨_, rfl, ?_⟩
  rw [Tree.withoutComments, hopening, token_cons, withoutCommentsAll_cons (kind_tokenAt _ _), hus,
    hkind]
  rfl

/-- An item is read with the separator behind it when its value is. -/
theorem items_item {b : Bracket} (before : Spacing) (l : Label b) (v : Phrase) (after : Spacing)
    {room depth o : Nat} {rest : List Char} {sep : List Tree} {t : Cursor}
    (hvalue : ∃ u, value room ⟨o + byteLength before.text + byteLength l.text,
        v.text ++ (after.text ++ rest)⟩ =
          (u, ⟨o + byteLength before.text + byteLength l.text + byteLength v.text,
            after.text ++ rest⟩) ∧
      u.withoutComments = v.tree depth (o + byteLength before.text + byteLength l.text))
    (hsolid : Solid rest)
    (hsep : separator b.shape.closing ⟨o + byteLength before.text + byteLength l.text +
      byteLength v.text + byteLength after.text, rest⟩ = (sep, t))
    (hle : t.rest.length ≤ rest.length) :
    ∃ us, items b.shape (b.item (value room))
          ⟨o, before.text ++ (l.text ++ (v.text ++ (after.text ++ rest)))⟩ =
        (us ++ (items b.shape (b.item (value room)) t).1,
          (items b.shape (b.item (value room)) t).2) ∧
      withoutCommentsAll us =
        l.wrap (o + byteLength before.text) v.text (fun o => v.tree depth o) ::
          withoutCommentsAll sep := by
  obtain ⟨u, hread, hu⟩ := hvalue
  obtain ⟨i, hitem, hi⟩ := item_label l v hread hu
  obtain ⟨c, more, hstart, hc⟩ := item_eq_cons l v
  -- A round takes the text of an item as one word, with its label and its value.
  rw [← List.append_assoc, Nat.add_assoc _ (byteLength l.text), ← byteLength_append] at hitem
  rw [Nat.add_assoc _ (byteLength l.text), ← byteLength_append] at hsep
  obtain ⟨us, vs, hround, hus, hvs⟩ :=
    round_item before after ⟨c, more, hstart, hc⟩ hitem hsolid hsep
  have hlt : t.rest.length <
      (before.text ++ ((l.text ++ v.text) ++ (after.text ++ rest))).length := by
    rw [hstart]
    simp only [List.length_append, List.length_cons]
    omega
  have hkind : i.kind ≠ .comment := by
    rw [← kind_withoutComments, hi]
    exact kind_wrap l v depth _ _
  refine ⟨us ++ i :: vs ++ sep, ?_, ?_⟩
  · rw [← List.append_assoc l.text]
    exact items_round hround hlt
  · rw [withoutCommentsAll_append, withoutCommentsAll_append, hus, withoutCommentsAll_cons hkind,
      hvs, hi]
    rfl

mutual

/-- A value is read up to its end, as its tree. -/
theorem value_text : ∀ (v : Phrase) {room depth : Nat} (_ : room + depth = maxNesting)
    (_ : v.PlainBelow depth) (o : Nat) {rest : List Char} (_ : Follows rest),
    ∃ u, value room ⟨o, v.text ++ rest⟩ = (u, ⟨o + byteLength v.text, rest⟩) ∧
      u.withoutComments = v.tree depth o
  | .literal w, room, _, _, _, o, _, hrest => ⟨_, value_literal w room o hrest, rfl⟩
  | .number n, room, _, _, _, o, _, hrest => ⟨_, value_numeral n room o hrest, rfl⟩
  | .string q, room, _, _, _, o, rest, _ =>
    ⟨_, value_quoted q room o rest, withoutComments_quoted q o⟩
  -- No room is left exactly when 256 containers are around the value.
  | .empty b inside, 0, depth, hdepth, hplain, o, rest, _ => by
    have hdepth : depth = 256 := by simpa [maxNesting] using hdepth
    have hinside := neutral_spacing (hplain (by omega))
    rw [Phrase.tree, if_pos hdepth]
    refine ⟨leafAt .error o (Phrase.empty b inside).text, ?_, rfl⟩
    rw [Phrase.text, List.cons_append, value_tooDeep]
    exact tooDeep_bracket b o (skipContainer_neutral hinside 0 _)
  | .empty b inside, room + 1, depth, hdepth, _, o, rest, _ => by
    have hne : depth ≠ 256 := by
      simp only [maxNesting] at hdepth
      omega
    obtain ⟨us, hitems, hus⟩ := items_closing b (b.item (value room)) inside (o + 1) rest
    rw [Phrase.tree, if_neg hne]
    exact value_bracket hitems hus
  | .container b items, 0, depth, hdepth, hplain, o, rest, _ => by
    have hdepth : depth = 256 := by simpa [maxNesting] using hdepth
    rw [Phrase.PlainBelow, if_neg (by omega)] at hplain
    rw [Phrase.tree, if_pos hdepth]
    refine ⟨leafAt .error o (Phrase.container b items).text, ?_, rfl⟩
    rw [Phrase.text, List.cons_append, value_tooDeep]
    exact tooDeep_bracket b o (skipContainer_items hplain 0 _)
  | .container b items, room + 1, depth, hdepth, hplain, o, rest, _ => by
    simp only [maxNesting] at hdepth
    rw [Phrase.PlainBelow, if_pos (by omega)] at hplain
    obtain ⟨us, hitems, hus⟩ :=
      @items_text b items room (depth + 1) (by simp only [maxNesting]; omega) hplain (o + 1) rest
    rw [Phrase.tree, if_neg (by omega)]
    exact value_bracket hitems hus

/-- The items of a container are read up to its closing bracket, as their trees. -/
theorem items_text {b : Bracket} : ∀ (is : Items b) {room depth : Nat}
    (_ : room + depth = maxNesting) (_ : is.PlainBelow depth) (o : Nat) (rest : List Char),
    ∃ us, items b.shape (b.item (value room)) ⟨o, is.text ++ b.closing :: rest⟩ =
        (us, ⟨o + byteLength is.text + 1, rest⟩) ∧
      withoutCommentsAll us =
        is.trees depth o ++ [tokenAt b.closing (o + byteLength is.text)]
  | .last before l v after, room, depth, hdepth, hplain, o, rest => by
    obtain ⟨us, hitems, hus⟩ := items_item before l v after
      (value_text v hdepth hplain (o + byteLength before.text + byteLength l.text)
        (follows_spacing after (follows_closing b rest)))
      (solid_closing b rest) (separator_closing b _ rest) (Nat.le_refl _)
    have hstop : o + byteLength (Items.last before l v after).text =
        o + byteLength before.text + byteLength l.text + byteLength v.text +
          byteLength after.text := by
      simp only [Items.text, byteLength_append, Nat.add_assoc]
    rw [← hstop] at hitems
    -- The reader has used the spacing up already, so the last round meets the closing bracket.
    obtain ⟨vs, hlast, hvs⟩ : ∃ vs,
        items b.shape (b.item (value room))
            ⟨o + byteLength (Items.last before l v after).text, b.closing :: rest⟩ =
          (vs, ⟨o + byteLength (Items.last before l v after).text + 1, rest⟩) ∧
        withoutCommentsAll vs =
          [tokenAt b.closing (o + byteLength (Items.last before l v after).text)] :=
      items_closing b (b.item (value room)) ⟨[]⟩ _ rest
    refine ⟨us ++ vs, ?_, ?_⟩
    · rw [hlast] at hitems
      simpa only [Items.text, List.append_assoc] using hitems
    · rw [withoutCommentsAll_append, hus, hvs]
      rfl
  | .cons before l v after more, room, depth, hdepth, ⟨hv, hmore⟩, o, rest => by
    have hfollows : Follows (',' :: (more.text ++ b.closing :: rest)) :=
      follows_cons (.inr (.inr (.inl rfl))) _
    have hsolid : Solid (',' :: (more.text ++ b.closing :: rest)) := solid_cons ⟨rfl, by decide⟩ _
    obtain ⟨us, hitems, hus⟩ := items_item before l v after
      (value_text v hdepth hv (o + byteLength before.text + byteLength l.text)
        (follows_spacing after hfollows))
      hsolid (separator_comma b.shape.closing _ _) (Nat.le_succ _)
    obtain ⟨vs, hrest, hvs⟩ := items_text more hdepth hmore
      (o + byteLength before.text + byteLength l.text + byteLength v.text +
        byteLength after.text + 1) rest
    have hstop : o + byteLength (Items.cons before l v after more).text =
        o + byteLength before.text + byteLength l.text + byteLength v.text +
          byteLength after.text + 1 + byteLength more.text := by
      have hcomma : ','.utf8Size = 1 := rfl
      simp only [Items.text, byteLength_append, byteLength_cons, hcomma]
      omega
    rw [hstop]
    refine ⟨us ++ vs, ?_, ?_⟩
    · simp only [Items.text, List.append_assoc, List.cons_append, hitems, hrest]
    · rw [withoutCommentsAll_append, hus, hvs]
      rfl

end

end NodeAtlas.Json
