import NodeAtlas.Proofs.Definition.Occurrences
import NodeAtlas.Proofs.Definition.Scanner

/-!
Rows and chunks, byte by byte. Reading the arguments of a row and reading a chunk never fails, and ends
where the lexer ends it.
-/

namespace NodeAtlas.Definition

open Text

/-! ## Rows -/

/-- The chunk of a row, when these are its arguments so far and what follows them gives more. -/
def rowCut (front called : List Char) (args : List (List Char)) (rest : List Char)
    (r : Option (List (List Char)) × Nat) : Cut :=
  ⟨some (match r.1 with
    | some more => .row (args ++ more.map trim)
    | none => .malformed (called ++ rest.take r.2)),
    byteLength (front ++ called) + byteLength (rest.take r.2)⟩

theorem rowCut_extend (front called : List Char) (args : List (List Char)) (arg rest : List Char)
    (r : Option (List (List Char)) × Nat) :
    rowCut front called args (arg ++ rest) (extend arg r) =
      ⟨some (match r.1 with
        | some more => .row (args ++ (prepend arg more).map trim)
        | none => .malformed (called ++ (arg ++ rest.take r.2))),
        byteLength (front ++ called) + byteLength arg + byteLength (rest.take r.2)⟩ := by
  obtain ⟨more, n⟩ := r
  have htake : (arg ++ rest).take (n + arg.length) = arg ++ rest.take n := by
    rw [Nat.add_comm, List.take_length_add_append]
  cases more <;> simp only [rowCut, extend, Option.map_some, Option.map_none, htake, byteLength_append,
    Nat.add_assoc]

/-- Behind a comma, the argument in front of it is one of those before. -/
theorem rowCut_comma (front called : List Char) (args : List (List Char)) (arg rest : List Char) :
    rowCut front (called ++ (arg ++ [','])) (args ++ [trim arg]) ([] ++ rest)
        (extend [] (arguments 0 rest)) =
      rowCut front called args (arg ++ ',' :: rest) (extend arg (arguments 0 (',' :: rest))) := by
  have hreads := reads_arguments 0 rest
  rw [arguments_comma, rowCut_extend, rowCut_extend]
  generalize arguments 0 rest = r at hreads
  obtain ⟨more, n⟩ := r
  cases more with
  | none => simp [Nat.add_assoc]
  | some more =>
    obtain ⟨hne, -⟩ := hreads more rfl
    obtain ⟨first, later, rfl⟩ := List.exists_cons_of_ne_nil hne
    simp [prepend, Nat.add_assoc]

/-- Bytes that mean nothing among arguments are passed over. -/
theorem arguments?_plain {s : List Char} {name start depth steps : Nat} {args : List (List Char)}
    {w bs : List UInt8} (hw : ∀ b ∈ w, (b ≠ '"'.toUInt8 ∧ b ≠ '\''.toUInt8) ∧ b ≠ '('.toUInt8 ∧
      b ≠ ')'.toUInt8 ∧ ¬ (b = ','.toUInt8 ∧ depth = 0)) {o : Nat}
    (h : bytesFrom? s o = some (w ++ bs)) :
    arguments? s name (steps + w.length) args start depth o =
      arguments? s name steps args start depth (o + w.length) := by
  induction w generalizing o with
  | nil => rfl
  | cons b w ih =>
    obtain ⟨⟨hquote, hopen, hclose, hcomma⟩, hw⟩ := List.forall_mem_cons.mp hw
    rw [List.cons_append] at h
    have hround : arguments? s name (steps + w.length + 1) args start depth o =
        arguments? s name (steps + w.length) args start depth (o + 1) := by
      rw [arguments?, h]
      simp only [Option.bind_eq_bind, Option.bind_some, hquote, hopen, hclose, hcomma, or_self,
        false_and, if_false]
    rw [List.length_cons, ← Nat.add_assoc, hround, ih hw (bytesFrom?_succ h), Nat.add_right_comm,
      Nat.add_assoc]

section Rounds

variable {s : List Char} {name start depth steps o : Nat} {args : List (List Char)} {rest : List Char}

theorem arguments?_opening (h : bytesFrom? s o = some (utf8 ('(' :: rest))) :
    arguments? s name (steps + 1) args start depth o =
      arguments? s name steps args start (depth + 1) (o + 1) := by
  rw [arguments?, h]
  rfl

theorem arguments?_closing (h : bytesFrom? s o = some (utf8 (')' :: rest))) :
    arguments? s name (steps + 1) args start (depth + 1) o =
      arguments? s name steps args start depth (o + 1) := by
  rw [arguments?, h]
  rfl

theorem arguments?_last {arg : List Char} (h : bytesFrom? s o = some (utf8 (')' :: rest)))
    (harg : slice? s start o = some arg) :
    arguments? s name (steps + 1) args start 0 o =
      some ⟨some (.row (args ++ [trim arg])), o + 1⟩ := by
  rw [arguments?, h, harg]
  rfl

theorem arguments?_comma {arg : List Char} (h : bytesFrom? s o = some (utf8 (',' :: rest)))
    (harg : slice? s start o = some arg) :
    arguments? s name (steps + 1) args start 0 o =
      arguments? s name steps (args ++ [trim arg]) (o + 1) 0 (o + 1) := by
  rw [arguments?, h, harg]
  rfl

theorem arguments?_end {text : List Char} (h : bytesFrom? s o = some [])
    (htext : slice? s name o = some text) :
    arguments? s name (steps + 1) args start depth o = some ⟨some (.malformed text), o⟩ := by
  rw [arguments?, h, htext]
  rfl

theorem arguments?_quoted {c : Char} (hc : c = '"' ∨ c = '\'')
    (h : bytesFrom? s o = some (utf8 (c :: rest))) {stop : Nat}
    (hstop : literal? s o = some (stop, true)) :
    arguments? s name (steps + 1) args start depth o =
      arguments? s name steps args start depth stop := by
  rw [arguments?, h, hstop]
  rcases hc with rfl | rfl <;> rfl

theorem arguments?_broken {c : Char} (hc : c = '"' ∨ c = '\'')
    (h : bytesFrom? s o = some (utf8 (c :: rest))) {stop : Nat}
    (hstop : literal? s o = some (stop, false)) {text : List Char}
    (htext : slice? s name stop = some text) :
    arguments? s name (steps + 1) args start depth o = some ⟨some (.malformed text), stop⟩ := by
  rw [arguments?, h, hstop]
  rcases hc with rfl | rfl
  · show (slice? s name stop).bind _ = _
    rw [htext]
    rfl
  · show (slice? s name stop).bind _ = _
    rw [htext]
    rfl

theorem arguments?_plainChar {c : Char} (hquote : ¬ (c = '"' ∨ c = '\'')) (hopen : c ≠ '(')
    (hclose : c ≠ ')') (hcomma : ¬ (c = ',' ∧ depth = 0))
    (h : bytesFrom? s o = some (utf8 (c :: rest))) :
    arguments? s name (steps + c.utf8Size) args start depth o =
      arguments? s name steps args start depth (o + c.utf8Size) := by
  rw [utf8_cons] at h
  rw [not_or] at hquote
  rw [← String.length_utf8EncodeChar]
  refine arguments?_plain (fun b hb => ?_) h
  refine ⟨⟨ne_toUInt8_of_mem (by decide) hquote.1 hb, ne_toUInt8_of_mem (by decide) hquote.2 hb⟩,
    ne_toUInt8_of_mem (by decide) hopen hb, ne_toUInt8_of_mem (by decide) hclose hb, ?_⟩
  rintro ⟨hb', hdepth⟩
  exact ne_toUInt8_of_mem (by decide) (fun hc => hcomma ⟨hc, hdepth⟩) hb hb'

end Rounds

/-! A row is read on behind its name, behind what has been read of it and behind the current argument. -/

section Places

variable (front called arg rest : List Char)

theorem bytesFrom?_argument : bytesFrom? (front ++ (called ++ (arg ++ rest)))
    (byteLength (front ++ called) + byteLength arg) = some (utf8 rest) := by
  rw [← List.append_assoc front]
  exact bytesFrom?_behind (front ++ called) arg rest

theorem slice?_argument : slice? (front ++ (called ++ (arg ++ rest))) (byteLength (front ++ called))
    (byteLength (front ++ called) + byteLength arg) = some arg := by
  rw [← List.append_assoc front]
  exact slice?_append (front ++ called) arg rest

theorem slice?_called : slice? (front ++ (called ++ (arg ++ rest))) (byteLength front)
    (byteLength (front ++ called) + byteLength arg) = some (called ++ arg) := by
  rw [← List.append_assoc called, byteLength_append, Nat.add_assoc, ← byteLength_append]
  exact slice?_append front (called ++ arg) rest

theorem literal?_argument {quote : Char} (hquote : IsAscii quote) :
    literal? (front ++ (called ++ (arg ++ quote :: rest)))
        (byteLength (front ++ called) + byteLength arg) =
      some (byteLength (front ++ called) + byteLength arg +
          byteLength ((quote :: rest).take (literalLength (quote :: rest)).1),
        (literalLength (quote :: rest)).2) := by
  have hread := literal?_eq hquote (front ++ called ++ arg) rest
  rwa [byteLength_append, List.append_assoc, List.append_assoc] at hread

end Places

/-! A round takes at least one byte, so with every round as many steps are left as before. -/

section Steps

variable (c : Char) (rest : List Char) (k : Nat)

theorem steps_char : byteLength (c :: rest) + k + 1 = byteLength rest + k + 1 + c.utf8Size := by
  rw [byteLength_cons]
  omega

theorem steps_ascii {c : Char} (hc : IsAscii c) :
    byteLength (c :: rest) + k + 1 = byteLength rest + k + 1 + 1 := by
  rw [steps_char, utf8Size_ascii hc]

theorem steps_take {n : Nat} (hn : 0 < n) : byteLength (c :: rest) + k + 1 =
    byteLength ((c :: rest).drop n) + (byteLength ((c :: rest).take n) - 1 + k) + 1 + 1 := by
  have htaken : 0 < byteLength ((c :: rest).take n) :=
    byteLength_pos (by simp [Nat.ne_of_gt hn])
  have hparts : byteLength (c :: rest) = byteLength ((c :: rest).take n) +
      byteLength ((c :: rest).drop n) := by
    rw [← byteLength_append, List.take_append_drop]
  omega

end Steps

/-- Every round goes on behind a part of the current argument or behind a comma. -/
theorem arguments?_eq (depth : Nat) (rest front called arg : List Char) (args : List (List Char))
    (k : Nat) :
    arguments? (front ++ (called ++ (arg ++ rest))) (byteLength front) (byteLength rest + k + 1) args
        (byteLength (front ++ called)) depth (byteLength (front ++ called) + byteLength arg) =
      some (rowCut front called args (arg ++ rest) (extend arg (arguments depth rest))) := by
  induction depth, rest using arguments.induct generalizing called arg args k with
  | case1 depth =>
    rw [arguments?_end (bytesFrom?_argument front called arg []) (slice?_called front called arg []),
      arguments, rowCut_extend]
    simp
  | case2 depth c rest hc n _ m heq hn ih =>
    obtain ⟨hpos, -⟩ := literalLength_le hn
    obtain ⟨j, rfl⟩ := Nat.exists_eq_succ_of_ne_zero (Nat.ne_of_gt hpos)
    have hascii : IsAscii c := by rcases hc with rfl | rfl <;> decide
    have hstop := literal?_argument front called arg rest hascii
    rw [hn] at hstop
    have hnext := ih called (arg ++ (c :: rest).take (j + 1)) args
      (byteLength ((c :: rest).take (j + 1)) - 1 + k)
    rw [Nat.succ_sub_one, ← List.drop_succ_cons (a := c), List.append_assoc, List.take_append_drop,
      ← extend_extend, ← arguments_quoted rfl hc hn, byteLength_append arg,
      ← Nat.add_assoc (byteLength (front ++ called))] at hnext
    rw [steps_take c rest k hpos,
      arguments?_quoted hc (bytesFrom?_argument front called arg _) hstop]
    exact hnext
  | case3 depth c rest hc n closed hclosed hn =>
    obtain rfl : closed = false := by simpa using hclosed
    have hascii : IsAscii c := by rcases hc with rfl | rfl <;> decide
    have hstop := literal?_argument front called arg rest hascii
    rw [hn] at hstop
    have htext := slice?_called front called (arg ++ (c :: rest).take n) ((c :: rest).drop n)
    rw [List.append_assoc, List.take_append_drop, byteLength_append arg, ← Nat.add_assoc] at htext
    rw [arguments?_broken hc (bytesFrom?_argument front called arg _) hstop htext,
      arguments_broken hc hn, rowCut_extend]
  | case4 depth rest _ m heq hc ih =>
    have hnext := ih called (arg ++ ['(']) args k
    rw [List.append_assoc, byteLength_append arg, ← extend_extend, ← arguments_opening,
      ← Nat.add_assoc] at hnext
    rw [steps_ascii _ _ (by decide), arguments?_opening (bytesFrom?_argument front called arg _)]
    exact hnext
  | case5 rest =>
    rw [steps_ascii _ _ (by decide), arguments?_last (bytesFrom?_argument front called arg _)
      (slice?_argument front called arg _), arguments_last, rowCut_extend]
    simp [prepend]
    rfl
  | case6 rest depth _ m heq hc hopen ih =>
    have hnext := ih called (arg ++ [')']) args k
    rw [List.append_assoc, byteLength_append arg, ← extend_extend, ← arguments_closing,
      ← Nat.add_assoc] at hnext
    rw [steps_ascii _ _ (by decide), arguments?_closing (bytesFrom?_argument front called arg _)]
    exact hnext
  | case7 depth c rest hc hopen hclose hcomma _ m heq ih =>
    -- The argument is complete, and the next one is empty so far.
    obtain ⟨rfl, rfl⟩ := hcomma
    have hnext := ih (called ++ (arg ++ [','])) [] (args ++ [trim arg]) k
    have hwhole : called ++ (arg ++ [',']) ++ ([] ++ rest) = called ++ (arg ++ ',' :: rest) := by
      simp
    have hstart : byteLength (front ++ (called ++ (arg ++ [',']))) =
        byteLength (front ++ called) + byteLength arg + 1 := by
      rw [← List.append_assoc, ← List.append_assoc, byteLength_append, byteLength_append _ arg]
      rfl
    rw [rowCut_comma, hwhole, hstart] at hnext
    rw [steps_ascii _ _ (by decide), arguments?_comma (bytesFrom?_argument front called arg _)
      (slice?_argument front called arg _)]
    exact hnext
  | case8 depth c rest hc hopen hclose hcomma _ m heq ih =>
    have hnext := ih called (arg ++ [c]) args k
    rw [List.append_assoc, byteLength_append arg, ← extend_extend,
      ← arguments_plain (not_or.mp hc) hopen hclose (Decidable.not_and_iff_or_not.mp hcomma),
      ← Nat.add_assoc] at hnext
    rw [steps_char, arguments?_plainChar hc hopen hclose hcomma
      (bytesFrom?_argument front called arg _)]
    exact hnext

theorem take_called (gap more : List Char) (n : Nat) :
    (gap ++ '(' :: more).take (gap.length + 1 + n) = gap ++ ['('] ++ more.take n := by
  have happ : gap ++ '(' :: more = (gap ++ ['(']) ++ more := by simp
  have hlength : gap.length + 1 = (gap ++ ['(']).length := by simp
  rw [happ, hlength, List.take_length_add_append]

theorem extend_nil_arguments (depth : Nat) (rest : List Char) :
    extend [] (arguments depth rest) = arguments depth rest := by
  have hreads := reads_arguments depth rest
  generalize arguments depth rest = r at hreads
  obtain ⟨more, n⟩ := r
  cases more with
  | none => rfl
  | some more =>
    obtain ⟨first, later, rfl⟩ := List.exists_cons_of_ne_nil (hreads more rfl).1
    rfl

/-- What follows the name of a row is blanks and something else. -/
theorem exists_gap (s : List Char) : ∃ gap more, s = gap ++ more ∧ (∀ c ∈ gap, isGap c = true) ∧
    ∀ c ∈ more.head?, isGap c = false := by
  refine ⟨s.takeWhile isGap, s.dropWhile isGap, List.takeWhile_append_dropWhile.symm,
    List.all_eq_true.mp List.all_takeWhile, fun c hc => ?_⟩
  have hstop := List.head?_dropWhile_not isGap s
  rw [Option.mem_def.mp hc] at hstop
  exact hstop

theorem invocation_open {gap : List Char} (hgap : ∀ c ∈ gap, isGap c = true) (more : List Char) :
    invocation (gap ++ '(' :: more) =
      ⟨some (match (arguments 0 more).1 with
        | some args => .row (args.map trim)
        | none => .malformed (gap ++ ['('] ++ more.take (arguments 0 more).2)),
        gap.length + 1 + (arguments 0 more).2⟩ := by
  have htake : (gap ++ '(' :: more).takeWhile isGap = gap :=
    takeWhile_append_stop hgap fun c hc => by
      cases hc
      rfl
  rw [invocation]
  simp only [htake, List.drop_left]
  generalize arguments 0 more = r
  obtain ⟨args, n⟩ := r
  cases args <;> simp only [take_called]

theorem invocation_mention {gap more : List Char} (hgap : ∀ c ∈ gap, isGap c = true)
    (hmore : ∀ c ∈ more.head?, isGap c = false) (hopen : more.head? ≠ some '(') :
    invocation (gap ++ more) = ⟨none, 0⟩ := by
  rw [invocation]
  simp only [takeWhile_append_stop hgap hmore, List.drop_left]
  split
  · exact absurd rfl hopen
  · rfl

theorem invocation?_eq (front rest : List Char) {steps : Nat} (hsteps : byteLength rest < steps) :
    invocation? (front ++ rest) steps (byteLength front) =
      some ((invocation rest).cut front rest) := by
  have hgaps := pass?_eq agrees_isGap front rest
  obtain ⟨gap, more, rfl, hgap, hmore⟩ := exists_gap rest
  have hbs := bytesFrom?_behind front gap more
  have hopening := head?_utf8 (d := '(') (by decide) more
  rw [takeWhile_append_stop hgap hmore] at hgaps
  simp only [invocation?, hgaps, hbs, Option.bind_eq_bind, Option.bind_some, hopening]
  by_cases hopen : more.head? = some '('
  · rw [if_pos hopen]
    obtain ⟨more, rfl⟩ := List.head?_eq_some_iff.mp hopen
    obtain ⟨k, rfl⟩ : ∃ k, steps = byteLength more + k + 1 := by
      rw [byteLength_append, byteLength_cons] at hsteps
      exact Nat.exists_eq_add_of_lt (by omega)
    have hnext := arguments?_eq 0 more front (gap ++ ['(']) [] [] k
    have hwhole : gap ++ ['('] ++ more = gap ++ '(' :: more := by simp
    have hstart : byteLength (front ++ (gap ++ ['('])) = byteLength front + byteLength gap + 1 := by
      rw [← List.append_assoc, byteLength_append, byteLength_append]
      rfl
    rw [List.nil_append, extend_nil_arguments, hwhole, hstart, byteLength_nil, Nat.add_zero] at hnext
    rw [hnext, invocation_open hgap, rowCut, Chunk.cut, take_called, byteLength_append front,
      byteLength_append (gap ++ ['(']), Nat.add_assoc]
    rfl
  · rw [if_neg hopen, invocation_mention hgap hmore hopen]
    rfl

theorem word?_eq (front rest : List Char) {steps : Nat} (hsteps : byteLength rest < steps) :
    word? (front ++ rest) steps (byteLength front) = some ((word rest).cut front rest) := by
  have hstop := pass?_eq agrees_isWordPart front rest
  have hrest := List.prefix_iff_eq_append.mp (List.takeWhile_prefix isWordPart (l := rest))
  have hname := slice?_append front (rest.takeWhile isWordPart)
    (rest.drop (rest.takeWhile isWordPart).length)
  rw [hrest] at hname
  unfold word
  dsimp only
  generalize rest.takeWhile isWordPart = name at hstop hname hrest
  generalize rest.drop name.length = more at hname hrest
  subst hrest
  simp only [word?, hstop, hname, Option.bind_eq_bind, Option.bind_some]
  by_cases hrow : name = rowName
  · rw [if_pos hrow, if_pos hrow]
    have hmore : byteLength more < steps := by
      rw [byteLength_append] at hsteps
      omega
    have hnext := invocation?_eq (front ++ name) more hmore
    rw [byteLength_append, List.append_assoc] at hnext
    rw [hnext]
    simp only [Chunk.cut, List.take_length_add_append, byteLength_append, Nat.add_assoc]
  · rw [if_neg hrow, if_neg hrow, Chunk.cut, List.take_left]
    rfl

/-! ## Chunks -/

theorem atLineStart?_eq (front rest : List Char) :
    atLineStart? (front ++ rest) (byteLength front) = some (freshAfter true front) := by
  rw [atLineStart?, slice?_prefix, Option.map_some, Option.some.injEq]
  induction front using List.reverseRecOn with
  | nil => rfl
  | append_singleton front c ih =>
    have hbytes : (utf8 (front ++ [c])).reverse =
        (String.utf8EncodeChar c).reverse ++ (utf8 front).reverse := by
      rw [utf8_append, utf8_cons, List.reverse_append]
      simp [utf8]
    have hfresh : freshAfter true (front ++ [c]) = (c = '\n' || (freshAfter true front && isGap c)) := by
      rw [freshAfter_append]
      rfl
    rw [hbytes, hfresh]
    by_cases hc : c = '\n'
    · subst hc
      rfl
    · have hpass : ∀ b ∈ (String.utf8EncodeChar c).reverse, inLine (.ofUInt8 b) = true := by
        intro b hb
        exact (agrees_inLine c b (List.mem_reverse.mp hb)).trans (decide_eq_true hc)
      rw [List.takeWhile_append_of_pos hpass, List.all_append, List.all_reverse, agrees_isGap.all_eq, ih,
        decide_eq_false hc, Bool.false_or, Bool.and_comm]

theorem chunk_other (fresh : Bool) {c : Char} {rest : List Char}
    (hblock : ¬ (c = '/' ∧ rest.head? = some '*')) (hline : ¬ (c = '/' ∧ rest.head? = some '/')) :
    chunk fresh (c :: rest) =
      if c = '#' && fresh then ⟨none, directiveLength (c :: rest)⟩
      else if c = '"' || c = '\'' then ⟨none, (literalLength (c :: rest)).1⟩
      else if isWordStart c then word (c :: rest)
      else ⟨none, 1⟩ := by
  rw [chunk.eq_3]
  · rintro more rfl rfl
    exact hblock ⟨rfl, rfl⟩
  · rintro more rfl rfl
    exact hline ⟨rfl, rfl⟩

theorem blockComment_length_pos (rest : List Char) :
    0 < (blockComment ('/' :: '*' :: rest)).length := by
  by_cases hd : ['*'] <+: rest ∧ ¬ ['*', '/'] <+: rest
  · obtain ⟨⟨body, hbody⟩, hclosed⟩ := hd
    obtain rfl : rest = '*' :: body := hbody.symm
    rw [blockComment_doc hclosed]
    exact Nat.succ_pos _
  · rw [blockComment_plain hd]
    exact Nat.succ_pos _

theorem word_length_pos {c : Char} (hc : isWordStart c = true) (rest : List Char) :
    0 < (word (c :: rest)).length := by
  have hpart : isWordPart c = true := by rw [isWordPart, hc, Bool.true_or]
  unfold word
  rw [List.takeWhile_cons_of_pos hpart]
  dsimp only
  split
  · exact Nat.lt_of_lt_of_le (Nat.succ_pos _) (Nat.le_add_right _ _)
  · exact Nat.succ_pos _

theorem literalLength_pos (quote : Char) (rest : List Char) :
    0 < (literalLength (quote :: rest)).1 := by
  unfold literalLength
  dsimp only
  split
  · exact Nat.succ_pos _
  · exact Nat.lt_of_lt_of_le (Nat.succ_pos _) (Nat.le_add_right _ _)

/-- Every chunk takes a character. -/
theorem chunk_length_pos (fresh : Bool) (c : Char) (rest : List Char) :
    0 < (chunk fresh (c :: rest)).length := by
  by_cases hblock : c = '/' ∧ rest.head? = some '*'
  · obtain ⟨rfl, hstar⟩ := hblock
    obtain ⟨rest, rfl⟩ := List.head?_eq_some_iff.mp hstar
    exact blockComment_length_pos rest
  by_cases hline : c = '/' ∧ rest.head? = some '/'
  · obtain ⟨rfl, hslash⟩ := hline
    obtain ⟨rest, rfl⟩ := List.head?_eq_some_iff.mp hslash
    show 0 < (lineComment ('/' :: '/' :: rest)).length
    rw [lineComment_eq]
    exact Nat.succ_pos _
  rw [chunk_other fresh hblock hline]
  split
  · next hhash =>
    obtain rfl : c = '#' := by simp at hhash; exact hhash.1
    simp [directiveLength]
  split
  · exact literalLength_pos c rest
  split
  · next hword => exact word_length_pos hword rest
  · exact Nat.one_pos

theorem chunk?_eq {c : Char} (hc : IsAscii c) (front rest : List Char) {steps : Nat}
    (hsteps : byteLength (c :: rest) < steps) :
    chunk? (front ++ c :: rest) steps (byteLength front) c.toUInt8 (utf8 rest).head? =
      some ((chunk (freshAfter true front) (c :: rest)).cut front (c :: rest)) := by
  have hfresh : (if c = '#' then atLineStart? (front ++ c :: rest) (byteLength front)
      else some false) = some (c = '#' && freshAfter true front) := by
    rw [atLineStart?_eq]
    by_cases hhash : c = '#' <;> simp [hhash]
  have hsame {d : Char} (hd : IsAscii d) : c.toUInt8 = d.toUInt8 ↔ c = d := toUInt8_inj hc hd
  simp only [chunk?, hsame (show IsAscii '/' by decide), hsame (show IsAscii '#' by decide),
    hsame (show IsAscii '"' by decide), hsame (show IsAscii '\'' by decide),
    head?_utf8 (show IsAscii '*' by decide), head?_utf8 (show IsAscii '/' by decide),
    ofUInt8_toUInt8 hc, hfresh, Option.bind_eq_bind, Option.bind_some]
  by_cases hblock : c = '/' ∧ rest.head? = some '*'
  · rw [if_pos hblock]
    obtain ⟨rfl, hstar⟩ := hblock
    obtain ⟨rest, rfl⟩ := List.head?_eq_some_iff.mp hstar
    exact blockComment?_eq front rest
  by_cases hline : c = '/' ∧ rest.head? = some '/'
  · rw [if_neg hblock, if_pos hline]
    obtain ⟨rfl, hslash⟩ := hline
    obtain ⟨rest, rfl⟩ := List.head?_eq_some_iff.mp hslash
    exact lineComment?_eq front ('/' :: '/' :: rest)
  rw [if_neg hblock, if_neg hline, chunk_other _ hblock hline]
  by_cases hhash : (c = '#' && freshAfter true front) = true
  · rw [if_pos hhash, if_pos hhash]
    obtain rfl : c = '#' := by
      simp at hhash
      exact hhash.1
    rw [directive?_eq hsteps (by simp)]
    rfl
  rw [if_neg hhash, if_neg hhash]
  by_cases hquote : c = '"' ∨ c = '\''
  · have hquote' : (c = '"' || c = '\'') = true := by simpa using hquote
    rw [if_pos hquote, if_pos hquote', literal?_eq hc]
    rfl
  have hquote' : ¬ (c = '"' || c = '\'') = true := by simpa using hquote
  rw [if_neg hquote, if_neg hquote']
  by_cases hword : isWordStart c = true
  · rw [if_pos hword, if_pos hword]
    exact word?_eq front (c :: rest) hsteps
  · rw [if_neg hword, if_neg hword, Chunk.cut, List.take_succ_cons, List.take_zero, byteLength_cons,
      utf8Size_ascii hc]
    rfl

end NodeAtlas.Definition
