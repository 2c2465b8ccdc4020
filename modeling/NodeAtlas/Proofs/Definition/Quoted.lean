import NodeAtlas.Proofs.Definition.Excerpts
import NodeAtlas.Proofs.Definition.Skipped
import NodeAtlas.Proofs.Text.Encoding
import NodeAtlas.Proofs.Text.Slices

/-!
Literals, byte by byte. Scanning for the end of a literal looks at bytes and decoding it at characters,
and on one line both take the same texts for literals.
-/

namespace NodeAtlas.Definition

open Text

/-! ## Scanning bytes -/

/-- How many bytes a literal takes behind its opening quote, and whether a quote closes it. A backslash
takes the next byte with it. -/
def quotedBytes (quote : UInt8) : List UInt8 → Nat × Bool
  | [] => (0, false)
  | b :: rest =>
    if b = '\\'.toUInt8 then
      match rest with
      | [] => (1, false)
      | _ :: rest => let (n, closed) := quotedBytes quote rest; (n + 2, closed)
    else if b = '\n'.toUInt8 then (1, false)
    else if b = quote then (1, true)
    else let (n, closed) := quotedBytes quote rest; (n + 1, closed)

/-- How many bytes a literal takes, whose first byte is its quote. -/
def literalBytes : List UInt8 → Nat × Bool
  | [] => (0, false)
  | quote :: rest => let (n, closed) := quotedBytes quote rest; (n + 1, closed)

section Bytes

variable {quote : Char} (hquote : IsAscii quote)

/-- Bytes that mean nothing in a literal are passed over. -/
theorem quotedBytes_plain {q : UInt8} {w : List UInt8}
    (hw : ∀ b ∈ w, b ≠ '\\'.toUInt8 ∧ b ≠ '\n'.toUInt8 ∧ b ≠ q) (bs : List UInt8) :
    quotedBytes q (w ++ bs) = (w.length + (quotedBytes q bs).1, (quotedBytes q bs).2) := by
  induction w with
  | nil => simp
  | cons b w ih =>
    obtain ⟨⟨hslash, hfeed, hclose⟩, hw⟩ := List.forall_mem_cons.mp hw
    rw [List.cons_append, quotedBytes.eq_def]
    simp only [hslash, hfeed, hclose, if_false, ih hw, List.length_cons]
    congr 1
    omega

theorem quotedBytes_escaped (q b : UInt8) (bs : List UInt8) :
    quotedBytes q ('\\'.toUInt8 :: b :: bs) = ((quotedBytes q bs).1 + 2, (quotedBytes q bs).2) := by
  rw [quotedBytes.eq_def]
  rfl

include hquote

/-- Of a character behind a backslash only the first byte is taken, and the others mean nothing. -/
theorem quotedBytes_escapedChar (c : Char) (bs : List UInt8) :
    quotedBytes quote.toUInt8 ('\\'.toUInt8 :: (String.utf8EncodeChar c ++ bs)) =
      (1 + c.utf8Size + (quotedBytes quote.toUInt8 bs).1, (quotedBytes quote.toUInt8 bs).2) := by
  obtain ⟨b, more, hbytes, -, -, hmore⟩ := utf8EncodeChar_eq_cons c
  have hlength := String.length_utf8EncodeChar c
  rw [hbytes, List.length_cons] at hlength
  have hwide (b : UInt8) (hb : b ∈ more) := le_toNat_of_isContinuation (hmore b hb)
  rw [hbytes, List.cons_append, quotedBytes_escaped, quotedBytes_plain fun b hb =>
    ⟨ne_toUInt8 (hwide b hb) (by decide), ne_toUInt8 (hwide b hb) (by decide),
      ne_toUInt8 (hwide b hb) hquote⟩]
  simp only [Prod.mk.injEq, and_true]
  omega

theorem quotedBytes_plainChar {c : Char} (hslash : c ≠ '\\') (hfeed : c ≠ '\n') (hclose : c ≠ quote)
    (bs : List UInt8) : quotedBytes quote.toUInt8 (String.utf8EncodeChar c ++ bs) =
      (c.utf8Size + (quotedBytes quote.toUInt8 bs).1, (quotedBytes quote.toUInt8 bs).2) := by
  rw [quotedBytes_plain fun b hb => ⟨ne_toUInt8_of_mem (by decide) hslash hb,
    ne_toUInt8_of_mem (by decide) hfeed hb, ne_toUInt8_of_mem hquote hclose hb⟩,
    String.length_utf8EncodeChar]

omit hquote in
/-- A character is no backslash when it begins neither of the texts that a backslash begins. -/
theorem ne_backslash {c : Char} {rest : List Char} (hlast : c = '\\' → rest = [] → False)
    (hmore : ∀ d more, c = '\\' → rest = d :: more → False) : c ≠ '\\' := by
  intro hc
  cases rest with
  | nil => exact hlast hc rfl
  | cons d more => exact hmore d more hc rfl

/-- A literal takes the bytes of the characters that it takes. -/
theorem quotedBytes_utf8 (s : List Char) : quotedBytes quote.toUInt8 (utf8 s) =
    (byteLength (Literal.body quote s).1, (Literal.body quote s).2) := by
  fun_induction Literal.body quote s with
  | case1 => rfl
  | case2 => rfl
  | case3 c rest b closed heq ih =>
    rw [heq] at ih
    rw [utf8_cons_ascii (by decide), utf8_cons, quotedBytes_escapedChar hquote, ih]
    simp only [byteLength_cons, Prod.mk.injEq, and_true]
    show 1 + c.utf8Size + byteLength b = 1 + (c.utf8Size + byteLength b)
    omega
  | case4 rest =>
    rw [utf8_cons_ascii (by decide), quotedBytes.eq_def]
    rfl
  | case5 rest hlast hmore hfeed =>
    have hslash := (toUInt8_inj hquote (by decide)).not.mpr (ne_backslash hlast hmore)
    have hfeed := (toUInt8_inj hquote (by decide)).not.mpr hfeed
    rw [utf8_cons_ascii hquote, quotedBytes.eq_def]
    simp only [hslash, hfeed, if_false, if_true, byteLength_cons, byteLength_nil,
      utf8Size_ascii hquote]
  | case6 c rest hlast hmore hfeed hclose b closed heq ih =>
    rw [heq] at ih
    rw [utf8_cons, quotedBytes_plainChar hquote (ne_backslash hlast hmore) hfeed hclose, ih]
    rfl

theorem literalBytes_utf8 (rest : List Char) : literalBytes (utf8 (quote :: rest)) =
    (byteLength (quote :: (Literal.body quote rest).1), (Literal.body quote rest).2) := by
  rw [utf8_cons_ascii hquote, literalBytes, quotedBytes_utf8 hquote, byteLength_cons,
    utf8Size_ascii hquote, Nat.add_comm]

end Bytes

/-! ## Literals -/

/-- The texts from one double quote to the next that is not escaped. -/
def IsLiteral (w : List Char) : Prop := ∃ s, w = '"' :: (s ++ ['"']) ∧ IsLiteralBody '"' s

theorem isLiteralBody_of_body {quote : Char} {s b : List Char}
    (h : Literal.body quote s = (b, true)) : ∃ u, b = u ++ [quote] ∧ IsLiteralBody quote u := by
  fun_induction Literal.body quote s generalizing b with
  | case1 => cases h
  | case2 => cases h
  | case3 c rest b' closed heq ih =>
    cases h
    obtain ⟨u, rfl, hu⟩ := ih heq
    exact ⟨'\\' :: c :: u, rfl, .escaped c hu⟩
  | case4 => cases h
  | case5 =>
    cases h
    exact ⟨[], rfl, .nil⟩
  | case6 c rest hlast hmore hfeed hclose b' closed heq ih =>
    cases h
    obtain ⟨u, rfl, hu⟩ := ih heq
    exact ⟨c :: u, rfl, .plain hclose (ne_backslash hlast hmore) hfeed hu⟩

/-- A literal is what scanning takes up to a closing quote. -/
theorem isLiteral_iff {v : List Char} (rest : List Char) :
    IsLiteral ('"' :: v) ↔ Literal.body '"' (v ++ rest) = (v, true) := by
  constructor
  · rintro ⟨s, heq, hs⟩
    cases heq
    rw [List.append_assoc]
    exact hs.body_eq (.inl rfl) rest
  · intro h
    obtain ⟨s, rfl, hs⟩ := isLiteralBody_of_body h
    exact ⟨s, rfl, hs⟩

/-- Without line feeds, bodies of literals are what can be decoded. -/
theorem isLiteralBody_iff {s : List Char} (hfeed : '\n' ∉ s) :
    IsLiteralBody '"' s ↔ (Literal.decodeBody? s).isSome = true := by
  constructor
  · intro h
    clear hfeed
    induction h with
    | nil => rfl
    | @plain c s hquote hslash _ _ ih =>
      rw [Literal.decodeBody?.eq_4 _ _ (by simp [hslash]) (by simp [hslash])]
      simpa [hquote] using ih
    | escaped c _ ih => simpa [Literal.decodeBody?] using ih
  · intro h
    fun_induction Literal.decodeBody? s with
    | case1 => exact .nil
    | case2 => cases h
    | case3 c rest ih =>
      exact .escaped c (ih (fun hmem => hfeed (by simp [hmem])) (by simpa using h))
    | case4 => cases h
    | case5 c rest hlast hmore hquote ih =>
      rw [List.mem_cons, not_or] at hfeed
      exact .plain hquote (ne_backslash hlast hmore) (Ne.symm hfeed.1) (ih hfeed.2 (by simpa using h))

theorem isSome_decode?_iff {w : List Char} : (Literal.decode? w).isSome = true ↔
    ∃ s, w = '"' :: (s ++ ['"']) ∧ (Literal.decodeBody? s).isSome = true := by
  constructor
  · intro h
    unfold Literal.decode? at h
    split at h
    · next rest =>
      split at h
      · next front hrest =>
        refine ⟨front.reverse, ?_, h⟩
        rw [← List.reverse_reverse rest, hrest, List.reverse_cons]
      · cases h
    · cases h
  · rintro ⟨s, rfl, hs⟩
    have hrev : (s ++ ['"']).reverse = '"' :: s.reverse := by simp
    simpa only [Literal.decode?, hrev, List.reverse_reverse] using hs

section Scanned

variable {v rest : List Char}

theorem literalLength_eq_iff : literalLength ('"' :: (v ++ rest)) = (v.length + 1, true) ↔
    Literal.body '"' (v ++ rest) = (v, true) := by
  have hprefix := Literal.prefix_body '"' (v ++ rest)
  rcases hbody : Literal.body '"' (v ++ rest) with ⟨b, closed⟩
  rw [hbody] at hprefix
  have hsame : b.length = v.length ↔ b = v := by
    refine ⟨fun hlength => ?_, congrArg List.length⟩
    have hle := List.prefix_of_prefix_length_le hprefix (List.prefix_append v rest)
      (Nat.le_of_eq hlength)
    exact hle.eq_of_length hlength
  rw [literalLength]
  cases closed <;> simp [hbody, hsame]

theorem literalBytes_eq_iff :
    literalBytes (utf8 ('"' :: (v ++ rest))) = (byteLength ('"' :: v), true) ↔
      Literal.body '"' (v ++ rest) = (v, true) := by
  have hprefix := Literal.prefix_body '"' (v ++ rest)
  rw [literalBytes_utf8 (by decide)]
  generalize Literal.body '"' (v ++ rest) = r at hprefix
  obtain ⟨b, closed⟩ := r
  have hsame : byteLength b = byteLength v ↔ b = v := by
    refine ⟨fun hlength => ?_, congrArg byteLength⟩
    have hv := List.prefix_append v rest
    have hle := prefix_of_byteLength_le hprefix hv (Nat.le_of_eq hlength)
    have hge := prefix_of_byteLength_le hv hprefix (Nat.le_of_eq hlength.symm)
    exact hle.eq_of_length_le hge.length_le
  simp only [byteLength_cons, Prod.mk.injEq, Nat.add_left_cancel_iff, hsame]

end Scanned

/-- On one line, a text has a value exactly if scanning from its double quote ends behind it, by
characters and by bytes; and what is escaped between quotes has its text as value. -/
theorem isSome_decode?_iff_scanned {w : List Char} (hfeed : '\n' ∉ w) (rest : List Char) :
    ((Literal.decode? w).isSome = true ↔
      w.head? = some '"' ∧ literalLength (w ++ rest) = (w.length, true)) ∧
    ((Literal.decode? w).isSome = true ↔
      w.head? = some '"' ∧ literalBytes (utf8 (w ++ rest)) = (byteLength w, true)) ∧
    ∀ s, Literal.decode? (Literal.encode s) = some s := by
  have hliteral : (Literal.decode? w).isSome = true ↔ IsLiteral w := by
    rw [isSome_decode?_iff]
    refine exists_congr fun s => and_congr_right fun hw => (isLiteralBody_iff ?_).symm
    intro hmem
    exact hfeed (by simp [hw, hmem])
  cases w with
  | nil =>
    have hnot : ¬ IsLiteral [] := by
      rintro ⟨s, heq, -⟩
      cases heq
    simp [hliteral, hnot, Literal.decode?_encode]
  | cons c v =>
    rw [hliteral, List.head?_cons, Option.some.injEq]
    by_cases hc : c = '"'
    · subst hc
      rw [List.cons_append, List.length_cons, literalLength_eq_iff, literalBytes_eq_iff,
        ← isLiteral_iff]
      simp [Literal.decode?_encode]
    · have hnot : ¬ IsLiteral (c :: v) := by
        rintro ⟨s, heq, -⟩
        cases heq
        exact hc rfl
      simp [hc, hnot, Literal.decode?_encode]

/-- A literal with wide characters, one of them escaped, that ends behind an escaped backslash. -/
def escapedLiteral : List Char := ['"', 'ä', '\\', 'é', '\\', '\\', '"']

theorem isSome_decode?_iff_scanned_escapedLiteral :
    '\n' ∉ escapedLiteral ∧ Literal.decode? escapedLiteral = some ['ä', 'é', '\\'] ∧
      literalBytes (utf8 (escapedLiteral ++ ['"'])) = (9, true) ∧
      '\n' ∉ ['"', '\\', '"'] ∧ Literal.decode? ['"', '\\', '"'] = none ∧
      literalBytes (utf8 (['"', '\\', '"'] ++ ['"'])) ≠ (3, true) := by
  have hfeed : '\n' ∉ escapedLiteral := by decide
  have hfeed' : '\n' ∉ ['"', '\\', '"'] := by decide
  have hvalue : Literal.decode? escapedLiteral = some ['ä', 'é', '\\'] := by decide
  have hnone : Literal.decode? ['"', '\\', '"'] = none := by decide
  obtain ⟨-, hbytes, -⟩ := isSome_decode?_iff_scanned hfeed ['"']
  obtain ⟨-, hbytes', -⟩ := isSome_decode?_iff_scanned hfeed' ['"']
  refine ⟨hfeed, hvalue, (hbytes.mp (by rw [hvalue]; rfl)).2, hfeed', hnone, fun hclosed => ?_⟩
  have hsome := hbytes'.mpr ⟨rfl, hclosed⟩
  rw [hnone] at hsome
  cases hsome

end NodeAtlas.Definition
