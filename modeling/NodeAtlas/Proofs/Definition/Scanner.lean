import Mathlib.Data.Nat.PSub
import NodeAtlas.Proofs.Definition.Quoted

/-!
The lexer, byte by byte. A text is read once more by offsets into its bytes, with all that could go
wrong: an offset may be beyond the end, what is cut out may begin or end inside a character, a count may
fall below zero, and a loop may need more steps than there are. Each part of this reader ends its chunk
where the lexer ends it, and gives the same token.

Marks are compared byte by byte, which may begin inside a character. All that is cut out of the text, or
compared with a word, is between two characters.
-/

namespace NodeAtlas.Definition

open Text

/-! ## Reading by offsets -/

/-- A chunk, by the offset behind it. -/
structure Cut where
  token : Option Token
  stop : Nat
  deriving DecidableEq, Repr

/-- The mark of a doc comment. -/
def docMark : List Char := ['/', '*', '*']

/-- What begins like a doc comment, but is an empty comment. -/
def emptyMark : List Char := ['/', '*', '*', '/']

/-- The mark of a doc line. -/
def lineMark : List Char := ['/', '/', '/']

/-- The number of bytes up to the first one that fails a test. -/
def passed (p : Char → Bool) (bs : List UInt8) : Nat :=
  (bs.takeWhile fun b => p (.ofUInt8 b)).length

def inLine (c : Char) : Bool := c ≠ '\n'

/-- The bytes of the body of a block comment, and those up to the end of its closing mark. -/
def blockBytes : List UInt8 → Nat × Nat
  | [] => (0, 0)
  | b :: rest =>
    if b = '*'.toUInt8 ∧ rest.head? = some '/'.toUInt8 then (0, 2)
    else let (body, n) := blockBytes rest; (body + 1, n + 1)

section Reading

variable (s : List Char)

/-- The bytes from an offset on, which must not be beyond the end. -/
def bytesFrom? (o : Nat) : Option (List UInt8) :=
  if o ≤ (utf8 s).length then some ((utf8 s).drop o) else none

def pass? (p : Char → Bool) (o : Nat) : Option Nat := (bytesFrom? s o).map (o + passed p ·)

def blockComment? (o : Nat) : Option Cut := do
  let bs ← bytesFrom? s o
  let doc := utf8 docMark <+: bs ∧ ¬ utf8 emptyMark <+: bs
  let inside ← bytesFrom? s (o + 2)
  let start := if doc then o + 3 else o + 2
  let (body, n) := blockBytes inside
  let stop := o + 2 + body
  if doc then do
    let text ← slice? s (min start stop) stop
    return ⟨some (.docBlock (Comment.plainText text)), o + 2 + n⟩
  else return ⟨none, o + 2 + n⟩

def lineComment? (o : Nat) : Option Cut := do
  let bs ← bytesFrom? s o
  let stop ← pass? s inLine o
  if utf8 lineMark <+: bs ∧ bs[3]? ≠ some '/'.toUInt8 then do
    let text ← slice? s (o + 3) stop
    return ⟨some (.docLine (trim text)), stop⟩
  else return ⟨none, stop⟩

/-- The byte in front of an offset, if there is one. -/
def byteBefore? : Nat → Option (Option UInt8)
  | 0 => some none
  | o + 1 => (utf8 s)[o]?.map some

/-- The end of a directive. A line that ends with a backslash continues it, unless it is the last. -/
def directive? : Nat → Nat → Option Nat
  | 0, _ => none
  | steps + 1, o => do
    let stop ← pass? s inLine o
    if (← byteBefore? s stop) = some '\\'.toUInt8 ∧ stop < (utf8 s).length then
      directive? steps (stop + 1)
    else return stop

/-- The end of a literal, or of the line it is broken off in, and whether it is closed. -/
def literal? (o : Nat) : Option (Nat × Bool) := do
  let (n, closed) := literalBytes (← bytesFrom? s o)
  if closed then return (o + n, true)
  else return (← pass? s inLine (o + n), false)

/-- Reads on in the arguments of a row whose name ends at an offset: those before, where the current one
starts, and the parentheses that are open inside it. -/
def arguments? (name : Nat) : Nat → List (List Char) → Nat → Nat → Nat → Option Cut
  | 0, _, _, _, _ => none
  | steps + 1, args, start, depth, o => do
    match ← bytesFrom? s o with
    | [] => return ⟨some (.malformed (← slice? s name o)), o⟩
    | b :: _ =>
      if b = '"'.toUInt8 ∨ b = '\''.toUInt8 then do
        let (stop, closed) ← literal? s o
        if closed then arguments? name steps args start depth stop
        else return ⟨some (.malformed (← slice? s name stop)), stop⟩
      else if b = '('.toUInt8 then arguments? name steps args start (depth + 1) (o + 1)
      else if b = ')'.toUInt8 ∧ depth = 0 then
        return ⟨some (.row (args ++ [trim (← slice? s start o)])), o + 1⟩
      else if b = ')'.toUInt8 then do
        arguments? name steps args start (← depth.ppred) (o + 1)
      else if b = ','.toUInt8 ∧ depth = 0 then do
        arguments? name steps (args ++ [trim (← slice? s start o)]) (o + 1) depth (o + 1)
      else arguments? name steps args start depth (o + 1)

/-- What follows the name of a row. A mere mention ends with the name. -/
def invocation? (steps name : Nat) : Option Cut := do
  let o ← pass? s isGap name
  let bs ← bytesFrom? s o
  if bs.head? = some '('.toUInt8 then arguments? s name steps [] (o + 1) 0 (o + 1)
  else return ⟨none, name⟩

def word? (steps o : Nat) : Option Cut := do
  let stop ← pass? s isWordPart o
  if (← slice? s o stop) = rowName then invocation? s steps stop
  else return ⟨none, stop⟩

/-- Whether only gaps stand before an offset on its line. -/
def atLineStart? (o : Nat) : Option Bool :=
  (slice? s 0 o).map fun front =>
    ((utf8 front).reverse.takeWhile fun b => inLine (.ofUInt8 b)).all fun b => isGap (.ofUInt8 b)

/-- Reads the chunk that a byte begins. -/
def chunk? (steps o : Nat) (b : UInt8) (next : Option UInt8) : Option Cut := do
  if b = '/'.toUInt8 ∧ next = some '*'.toUInt8 then blockComment? s o
  else if b = '/'.toUInt8 ∧ next = some '/'.toUInt8 then lineComment? s o
  else if ← (if b = '#'.toUInt8 then atLineStart? s o else some false) then
    return ⟨none, ← directive? s steps o⟩
  else if b = '"'.toUInt8 ∨ b = '\''.toUInt8 then
    return ⟨none, (← literal? s o).1⟩
  else if isWordStart (.ofUInt8 b) then word? s steps o
  else return ⟨none, o + 1⟩

/-- The position of an offset, by the bytes between the start of its line and the offset. -/
def position? (o : Nat) : Option Position := do
  let starts := lineStarts (utf8 s)
  let stop := min o (utf8 s).length
  let line := lineIndex starts stop
  let front ← slice? s (← starts[line]?) stop
  return ⟨line + 1, (utf8 front).countP fun b => !isContinuation b⟩

/-- Reads tokens from an offset on, in at most so many steps. -/
def scan? : Nat → Nat → Option (List Located)
  | 0, _ => none
  | steps + 1, o => do
    let o ← pass? s isGap o
    match ← bytesFrom? s o with
    | [] => return []
    | b :: rest => do
      let k ← chunk? s (steps + 1) o b rest.head?
      let located ← k.token.mapM fun token => return ⟨← position? s o, token⟩
      return located.toList ++ (← scan? steps k.stop)

end Reading

/-! ## Places in a text -/

/-- A chunk of what follows in a text, by offsets. -/
def Chunk.cut (front rest : List Char) (k : Chunk) : Cut :=
  ⟨k.token, byteLength front + byteLength (rest.take k.length)⟩

theorem Chunk.cut_append (front w rest : List Char) (token : Option Token) (n : Nat) :
    (⟨token, n + w.length⟩ : Chunk).cut front (w ++ rest) =
      ⟨token, byteLength front + byteLength w + byteLength (rest.take n)⟩ := by
  rw [Chunk.cut, Nat.add_comm n, List.take_length_add_append, byteLength_append, Nat.add_assoc]

theorem bytesFrom?_append (front rest : List Char) :
    bytesFrom? (front ++ rest) (byteLength front) = some (utf8 rest) := by
  have hle : byteLength front ≤ (utf8 (front ++ rest)).length := by
    rw [length_utf8, byteLength_append]
    exact Nat.le_add_right _ _
  rw [bytesFrom?, if_pos hle, utf8_append, ← length_utf8, List.drop_left]

theorem bytesFrom?_behind (front w rest : List Char) :
    bytesFrom? (front ++ (w ++ rest)) (byteLength front + byteLength w) = some (utf8 rest) := by
  rw [← List.append_assoc, ← byteLength_append]
  exact bytesFrom?_append (front ++ w) rest

theorem bytesFrom?_succ {s : List Char} {o : Nat} {b : UInt8} {bs : List UInt8}
    (h : bytesFrom? s o = some (b :: bs)) : bytesFrom? s (o + 1) = some bs := by
  unfold bytesFrom? at h ⊢
  split at h
  · have hdrop : (utf8 s).drop o = b :: bs := Option.some.inj h
    have hlength := congrArg List.length hdrop
    rw [List.length_drop, List.length_cons] at hlength
    rw [if_pos (by omega), ← List.drop_drop, hdrop, List.drop_one, List.tail_cons]
  · cases h

theorem isAscii_of_isGap {c : Char} (h : isGap c = true) : IsAscii c := by
  rcases isGap_iff.mp h with rfl | rfl | rfl | rfl | rfl <;> decide

theorem agrees_isGap : Agrees (fun b => isGap (.ofUInt8 b)) isGap :=
  agrees_of_ascii fun _ => isAscii_of_isGap

theorem agrees_inLine : Agrees (fun b => inLine (.ofUInt8 b)) inLine := by
  have hfeed : Agrees (fun b => decide (Char.ofUInt8 b = '\n')) (fun c => decide (c = '\n')) :=
    agrees_of_ascii fun c hc => by
      obtain rfl : c = '\n' := of_decide_eq_true hc
      decide
  have hline : inLine = fun c => !decide (c = '\n') := by
    funext c
    simp [inLine]
  rw [hline]
  exact hfeed.not

theorem isAscii_of_isWordPart {c : Char} (h : isWordPart c = true) : IsAscii c := by
  have hle {a b : Char} (hb : IsAscii b) (h : a ≤ c ∧ c ≤ b) : IsAscii c :=
    Nat.lt_of_le_of_lt h.2 hb
  simp only [isWordPart, isWordStart, Bool.or_eq_true, Bool.and_eq_true, decide_eq_true_eq] at h
  rcases h with ((h | h) | rfl) | h
  · exact hle (by decide) h
  · exact hle (by decide) h
  · decide
  · exact hle (by decide) h

theorem isAscii_of_isWordStart {c : Char} (h : isWordStart c = true) : IsAscii c :=
  isAscii_of_isWordPart (by rw [isWordPart, h, Bool.true_or])

theorem agrees_isWordPart : Agrees (fun b => isWordPart (.ofUInt8 b)) isWordPart :=
  agrees_of_ascii fun _ => isAscii_of_isWordPart

theorem pass?_eq {p : Char → Bool} (h : Agrees (fun b => p (.ofUInt8 b)) p)
    (front rest : List Char) : pass? (front ++ rest) p (byteLength front) =
      some (byteLength front + byteLength (rest.takeWhile p)) := by
  rw [pass?, bytesFrom?_append, Option.map_some, passed, h.takeWhile_length]

theorem takeWhile_inLine (s : List Char) : s.takeWhile inLine = restOfLine s := rfl

theorem take_length_takeWhile (p : Char → Bool) (s : List Char) :
    s.take (s.takeWhile p).length = s.takeWhile p :=
  (List.prefix_iff_eq_take.mp (List.takeWhile_prefix p)).symm

/-! ## Comments -/

theorem blockBody_closed (rest : List Char) : blockBody ('*' :: '/' :: rest) = ([], 2) := by
  rw [blockBody, show '*' :: '/' :: rest = ['*', '/'] ++ rest from rfl, cut?_stem (by decide)]
  rfl

theorem blockBody_cons {c : Char} {rest : List Char} (h : ¬ (c = '*' ∧ rest.head? = some '/')) :
    blockBody (c :: rest) = (c :: (blockBody rest).1, (blockBody rest).2 + 1) := by
  have hstem : dropStem? ['*', '/'] (c :: rest) = none := by
    rw [dropStem?_eq_none_iff]
    rintro ⟨more, hmore⟩
    obtain ⟨rfl, rfl⟩ := List.cons.inj hmore
    exact h ⟨rfl, rfl⟩
  rw [blockBody, cut?, hstem, blockBody]
  cases cut? ['*', '/'] rest with
  | none => rfl
  | some p =>
    show (c :: p.1, p.1.length + 1 + 2) = (c :: p.1, p.1.length + 2 + 1)
    rw [Nat.add_right_comm]

theorem prefix_blockBody (s : List Char) : (blockBody s).1 <+: s := by
  unfold blockBody
  split
  · next hcut => exact ⟨_, (eq_append_of_cut? hcut).symm⟩
  · exact List.prefix_refl s

theorem blockBytes_plain {w : List UInt8} (hw : ∀ b ∈ w, b ≠ '*'.toUInt8) (bs : List UInt8) :
    blockBytes (w ++ bs) = (w.length + (blockBytes bs).1, w.length + (blockBytes bs).2) := by
  induction w with
  | nil => simp
  | cons b w ih =>
    obtain ⟨hb, hw⟩ := List.forall_mem_cons.mp hw
    rw [List.cons_append, blockBytes, if_neg (fun h => hb h.1), ih hw, List.length_cons]
    simp only [Prod.mk.injEq]
    omega

/-- A block comment takes the bytes of the characters that it takes. -/
theorem blockBytes_utf8 (s : List Char) : blockBytes (utf8 s) =
    (byteLength (blockBody s).1, byteLength (s.take (blockBody s).2)) := by
  induction s with
  | nil => rfl
  | cons c s ih =>
    by_cases hclosed : c = '*' ∧ s.head? = some '/'
    · obtain ⟨rfl, hs⟩ := hclosed
      obtain ⟨s, rfl⟩ := List.head?_eq_some_iff.mp hs
      rw [blockBody_closed]
      rfl
    rw [blockBody_cons hclosed, List.take_succ_cons, byteLength_cons, byteLength_cons]
    by_cases hc : c = '*'
    · subst hc
      have hnot : ¬ ('*'.toUInt8 = '*'.toUInt8 ∧ (utf8 s).head? = some '/'.toUInt8) := by
        rw [head?_utf8 (by decide)]
        exact fun h => hclosed ⟨rfl, h.2⟩
      rw [utf8_cons_ascii (by decide), blockBytes, if_neg hnot, ih]
      exact Prod.ext (Nat.add_comm _ 1) (Nat.add_comm _ 1)
    · rw [utf8_cons, blockBytes_plain fun b hb => ne_toUInt8_of_mem (by decide) hc hb, ih,
        String.length_utf8EncodeChar]

/-- The mark of a doc comment goes on with a second star and does not close at once. -/
theorem blockComment_doc {rest : List Char} (h : ¬ ['*', '/'] <+: '*' :: rest) :
    blockComment ('/' :: '*' :: '*' :: rest) =
      ⟨some (.docBlock (Comment.plainText (blockBody rest).1)), (blockBody rest).2 + 3⟩ := by
  rw [blockComment.eq_2]
  rintro more rfl
  exact h ⟨more, rfl⟩

theorem blockComment_plain {rest : List Char} (h : ¬ (['*'] <+: rest ∧ ¬ ['*', '/'] <+: rest)) :
    blockComment ('/' :: '*' :: rest) = ⟨none, (blockBody rest).2 + 2⟩ := by
  by_cases hclosed : ['*', '/'] <+: rest
  · obtain ⟨more, rfl⟩ := hclosed
    show (⟨none, 4⟩ : Chunk) = ⟨none, (blockBody ('*' :: '/' :: more)).2 + 2⟩
    rw [blockBody_closed]
  · have hstar : ∀ more, rest ≠ '*' :: more := by
      rintro more rfl
      exact h ⟨⟨more, rfl⟩, hclosed⟩
    rw [blockComment.eq_3]
    · simp [hstar]
    · simp [hstar]

theorem blockComment?_eq (front rest : List Char) :
    blockComment? (front ++ '/' :: '*' :: rest) (byteLength front) =
      some ((blockComment ('/' :: '*' :: rest)).cut front ('/' :: '*' :: rest)) := by
  have hbs := bytesFrom?_append front ('/' :: '*' :: rest)
  have hinside : bytesFrom? (front ++ '/' :: '*' :: rest) (byteLength front + 2) =
    some (utf8 rest) := bytesFrom?_behind front ['/', '*'] rest
  have hdoc : (utf8 docMark <+: utf8 ('/' :: '*' :: rest) ∧
      ¬ utf8 emptyMark <+: utf8 ('/' :: '*' :: rest)) ↔
      ['*'] <+: rest ∧ ¬ ['*', '/'] <+: rest := by
    rw [prefix_utf8_iff (forall_isAscii rfl), prefix_utf8_iff (forall_isAscii rfl)]
    exact and_congr (by simp [docMark]) (by simp [emptyMark])
  simp only [blockComment?, hbs, hinside, Option.bind_eq_bind, Option.bind_some, hdoc,
    blockBytes_utf8]
  by_cases hd : ['*'] <+: rest ∧ ¬ ['*', '/'] <+: rest
  · rw [if_pos hd, if_pos hd]
    obtain ⟨⟨body, hbody⟩, hclosed⟩ := hd
    obtain rfl : rest = '*' :: body := hbody.symm
    have hcons : blockBody ('*' :: body) = ('*' :: (blockBody body).1, (blockBody body).2 + 1) := by
      refine blockBody_cons fun h => hclosed ?_
      obtain ⟨more, rfl⟩ := List.head?_eq_some_iff.mp h.2
      exact ⟨more, rfl⟩
    rw [hcons, blockComment_doc hclosed]
    obtain ⟨after, hafter⟩ := prefix_blockBody body
    generalize (blockBody body).1 = text at hafter
    have hstart : min (byteLength front + 3) (byteLength front + 2 + byteLength ('*' :: text)) =
        byteLength (front ++ docMark) := by
      rw [byteLength_append]
      show min (byteLength front + 3) (byteLength front + 2 + (1 + byteLength text)) =
        byteLength front + 3
      omega
    have hstop : byteLength front + 2 + byteLength ('*' :: text) =
        byteLength (front ++ docMark) + byteLength text := by
      rw [byteLength_append]
      show byteLength front + 2 + (1 + byteLength text) = byteLength front + 3 + byteLength text
      omega
    have hwhole : front ++ '/' :: '*' :: '*' :: body =
        (front ++ docMark) ++ (text ++ after) := by
      rw [hafter, List.append_assoc]
      rfl
    rw [hstart, hstop, hwhole, slice?_append]
    exact congrArg some (Chunk.cut_append front ['/', '*'] ('*' :: body) _ _).symm
  · rw [if_neg hd, blockComment_plain hd]
    exact congrArg some (Chunk.cut_append front ['/', '*'] rest none _).symm

theorem restOfLine_mark (text : List Char) :
    restOfLine (lineMark ++ text) = lineMark ++ restOfLine text := by
  simp [restOfLine, lineMark]

/-- A line comment is a doc comment when its mark is not followed by a fourth slash. -/
theorem lineComment_eq (s : List Char) : lineComment s =
    ⟨if lineMark <+: s ∧ s[3]? ≠ some '/' then
        some (.docLine (trim ((restOfLine s).drop 3))) else none, (restOfLine s).length⟩ := by
  unfold lineComment
  dsimp only
  by_cases hmark : lineMark <+: s
  · obtain ⟨text, rfl⟩ := hmark
    have hfourth : (lineMark ++ text)[3]? = text[0]? := rfl
    rw [restOfLine_mark, hfourth]
    split
    · next more heq =>
      have hmore : restOfLine text = '/' :: more := (List.append_cancel_left heq : _)
      obtain ⟨after, hafter⟩ : restOfLine text <+: text := List.takeWhile_prefix _
      rw [hmore] at hafter
      rw [if_neg]
      rintro ⟨-, hnot⟩
      exact hnot (by rw [← hafter]; rfl)
    · next more hnot heq =>
      obtain rfl : restOfLine text = more := List.append_cancel_left heq
      rw [if_pos]
      · rfl
      · refine ⟨List.prefix_append _ _, fun hslash => ?_⟩
        obtain ⟨after, rfl⟩ := List.head?_eq_some_iff.mp ((List.head?_eq_getElem? ..).trans hslash)
        exact hnot (restOfLine after) (by simp [restOfLine])
    · next hnot => exact absurd rfl (hnot (restOfLine text))
  · have hline : ∀ more, restOfLine s ≠ '/' :: '/' :: '/' :: more := by
      intro more heq
      have hfront : restOfLine s <+: s := List.takeWhile_prefix _
      exact hmark (.trans ⟨more, heq.symm⟩ hfront)
    rw [if_neg fun h => hmark h.1]
    split
    · next heq => exact absurd heq (hline _)
    · next heq => exact absurd heq (hline _)
    · rfl

theorem lineComment?_eq (front rest : List Char) :
    lineComment? (front ++ rest) (byteLength front) = some ((lineComment rest).cut front rest) := by
  have hbs := bytesFrom?_append front rest
  have hstop := pass?_eq agrees_inLine front rest
  have hdoc : utf8 lineMark <+: utf8 rest ∧ (utf8 rest)[3]? ≠ some '/'.toUInt8 ↔
      lineMark <+: rest ∧ rest[3]? ≠ some '/' := by
    rw [prefix_utf8_iff (forall_isAscii rfl)]
    refine and_congr_right ?_
    rintro ⟨text, rfl⟩
    have hhead := head?_utf8 (d := '/') (by decide) text
    rw [List.head?_eq_getElem?, List.head?_eq_getElem?] at hhead
    exact hhead.not
  rw [lineComment_eq]
  simp only [lineComment?, hbs, hstop, Option.bind_eq_bind, Option.bind_some, takeWhile_inLine, hdoc]
  have hline : rest.take (restOfLine rest).length = restOfLine rest := take_length_takeWhile _ rest
  by_cases hd : lineMark <+: rest ∧ rest[3]? ≠ some '/'
  · rw [if_pos hd, if_pos hd]
    rw [Chunk.cut, hline]
    obtain ⟨⟨text, rfl⟩, -⟩ := hd
    have hwhole : front ++ (lineMark ++ text) =
        (front ++ lineMark) ++ (restOfLine text ++ fromLineEnd text) := by
      rw [restOfLine_append_fromLineEnd, List.append_assoc]
    have hstart : byteLength front + 3 = byteLength (front ++ lineMark) :=
      (byteLength_append front lineMark).symm
    have hend : byteLength front + byteLength (lineMark ++ restOfLine text) =
        byteLength (front ++ lineMark) + byteLength (restOfLine text) := by
      rw [byteLength_append, byteLength_append front, Nat.add_assoc]
    rw [restOfLine_mark, hstart, hend, hwhole, slice?_append]
    rfl
  · rw [if_neg hd, if_neg hd, Chunk.cut, hline]
    rfl

/-! ## Directives -/

theorem byteBefore?_append (w t : List Char) :
    byteBefore? (w ++ t) (byteLength w) = some (utf8 w).getLast? := by
  cases hn : byteLength w with
  | zero =>
    obtain rfl : w = [] := by
      by_contra hne
      exact absurd hn (Nat.ne_of_gt (byteLength_pos hne))
    rfl
  | succ n =>
    have hlength : (utf8 w).length = n + 1 := (length_utf8 w).trans hn
    have hlt : n < (utf8 w).length := by omega
    rw [byteBefore?, utf8_append, List.getElem?_append_left hlt, List.getLast?_eq_getElem?, hlength,
      Nat.add_sub_cancel, List.getElem?_eq_getElem hlt]
    rfl

theorem directiveLength_lineEnd {t : List Char} (ht : ∀ c ∈ t.head?, c = '\n') :
    directiveLength t = 0 := by
  cases t with
  | nil => rfl
  | cons c t =>
    obtain rfl := ht c rfl
    simp [directiveLength]

/-- Every round ends at a line feed or at the end, and goes on behind a backslash. -/
theorem directive?_eq {front rest : List Char} {steps : Nat} (hsteps : byteLength rest < steps)
    (hfront : front.getLast? = some '\\' → rest.head? ≠ some '\n') :
    directive? (front ++ rest) steps (byteLength front) =
      some (byteLength front + byteLength (rest.take (directiveLength rest))) := by
  induction steps generalizing front rest with
  | zero => omega
  | succ steps ih =>
    have hstop := pass?_eq agrees_inLine front rest
    rw [takeWhile_inLine] at hstop
    have hfeed : '\n' ∉ restOfLine rest := List.count_eq_zero.mp (count_restOfLine rest)
    have htail := head?_fromLineEnd rest
    have hrest := restOfLine_append_fromLineEnd rest
    generalize restOfLine rest = line at hstop hfeed hrest
    generalize fromLineEnd rest = tail at htail hrest
    subst hrest
    have hbefore := byteBefore?_append (front ++ line) tail
    rw [List.append_assoc, byteLength_append] at hbefore
    have hend : byteLength front + byteLength line < (utf8 (front ++ (line ++ tail))).length ↔
        tail ≠ [] := by
      rw [length_utf8, byteLength_append, byteLength_append]
      refine ⟨?_, fun hne => ?_⟩
      · rintro hlt rfl
        simp at hlt
      · have hpos := byteLength_pos hne
        omega
    simp only [directive?, hstop, hbefore, hend, getLast?_utf8 (show IsAscii '\\' by decide),
      Option.bind_eq_bind, Option.bind_some]
    by_cases hc : (front ++ line).getLast? = some '\\' ∧ tail ≠ []
    · rw [if_pos hc]
      obtain ⟨hlast, hne⟩ := hc
      obtain ⟨c, more, rfl⟩ := List.exists_cons_of_ne_nil hne
      obtain rfl := htail c rfl
      obtain ⟨l, rfl⟩ : ∃ l, line = l ++ ['\\'] := by
        by_cases hline : line = []
        · subst hline
          rw [List.append_nil] at hlast
          exact absurd rfl (hfront hlast)
        · rw [List.getLast?_append_of_ne_nil _ hline] at hlast
          exact List.getLast?_eq_some_iff.mp hlast
      have hl : '\n' ∉ l := fun hmem => hfeed (List.mem_append_left _ hmem)
      have hwhole : l ++ ['\\'] ++ '\n' :: more = (l ++ ['\\', '\n']) ++ more := by simp
      have hround : directiveLength ((l ++ ['\\', '\n']) ++ more) =
          (l ++ ['\\', '\n']).length + directiveLength more := by
        rw [List.append_assoc, directiveLength_append hl (by simp), List.length_append, Nat.add_assoc,
          Nat.add_comm _ (directiveLength more)]
        rfl
      have hsize : byteLength (l ++ ['\\', '\n']) = byteLength (l ++ ['\\']) + 1 := by
        rw [byteLength_append, byteLength_append, Nat.add_assoc]
        rfl
      rw [hwhole, byteLength_append, hsize] at hsteps
      have hnext := @ih (front ++ (l ++ ['\\', '\n'])) more (by omega) (by simp)
      rw [byteLength_append, hsize, ← Nat.add_assoc] at hnext
      rw [hwhole, hround, List.take_length_add_append, byteLength_append (l ++ ['\\', '\n']), hsize,
        ← Nat.add_assoc, ← Nat.add_assoc, ← List.append_assoc front]
      exact hnext
    · rw [if_neg hc]
      have hline : line.getLast? = some '\\' → tail.head? ≠ some '\n' := by
        intro hlast hhead
        refine hc ⟨?_, ?_⟩
        · rw [List.getLast?_append, hlast]
          rfl
        · rintro rfl
          cases hhead
      rw [directiveLength_append hfeed hline, directiveLength_lineEnd htail, Nat.add_zero,
        List.take_left]
      rfl

/-! ## Literals -/

theorem literal?_eq {quote : Char} (hquote : IsAscii quote) (front rest : List Char) :
    literal? (front ++ quote :: rest) (byteLength front) =
      some (byteLength front +
          byteLength ((quote :: rest).take (literalLength (quote :: rest)).1),
        (literalLength (quote :: rest)).2) := by
  have hbs := bytesFrom?_append front (quote :: rest)
  obtain ⟨after, hafter⟩ := Literal.prefix_body quote rest
  rw [literalLength]
  simp only [literal?, hbs, Option.bind_eq_bind, Option.bind_some, literalBytes_utf8 hquote]
  generalize Literal.body quote rest = read at hafter
  obtain ⟨body, closed⟩ := read
  obtain rfl : body ++ after = rest := hafter
  cases closed with
  | true => simp
  | false =>
    have hwhole : front ++ quote :: (body ++ after) = (front ++ quote :: body) ++ after := by simp
    have hstop := pass?_eq agrees_inLine (front ++ quote :: body) after
    rw [byteLength_append, ← hwhole] at hstop
    have htake : (quote :: (body ++ after)).take (body.length + 1 + (restOfLine after).length) =
        quote :: body ++ restOfLine after := by
      rw [← List.cons_append, ← List.length_cons (a := quote), List.take_length_add_append,
        restOfLine, take_length_takeWhile]
    simp only [Bool.false_eq_true, if_false, hstop, List.drop_left, htake, takeWhile_inLine,
      Option.bind_some]
    rw [byteLength_append, ← Nat.add_assoc]
    rfl

end NodeAtlas.Definition
