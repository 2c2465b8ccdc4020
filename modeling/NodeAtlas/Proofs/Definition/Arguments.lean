import NodeAtlas.Definition.Lexer
import NodeAtlas.Proofs.Text.Trim

/-!
Rows are read as they are written: literals by their value, and expressions as they stand when their
parentheses are balanced.
-/

namespace NodeAtlas.Definition

open Text

/-! ## Literals -/

namespace Literal

theorem decodeBody?_escape (s : List Char) : decodeBody? (escape s) = some s := by
  induction s with
  | nil => rfl
  | cons c s ih =>
    by_cases hslash : c = '\\'
    · subst hslash
      simp [escape, decodeBody?, ih, unescape]
    by_cases hquote : c = '"'
    · subst hquote
      simp [escape, decodeBody?, ih, unescape]
    by_cases hfeed : c = '\n'
    · subst hfeed
      simp [escape, decodeBody?, ih, unescape]
    simp [escape, hslash, hquote, hfeed, decodeBody?, ih]

theorem decode?_encode (s : List Char) : decode? (encode s) = some s := by
  have hrev : (escape s ++ ['"']).reverse = '"' :: (escape s).reverse := by simp
  simp only [encode, List.cons_append, decode?, hrev, List.reverse_reverse, decodeBody?_escape]

theorem body_escape (s rest : List Char) :
    body '"' (escape s ++ '"' :: rest) = (escape s ++ ['"'], true) := by
  induction s with
  | nil => simp [escape, body]
  | cons c s ih =>
    by_cases hslash : c = '\\'
    · subst hslash
      simp [escape, body, ih]
    by_cases hquote : c = '"'
    · subst hquote
      simp [escape, body, ih]
    by_cases hfeed : c = '\n'
    · subst hfeed
      simp [escape, body, ih]
    simp [escape, hslash, hquote, hfeed, body, ih]

end Literal

theorem literalLength_encode (s rest : List Char) :
    literalLength (Literal.encode s ++ rest) = ((Literal.encode s).length, true) := by
  have hbody := Literal.body_escape s rest
  simp only [Literal.encode, List.cons_append, List.append_assoc, List.nil_append, literalLength,
    hbody, if_true, List.length_cons, List.length_append]

/-! ## Arguments -/

/-- Adds a text to what has been read. -/
def extend (w : List Char) (r : Option (List (List Char)) × Nat) :
    Option (List (List Char)) × Nat :=
  (r.1.map (prepend w), r.2 + w.length)

theorem extend_cons (w arg : List Char) (args : List (List Char)) (n : Nat) :
    extend w (some (arg :: args), n) = (some ((w ++ arg) :: args), n + w.length) := rfl

theorem arguments_opening (depth : Nat) (rest : List Char) :
    arguments depth ('(' :: rest) = extend ['('] (arguments (depth + 1) rest) := by
  rw [arguments.eq_def]
  rfl

theorem arguments_closing (depth : Nat) (rest : List Char) :
    arguments (depth + 1) (')' :: rest) = extend [')'] (arguments depth rest) := by
  rw [arguments]
  rfl

theorem arguments_last (rest : List Char) : arguments 0 (')' :: rest) = (some [[]], 1) := by
  rw [arguments]
  rfl

theorem arguments_comma (rest : List Char) :
    arguments 0 (',' :: rest) = ((arguments 0 rest).1.map ([] :: ·), (arguments 0 rest).2 + 1) := by
  rw [arguments]
  rfl

theorem arguments_plain {c : Char} (hquote : c ≠ '"' ∧ c ≠ '\'') (hopen : c ≠ '(')
    (hclose : c ≠ ')') {depth : Nat} (hcomma : c ≠ ',' ∨ depth ≠ 0) (rest : List Char) :
    arguments depth (c :: rest) = extend [c] (arguments depth rest) := by
  have hsplit : ¬ (c = ',' ∧ depth = 0) := by
    rintro ⟨hc, hd⟩
    rcases hcomma with h | h
    · exact h hc
    · exact h hd
  rw [arguments.eq_def]
  simp only [hquote, hopen, hclose, hsplit, or_self, if_false]
  rfl

/-- A literal that is not closed leaves the row open. -/
theorem arguments_broken {c : Char} {rest : List Char} (hc : c = '"' ∨ c = '\'') {n : Nat}
    (hn : literalLength (c :: rest) = (n, false)) (depth : Nat) :
    arguments depth (c :: rest) = (none, n) := by
  rw [arguments.eq_def]
  simp only [hc, hn, if_true, Bool.false_eq_true, if_false]

theorem arguments_literal (raw : List Char) (depth : Nat) (rest : List Char) :
    arguments depth (Literal.encode raw ++ rest) =
      extend (Literal.encode raw) (arguments depth rest) := by
  have hlen := literalLength_encode raw rest
  have hcons : Literal.encode raw ++ rest = '"' :: (Literal.escape raw ++ '"' :: rest) := by
    simp [Literal.encode]
  have hdrop : (Literal.escape raw ++ '"' :: rest).drop ((Literal.encode raw).length - 1) = rest := by
    simp [Literal.encode]
  rw [hcons] at hlen
  rw [hcons, arguments.eq_def]
  simp only [true_or, if_true, hlen, hdrop]
  rw [← hcons, List.take_left, extend, Nat.add_comm]

/-- Inside so many parentheses, every parenthesis has its other one and commas are not outside. -/
def balanced (depth : Nat) : List Char → Bool
  | [] => depth = 0
  | c :: rest =>
    if c = '(' then balanced (depth + 1) rest
    else if c = ')' then
      match depth with
      | 0 => false
      | depth + 1 => balanced depth rest
    else (c ≠ ',' || depth ≠ 0) && balanced depth rest

def Unquoted (e : List Char) : Prop := ∀ c ∈ e, c ≠ '"' ∧ c ≠ '\''

theorem extend_extend (v w : List Char) {r : Option (List (List Char)) × Nat} :
    extend v (extend w r) = extend (v ++ w) r := by
  obtain ⟨args, n⟩ := r
  cases args with
  | none => simp [extend, Nat.add_assoc, Nat.add_comm v.length]
  | some args => cases args <;> simp [extend, prepend, Nat.add_assoc, Nat.add_comm v.length]

/-- A balanced text belongs to the argument that it is read in. -/
theorem arguments_balanced {e rest : List Char} (hquote : Unquoted e) {depth : Nat}
    (h : balanced depth e = true) (hrest : extend [] (arguments 0 rest) = arguments 0 rest) :
    arguments depth (e ++ rest) = extend e (arguments 0 rest) := by
  induction e generalizing depth with
  | nil =>
    have hdepth : depth = 0 := by simpa [balanced] using h
    rw [hdepth, hrest]
    rfl
  | cons c e ih =>
    have hall (d : Nat) := @ih (fun x hx => hquote x (List.mem_cons_of_mem c hx)) d
    have hc := hquote c List.mem_cons_self
    rw [balanced.eq_def] at h
    rw [List.cons_append]
    by_cases hopen : c = '('
    · simp only [hopen, if_true] at h
      rw [hopen, arguments_opening, hall _ h, extend_extend]
      rfl
    by_cases hclose : c = ')'
    · subst hclose
      cases depth with
      | zero => simp at h
      | succ depth =>
        rw [arguments_closing, hall depth (by simpa using h), extend_extend]
        rfl
    have hplain : (c ≠ ',' ∨ depth ≠ 0) ∧ balanced depth e = true := by
      simpa [hopen, hclose] using h
    rw [arguments_plain hc hopen hclose hplain.1, hall depth hplain.2, extend_extend]
    rfl

/-- Arguments as they are written behind the first one. -/
def tailText (es : List (List Char)) : List Char := es.flatMap ([',', ' '] ++ ·)

theorem arguments_tail {es : List (List Char)}
    (h : ∀ e ∈ es, Unquoted e ∧ balanced 0 e = true) (rest : List Char) :
    arguments 0 (tailText es ++ ')' :: rest) =
      (some ([] :: es.map (' ' :: ·)), (tailText es).length + 1) := by
  induction es with
  | nil => exact arguments_last rest
  | cons e es ih =>
    have ih := ih fun d hd => h d (List.mem_cons_of_mem e hd)
    obtain ⟨hquote, hbalanced⟩ := h e List.mem_cons_self
    have htext : tailText (e :: es) ++ ')' :: rest =
        ',' :: ' ' :: (e ++ (tailText es ++ ')' :: rest)) := by simp [tailText]
    -- The rest gives some argument, and that one is what the expression is put in front of.
    have hrest : extend [] (arguments 0 (tailText es ++ ')' :: rest)) =
        arguments 0 (tailText es ++ ')' :: rest) := by
      rw [ih]
      rfl
    have harg := arguments_balanced hquote hbalanced hrest
    rw [htext, arguments_comma, arguments_plain (by decide) (by decide) (by decide) (by decide),
      harg, ih, extend_cons, extend_cons, List.append_nil]
    simp [tailText]
    omega

theorem arguments_row {es : List (List Char)} (raw : List Char)
    (h : ∀ e ∈ es, Unquoted e ∧ balanced 0 e = true) (rest : List Char) :
    arguments 0 (Literal.encode raw ++ tailText es ++ ')' :: rest) =
      (some (Literal.encode raw :: es.map (' ' :: ·)),
        (Literal.encode raw ++ tailText es).length + 1) := by
  rw [List.append_assoc, arguments_literal, arguments_tail h, extend_cons, List.append_nil,
    List.length_append]
  congr 1
  omega

theorem intercalate_eq_tailText (a : List Char) (es : List (List Char)) :
    [',', ' '].intercalate (a :: es) = a ++ tailText es := by
  induction es generalizing a with
  | nil => simp [tailText]
  | cons e es ih =>
    rw [List.intercalate_cons_cons, ih, tailText, tailText, List.flatMap_cons]
    simp

end NodeAtlas.Definition
