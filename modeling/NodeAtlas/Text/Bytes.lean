/-! Byte offsets into a text, as its UTF-8 encoding counts them. -/

namespace NodeAtlas.Text

def byteLength : List Char → Nat
  | [] => 0
  | c :: rest => c.utf8Size + byteLength rest

@[simp] theorem byteLength_nil : byteLength [] = 0 := rfl

@[simp] theorem byteLength_cons (c : Char) (s : List Char) :
    byteLength (c :: s) = c.utf8Size + byteLength s := rfl

@[simp] theorem byteLength_append (s t : List Char) :
    byteLength (s ++ t) = byteLength s + byteLength t := by
  induction s with
  | nil => simp
  | cons c rest ih => simp [ih, Nat.add_assoc]

theorem byteLength_pos {w : List Char} (h : w ≠ []) : 0 < byteLength w := by
  obtain ⟨c, rest, rfl⟩ := List.exists_cons_of_ne_nil h
  have := c.utf8Size_pos
  rw [byteLength_cons]
  omega

/-- Divides a text after so many bytes, unless that is inside a character or beyond the end. -/
def splitAtByte? : Nat → List Char → Option (List Char × List Char)
  | 0, s => some ([], s)
  | _ + 1, [] => none
  | n + 1, c :: rest =>
    if c.utf8Size ≤ n + 1 then
      (splitAtByte? (n + 1 - c.utf8Size) rest).map fun p => (c :: p.1, p.2)
    else none

theorem splitAtByte?_append (s t : List Char) :
    splitAtByte? (byteLength s) (s ++ t) = some (s, t) := by
  induction s with
  | nil => rw [byteLength_nil, List.nil_append, splitAtByte?]
  | cons c s ih =>
    obtain ⟨n, hn⟩ := Nat.exists_eq_succ_of_ne_zero (Nat.ne_of_gt c.utf8Size_pos)
    have hlen : byteLength (c :: s) = (n + byteLength s) + 1 := by
      rw [byteLength_cons, hn]
      omega
    have hle : c.utf8Size ≤ (n + byteLength s) + 1 := by omega
    have hrest : (n + byteLength s) + 1 - c.utf8Size = byteLength s := by omega
    rw [hlen, List.cons_append, splitAtByte?, if_pos hle, hrest, ih]
    rfl

/-- The characters between two byte offsets, when both are character boundaries in order. -/
def slice? (s : List Char) (start stop : Nat) : Option (List Char) :=
  if start ≤ stop then do
    let (_, rest) ← splitAtByte? start s
    let (inside, _) ← splitAtByte? (stop - start) rest
    return inside
  else none

theorem slice?_append (s w t : List Char) :
    slice? (s ++ (w ++ t)) (byteLength s) (byteLength s + byteLength w) = some w := by
  rw [slice?, if_pos (Nat.le_add_right _ _), splitAtByte?_append, Nat.add_sub_cancel_left]
  show (splitAtByte? (byteLength w) (w ++ t)).bind (fun p => some p.1) = some w
  rw [splitAtByte?_append]
  rfl

end NodeAtlas.Text
