import NodeAtlas.Definition.Validation
import NodeAtlas.Proofs.Definition.SourceOrder
import NodeAtlas.Proofs.Definition.Tokens
import NodeAtlas.Proofs.Text.Offsets

/-!
Where tokens stand in their text. Every token has a byte offset of its own: a chunk that means the
token begins there, and the offset gives the position. Offsets of later tokens are larger, so the rows
of a document are in the order in which the text invokes them.
-/

namespace NodeAtlas

/-- The offset behind some characters has their position, when something follows. -/
theorem Position.ofOffset_append (front : List Char) {s : List Char} (hs : s ≠ []) :
    ofOffset (front ++ s) (Text.byteLength front) = Definition.positionAfter start front := by
  induction front using List.reverseRecOn generalizing s with
  | nil => exact ofOffset_zero s
  | append_singleton front c ih =>
    have hfront := ih (List.cons_ne_nil c s)
    have hafter : Definition.positionAfter start (front ++ [c]) =
        Definition.positionAfter (Definition.positionAfter start front) [c] := List.foldl_append
    rw [List.append_assoc, List.singleton_append, Text.byteLength_append, Text.byteLength_cons,
      Text.byteLength_nil, Nat.add_zero, ofOffset_char, hfront, hafter]
    simp [hs, Definition.positionAfter]

namespace Definition

/-! ## Places of tokens -/

/-- A token at a byte offset. -/
structure StandsAt (text : List Char) (l : Located) (offset : Nat) : Prop where
  position : l.position = .ofOffset text offset
  /-- What begins there means the token, and an invocation begins with the name of rows. -/
  reads : ∃ front rest, Text.splitAtByte? offset text = some (front, rest) ∧
    (chunk (freshAfter true front) rest).token = some l.token ∧
      (l.isInvocation = true → rowName <+: rest)

theorem freshAfter_append (fresh : Bool) (s t : List Char) :
    freshAfter fresh (s ++ t) = freshAfter (freshAfter fresh s) t :=
  List.foldl_append

theorem not_isInvocation_blockComment {s : List Char} {l : Located}
    (h : (blockComment s).token = some l.token) : l.isInvocation = false := by
  unfold blockComment at h
  split at h
  · cases h
  · simp [Located.isInvocation, ← Option.some.inj h]
  · cases h
  · cases h

theorem not_isInvocation_lineComment {s : List Char} {l : Located}
    (h : (lineComment s).token = some l.token) : l.isInvocation = false := by
  unfold lineComment at h
  dsimp only at h
  split at h
  · cases h
  · simp [Located.isInvocation, ← Option.some.inj h]
  · cases h

theorem rowName_of_word {s : List Char} {t : Token} (h : (word s).token = some t) :
    rowName <+: s := by
  unfold word at h
  dsimp only at h
  split at h
  · next hname => exact hname ▸ List.takeWhile_prefix _
  · cases h

theorem rowName_of_chunk {fresh : Bool} {s : List Char} {l : Located}
    (h : (chunk fresh s).token = some l.token) (hl : l.isInvocation = true) : rowName <+: s := by
  unfold chunk at h
  split at h
  · exact absurd hl (by simp [not_isInvocation_blockComment h])
  · exact absurd hl (by simp [not_isInvocation_lineComment h])
  · split at h
    · cases h
    split at h
    · cases h
    split at h
    · exact rowName_of_word h
    · cases h
  · cases h

theorem standsAt_chunk {front s : List Char} (hs : s ≠ []) {token : Token}
    (h : (chunk (freshAfter true front) s).token = some token) :
    StandsAt (front ++ s) ⟨positionAfter .start front, token⟩ (Text.byteLength front) :=
  ⟨(Position.ofOffset_append front hs).symm, front, s, Text.splitAtByte?_append front s, h,
    fun hl => rowName_of_chunk h hl⟩

/-- Tokens of what is left of a text stand behind the part that is read, one behind another. -/
theorem exists_offsets (front s : List Char) : ∃ offsets : List Nat,
    (∀ o ∈ offsets, Text.byteLength front ≤ o) ∧ offsets.Pairwise (· < ·) ∧
      List.Forall₂ (StandsAt (front ++ s))
        (tokensFrom (positionAfter .start front) (freshAfter true front) s) offsets := by
  by_cases hs : s = []
  · subst hs
    rw [tokensFrom, dif_pos rfl]
    exact ⟨[], by simp, .nil, .nil⟩
  rw [tokensFrom, dif_neg hs]
  dsimp only
  generalize hn : max 1 (chunk (freshAfter true front) s).length = n
  have htake : s.take n ≠ [] := by
    simp only [ne_eq, List.take_eq_nil_iff, not_or]
    exact ⟨by omega, hs⟩
  have hpos := Text.byteLength_pos htake
  -- The rest of the text has the chunk in front of it.
  obtain ⟨offsets, hbehind, hordered, hstand⟩ := exists_offsets (front ++ s.take n) (s.drop n)
  rw [positionAfter_append, freshAfter_append, List.append_assoc, List.take_append_drop] at hstand
  have hlt : ∀ o ∈ offsets, Text.byteLength front < o := by
    intro o ho
    have hle := hbehind o ho
    rw [Text.byteLength_append] at hle
    omega
  split
  · next token htoken =>
    exact ⟨Text.byteLength front :: offsets,
      List.forall_mem_cons.mpr ⟨Nat.le_refl _, fun o ho => Nat.le_of_lt (hlt o ho)⟩,
      hordered.cons hlt, .cons (standsAt_chunk hs htoken) hstand⟩
  · exact ⟨offsets, fun o ho => Nat.le_of_lt (hlt o ho), hordered, hstand⟩
termination_by s.length
decreasing_by
  have := List.length_pos_iff.mpr hs
  simp only [List.length_drop]
  omega

/-! ## Rows in the order of the text -/

/-- What source order means for the tokens of a text and the rows of its document. -/
structure InSourceOrder (text : List Char) (d : Document) : Prop where
  located : (tokens text).Pairwise fun a b => a.position < b.position
  /-- Later tokens stand at larger offsets. -/
  places : ∃ offsets : List Nat, offsets.Pairwise (· < ·) ∧
    List.Forall₂ (StandsAt text) (tokens text) offsets
  /-- Nothing is lost or repeated. -/
  perm : d.rows.Perm (d.groups.flatMap Group.rows ++ d.ungrouped)
  /-- Each row says what its invocation says, one after another. -/
  invocations : d.rows.map Row.bare = (tokens text).filterMap (row? none)
  increasing : d.rows.Pairwise fun a b => a.position < b.position
  length : d.rows.length = d.rowCount
  total : (Stats.of d).total = d.rowCount

theorem total_of (d : Document) : (Stats.of d).total = d.rowCount := by
  rw [Stats.of, Document.rowCount, List.map_map]
  rfl

/-- The rows of every document are in source order. -/
theorem inSourceOrder_parse (path text : String) :
    InSourceOrder text.toList (parse path text).document := by
  obtain ⟨offsets, -, hordered, hstand⟩ := exists_offsets [] text.toList
  exact {
    located := tokens_ordered text.toList
    places := ⟨offsets, hordered, hstand⟩
    perm := rows_perm _
    invocations := bare_rows path text
    increasing := rows_ordered path text
    length := length_rows _
    total := total_of _ }

end Definition

end NodeAtlas
