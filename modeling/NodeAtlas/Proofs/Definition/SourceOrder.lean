import NodeAtlas.Proofs.Definition.Filing

/-!
Positions tell the rows of a document apart. Tokens stand one behind another, every row says what its
token says and has its position, and sorting puts the rows into the order of their tokens.
-/

namespace NodeAtlas.Definition

/-! ## Positions of tokens -/

theorem lt_positionAfter_cons (p : Position) (c : Char) (s : List Char) :
    p < positionAfter p (c :: s) := by
  -- A line feed leads to the next line, and any other character to the next column.
  have hstep (p : Position) (c : Char) : p < positionAfter p [c] := by
    by_cases hc : c = '\n'
    · exact .inl (by simp [positionAfter, hc])
    · exact .inr (by simp [positionAfter, hc])
  induction s generalizing p c with
  | nil => exact hstep p c
  | cons d s ih => exact Position.lt_trans (hstep p c) (ih (positionAfter p [c]) d)

theorem lt_positionAfter (p : Position) {s : List Char} (h : s ≠ []) : p < positionAfter p s := by
  obtain ⟨c, rest, rfl⟩ := List.exists_cons_of_ne_nil h
  exact lt_positionAfter_cons p c rest

theorem lt_position_of_mem {p q : Position} {ts : List Located} (hp : p < q)
    (h : ∀ l ∈ ts, l.position = q ∨ q < l.position) : ∀ l ∈ ts, p < l.position := by
  intro l hl
  rcases h l hl with heq | hlt
  · exact heq ▸ hp
  · exact Position.lt_trans hp hlt

/-- Tokens stand one behind another, and none before the beginning. -/
theorem tokensFrom_ordered (p : Position) (fresh : Bool) (s : List Char) :
    (∀ l ∈ tokensFrom p fresh s, l.position = p ∨ p < l.position) ∧
      (tokensFrom p fresh s).Pairwise fun a b => a.position < b.position := by
  fun_induction tokensFrom p fresh s with
  | case1 => simp
  | case2 p fresh s hs k n more token htoken ih =>
    have htake : s.take n ≠ [] := by
      simp only [ne_eq, List.take_eq_nil_iff, not_or]
      exact ⟨by omega, hs⟩
    have hmore : ∀ l ∈ more, p < l.position :=
      lt_position_of_mem (lt_positionAfter p htake) ih.1
    exact ⟨List.forall_mem_cons.mpr ⟨.inl rfl, fun l hl => .inr (hmore l hl)⟩,
      List.Pairwise.cons hmore ih.2⟩
  | case3 p fresh s hs k n more htoken ih =>
    have htake : s.take n ≠ [] := by
      simp only [ne_eq, List.take_eq_nil_iff, not_or]
      exact ⟨by omega, hs⟩
    exact ⟨fun l hl => .inr (lt_position_of_mem (lt_positionAfter p htake) ih.1 l hl), ih.2⟩

theorem tokens_ordered (s : List Char) :
    (tokens s).Pairwise fun a b => a.position < b.position :=
  (tokensFrom_ordered .start true s).2

/-! ## Rows of an assembly -/

/-- What the invocation of a row says. -/
def Row.bare (r : Row) : Row := { r with brief := none, group := none }

namespace Assembly

def rows (a : Assembly) : List Row :=
  (a.closed ++ a.current.toList).flatMap Group.rows ++ a.ungrouped

theorem rows_abandonGroup (a : Assembly) : a.abandonGroup.rows = a.rows := by
  rw [rows, rows, closed_abandonGroup, ungrouped_abandonGroup, current_abandonGroup]
  simp

theorem rows_openGroup (a : Assembly) {g : Group} (hg : g.rows = []) :
    (a.openGroup g).rows = a.rows := by
  rw [← rows_abandonGroup a]
  simp [rows, openGroup, current_abandonGroup, hg]

theorem rows_closeGroup (a : Assembly) : a.closeGroup.rows = a.rows := by
  simp [rows, closeGroup]

theorem rows_docBlock (a : Assembly) (p : Position) (text : List Char) :
    (a.docBlock p text).rows = a.rows := by
  unfold docBlock
  split
  · rfl
  split
  · exact rows_openGroup a rfl
  split
  · exact rows_closeGroup a
  split <;> rfl

theorem rows_docLine (a : Assembly) (p : Position) (text : List Char) :
    (a.docLine p text).rows = a.rows := by
  unfold docLine
  split
  · exact rows_closeGroup a
  split
  · rfl
  split <;> rfl

theorem rows_addRow (a : Assembly) (r : Row) : (a.addRow r).rows.Perm (a.rows ++ [r]) := by
  unfold addRow
  split
  · next g hg =>
    -- The row comes before the rows outside groups.
    have hrows : ∀ xs ys : List Row, (xs ++ [r] ++ ys).Perm (xs ++ ys ++ [r]) := by
      intro xs ys
      rw [List.append_assoc, List.append_assoc]
      exact List.perm_append_comm.append_left xs
    simpa [rows, hg] using hrows (a.closed.flatMap Group.rows ++ g.rows) a.ungrouped
  · next hg => simp [rows, hg]

/-- Every token adds its row, if it gives one. -/
theorem bare_add (a : Assembly) (l : Located) : ((a.add l).rows.map Row.bare).Perm
    (a.rows.map Row.bare ++ (row? none l).toList) := by
  obtain ⟨p, t⟩ := l
  cases t with
  | docBlock text =>
    show ((a.docBlock p text).rows.map Row.bare).Perm _
    rw [rows_docBlock]
    simp [row?]
  | docLine text =>
    show ((a.docLine p text).rows.map Row.bare).Perm _
    rw [rows_docLine]
    simp [row?]
  | malformed text => simp [add, report, rows, row?]
  | row args =>
    show ((a.row p args).rows.map Row.bare).Perm _
    unfold row
    split
    · split
      · next hraw =>
        refine ((rows_addRow _ _).map Row.bare).trans ?_
        simp [rows, row?, hraw, Row.bare]
      · next hraw => simp [report, rows, row?, hraw]
    · next hargs => simp [report, rows, row?_of_arguments hargs]

theorem bare_foldl (ts : List Located) :
    ((ts.foldl add {}).rows.map Row.bare).Perm (ts.filterMap (row? none)) := by
  induction ts using List.reverseRecOn with
  | nil => exact .refl _
  | append_singleton ts l ih =>
    have hlast : [l].filterMap (row? none) = (row? none l).toList := by
      cases h : row? none l <;> simp [h]
    rw [List.foldl_append, List.foldl_cons, List.foldl_nil, List.filterMap_append, hlast]
    exact (bare_add _ l).trans (ih.append_right _)

end Assembly

/-! ## Rows of a document -/

theorem rows_sorted (d : Document) :
    d.rows.Pairwise fun a b => a.position.le b.position = true :=
  List.pairwise_mergeSort (fun a b c => Position.le_trans a.position b.position c.position)
    (fun a b => Position.le_total a.position b.position) _

theorem rows_perm (d : Document) : d.rows.Perm (d.groups.flatMap Group.rows ++ d.ungrouped) :=
  List.mergeSort_perm _ _

theorem nodup_of_ordered {rows : List Row}
    (h : rows.Pairwise fun a b => a.position < b.position) : rows.Nodup :=
  h.imp fun hlt heq => Position.ne_of_lt hlt (congrArg Row.position heq)

theorem filter_position {rows : List Row} (h : rows.Pairwise fun a b => a.position < b.position)
    {r : Row} (hr : r ∈ rows) : rows.filter (fun r' => r'.position = r.position) = [r] := by
  obtain ⟨front, rest, rfl⟩ := List.append_of_mem hr
  obtain ⟨-, hrest, hfront⟩ := List.pairwise_append.mp h
  have hbefore : front.filter (fun r' => r'.position = r.position) = [] := by
    rw [List.filter_eq_nil_iff]
    intro r' hr'
    simpa using Position.ne_of_lt (hfront r' hr' r (by simp))
  have hafter : rest.filter (fun r' => r'.position = r.position) = [] := by
    rw [List.filter_eq_nil_iff]
    intro r' hr'
    simpa using (Position.ne_of_lt (List.rel_of_pairwise_cons hrest hr')).symm
  simp [List.filter_append, hbefore, hafter]

/-- The position of a row tells which one it is. -/
theorem eq_of_position_eq {rows : List Row} (h : rows.Pairwise fun a b => a.position < b.position)
    {r r' : Row} (hr : r ∈ rows) (hr' : r' ∈ rows) (heq : r'.position = r.position) : r' = r := by
  have hmem : r' ∈ rows.filter fun r' => r'.position = r.position := by
    simp [hr', heq]
  rw [filter_position h hr] at hmem
  exact List.mem_singleton.mp hmem

/-- Rows that are sorted are in the order that tells them apart. -/
theorem eq_of_perm {sorted rows : List Row} (hperm : sorted.Perm rows)
    (hsorted : sorted.Pairwise fun a b => a.position.le b.position = true)
    (hrows : rows.Pairwise fun a b => a.position < b.position) : sorted = rows := by
  refine hperm.eq_of_pairwise ?_ hsorted (hrows.imp Position.le_of_lt)
  intro a b ha hb hle hle'
  exact eq_of_position_eq hrows hb (hperm.mem_iff.mp ha) (Position.le_antisymm hle hle')

/-- Rows that are in order are the rows of a document that has them in its groups and outside. -/
theorem rows_eq_of_perm {d : Document} {rows : List Row}
    (hperm : rows.Perm (d.groups.flatMap Group.rows ++ d.ungrouped))
    (hrows : rows.Pairwise fun a b => a.position < b.position) : d.rows = rows :=
  eq_of_perm ((rows_perm d).trans hperm.symm) (rows_sorted d) hrows

theorem position_of_row? {group : Option String} {l : Located} {r : Row}
    (h : row? group l = some r) : r.position = l.position := by
  unfold row? at h
  split at h
  · obtain ⟨rawType, -, rfl⟩ := Option.map_eq_some_iff.mp h
    rfl
  · cases h

/-- Rows of tokens are in the order of the tokens. -/
theorem row?_ordered (s : List Char) :
    ((tokens s).filterMap (row? none)).Pairwise fun a b => a.position < b.position := by
  rw [List.pairwise_filterMap]
  refine (tokens_ordered s).imp fun hlt r hr r' hr' => ?_
  rw [position_of_row? hr, position_of_row? hr']
  exact hlt

/-- A document has the rows that its assembly has. -/
theorem rows_assemble (path : String) (ts : List Located) :
    (assemble path ts).document.rows.Perm (ts.foldl Assembly.add {}).rows := by
  have hrows : (assemble path ts).document.groups.flatMap Group.rows ++
      (assemble path ts).document.ungrouped = (ts.foldl Assembly.add {}).rows := by
    rw [← Assembly.rows_abandonGroup, Assembly.rows, Assembly.current_abandonGroup]
    simp [assemble, Assembly.document, Assembly.run]
  exact hrows ▸ rows_perm _

theorem bare_perm (path : String) (ts : List Located) :
    ((assemble path ts).document.rows.map Row.bare).Perm (ts.filterMap (row? none)) :=
  ((rows_assemble path ts).map Row.bare).trans (Assembly.bare_foldl ts)

/-- The rows of a document say what its tokens say, one after another. -/
theorem bare_rows (path text : String) :
    (parse path text).document.rows.map Row.bare =
      (tokens text.toList).filterMap (row? none) :=
  eq_of_perm (bare_perm path _) (List.pairwise_map.mpr (rows_sorted _)) (row?_ordered _)

/-- No two rows have the same position. -/
theorem rows_ordered (path text : String) :
    (parse path text).document.rows.Pairwise fun a b => a.position < b.position := by
  have hbare := row?_ordered text.toList
  rw [← bare_rows path text, List.pairwise_map] at hbare
  exact hbare

theorem total_eq_length_flatMap (gs : List Group) :
    total (gs.map (·.rows.length)) = (gs.flatMap Group.rows).length := by
  induction gs with
  | nil => rfl
  | cons g gs ih => rw [List.map_cons, total, ih, List.flatMap_cons, List.length_append]

theorem length_rows (d : Document) : d.rows.length = d.rowCount := by
  rw [(rows_perm d).length_eq, List.length_append, ← total_eq_length_flatMap, Document.rowCount]

end NodeAtlas.Definition
