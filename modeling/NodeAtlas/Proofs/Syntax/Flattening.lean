import NodeAtlas.Proofs.Syntax.Traversal
import NodeAtlas.Syntax.FlatRow

/-!
Trees as tables. The rows of a tree give back its links: parents and children, and what is below a
node, which takes up the rows that follow the row of the node.
-/

namespace NodeAtlas

/-! ## Tables -/

namespace FlatRow

/-- A row is directly below another one. -/
def IsChild (rows : List FlatRow) (i k : Nat) : Prop :=
  ∃ r, rows[k]? = some r ∧ r.parentId = some i

def IsBelow (rows : List FlatRow) : Nat → Nat → Prop := Relation.TransGen (IsChild rows)

end FlatRow

namespace SyntaxTree

open FlatRow

/-- The rows of a table encode a tree, whose nodes they are the rows of in this order. -/
structure Encodes (rows : List FlatRow) (nodes : List Nat) (t : SyntaxTree) : Prop where
  perm : nodes.Perm (List.range t.size)
  length : rows.length = t.size
  columns : ∀ (i : Nat) (r : FlatRow), rows[i]? = some r → r.nodeId = i ∧
    ∃ id, nodes[i]? = some id ∧ r.kind = t.kind id ∧ r.start = t.startOf id ∧ r.stop = t.stopOf id
  root : ∀ r : FlatRow, rows[0]? = some r →
    nodes[0]? = some 0 ∧ r.parentId = none ∧ r.depth = 0
  parent : ∀ (i : Nat) (r : FlatRow), 0 < i → rows[i]? = some r → ∃ (p : Nat) (q : FlatRow),
    r.parentId = some p ∧ p < i ∧ rows[p]? = some q ∧ r.depth = q.depth + 1 ∧
      nodes[i]?.bind t.parent = nodes[p]?
  /-- What is below a row is the block of deeper rows behind it. -/
  below : ∀ (i : Nat) (r : FlatRow), rows[i]? = some r → ∃ j, i ≤ j ∧ j < rows.length ∧
    (∀ k, IsBelow rows i k ↔ i < k ∧ k ≤ j) ∧
    (∀ (k : Nat) (q : FlatRow), i < k → k ≤ j → rows[k]? = some q → r.depth < q.depth) ∧
    ∀ q : FlatRow, rows[j + 1]? = some q → q.depth ≤ r.depth
  childrenCount : ∀ (i : Nat) (r : FlatRow), rows[i]? = some r →
    r.childrenCount = rows.countP fun r => r.parentId = some i
  children : ∀ i id : Nat, nodes[i]? = some id →
    (rows.filter fun r => r.parentId = some i).map (fun r => nodes[r.nodeId]?) =
      (t.children id).map some

/-! ## Places in pre-order -/

/-- The nodes of a tree in pre-order. -/
def ids (t : SyntaxTree) : List Nat := t.preorder.map Prod.fst

theorem getElem?_ids (t : SyntaxTree) (i : Nat) : t.ids[i]? = t.preorder[i]?.map Prod.fst :=
  List.getElem?_map

theorem exists_entry {t : SyntaxTree} {i id : Nat} (hi : t.ids[i]? = some id) :
    ∃ depth, t.preorder[i]? = some (id, depth) := by
  rw [getElem?_ids] at hi
  obtain ⟨⟨x, depth⟩, hentry, rfl⟩ := Option.map_eq_some_iff.mp hi
  exact ⟨depth, hentry⟩

section Arena

variable {t : SyntaxTree} (h : t.IsArena)
include h

theorem IsArena.nodup_ids : t.ids.Nodup := h.isPreorder.once

theorem IsArena.place_unique {i k id : Nat} (hi : t.ids[i]? = some id)
    (hk : t.ids[k]? = some id) : i = k := by
  obtain ⟨hlt, -⟩ := List.getElem?_eq_some_iff.mp hi
  exact (List.getElem?_inj hlt h.nodup_ids).mp (hi.trans hk.symm)

theorem IsArena.rowOf_eq {i id : Nat} (hi : t.ids[i]? = some id) : rowOf t.preorder id = i := by
  obtain ⟨hlt, hget⟩ := List.getElem?_eq_some_iff.mp hi
  have hfind : t.ids.findIdx? (· == id) = some i := by
    refine List.findIdx?_eq_some_iff_getElem.mpr ⟨hlt, by simp [hget], fun j hji hj => ?_⟩
    rw [beq_iff_eq, ← hget, h.nodup_ids.getElem_inj_iff] at hj
    exact Nat.ne_of_lt hji hj
  rw [ids, List.findIdx?_map] at hfind
  exact congrArg (Option.getD · 0) hfind

/-- The nodes below a node take up the places from its own to another one. -/
theorem IsArena.exists_block {i id depth : Nat} (hi : t.preorder[i]? = some (id, depth)) :
    ∃ j, i ≤ j ∧ j < t.preorder.length ∧
      (∀ k x, t.ids[k]? = some x → (t.IsAncestor id x ↔ i < k ∧ k ≤ j)) ∧
      (∀ k e, i < k → k ≤ j → t.preorder[k]? = some e → depth < e.2) ∧
      ∀ e, t.preorder[j + 1]? = some e → e.2 ≤ depth := by
  obtain ⟨below, rest, hdrop, hmem, hdeep, hrest⟩ := h.drop_succ_preorder hi
  have hplace (n : Nat) : t.preorder[i + 1 + n]? = (below ++ rest)[n]? := by
    rw [← List.getElem?_drop, hdrop]
  have hbelow {n : Nat} (hn : n < below.length) : t.preorder[i + 1 + n]? = below[n]? := by
    rw [hplace, List.getElem?_append_left hn]
  have hlt : i < t.preorder.length := (List.getElem?_eq_some_iff.mp hi).1
  have hlength := congrArg List.length hdrop
  rw [List.length_drop, List.length_append] at hlength
  refine ⟨i + below.length, by omega, by omega, fun k x hk => ?_, fun k e hik hkj he => ?_,
    fun e he => ?_⟩
  · rw [← hmem]
    constructor
    · intro hx
      obtain ⟨n, hn, hget⟩ := List.getElem_of_mem hx
      rw [List.length_map] at hn
      have hxn : t.ids[i + 1 + n]? = some x := by
        rw [ids, List.getElem?_map, hbelow hn, ← List.getElem?_map, ← hget,
          List.getElem?_eq_getElem]
      have heq := h.place_unique hk hxn
      omega
    · rintro ⟨hik, hkj⟩
      obtain ⟨n, rfl⟩ := Nat.exists_eq_add_of_le hik
      rw [ids, List.getElem?_map, hbelow (by omega), ← List.getElem?_map] at hk
      exact List.mem_of_getElem? hk
  · obtain ⟨n, rfl⟩ := Nat.exists_eq_add_of_le hik
    rw [hbelow (by omega)] at he
    exact hdeep e (List.mem_of_getElem? he)
  · rw [Nat.add_right_comm, hplace, List.getElem?_append_right (Nat.le_refl _), Nat.sub_self,
      ← List.head?_eq_getElem?] at he
    exact hrest e he

/-- The children of a node are the nodes with that parent, in the order in which they are visited. -/
theorem IsArena.filter_ids {i id : Nat} (hi : t.ids[i]? = some id) :
    t.ids.filter (fun x => t.parent x = some id) = t.children id := by
  obtain ⟨depth, hentry⟩ := exists_entry hi
  obtain ⟨rest, hdrop, -⟩ := h.drop_preorder hentry
  have hsub : (t.children id).Sublist t.ids := by
    refine (h.children_sublist depth id).trans (List.Sublist.map Prod.fst ?_)
    refine List.Sublist.trans ?_ (List.drop_sublist i t.preorder)
    rw [hdrop]
    exact List.sublist_append_left _ _
  have hkeep : (t.children id).filter (fun x => t.parent x = some id) = t.children id := by
    rw [List.filter_eq_self]
    exact fun c hc => decide_eq_true (h.mem_children.mp hc)
  have hfilter := hsub.filter fun x => t.parent x = some id
  rw [hkeep] at hfilter
  have hle := (List.subperm_of_subset (h.nodup_ids.filter fun x => t.parent x = some id)
    fun x hx => h.mem_children.mpr (by simpa using (List.mem_filter.mp hx).2)).length_le
  exact (hfilter.eq_of_length_le hle).symm

section Rooted

variable (hroot : ∀ id < t.size, t.parent id = none → id = 0)
include hroot

/-- When only the first node has no parent, it leads to all nodes. -/
theorem IsArena.leads_zero {id : Nat} (hid : id < t.size) : t.Leads 0 id := by
  induction id using Nat.strong_induction_on with
  | _ id ih =>
    cases hparent : t.parent id with
    | none =>
      rw [hroot id hid hparent]
      exact .refl
    | some p =>
      have hlt := h.lt hparent
      exact (ih p hlt (Nat.lt_trans hlt hid)).tail (h.mem_children.mpr hparent)

theorem IsArena.mem_ids {id : Nat} : id ∈ t.ids ↔ id < t.size := by
  rw [ids, h.isPreorder.reached]
  constructor
  · rintro ⟨hsize, hlead⟩
    exact h.lt_size_of_leads hsize hlead
  · exact fun hid => ⟨Nat.zero_lt_of_lt hid, h.leads_zero hroot hid⟩

theorem IsArena.ids_perm : t.ids.Perm (List.range t.size) := by
  rw [List.perm_ext_iff_of_nodup h.nodup_ids List.nodup_range]
  exact fun id => (h.mem_ids hroot).trans List.mem_range.symm

end Rooted

end Arena

/-! ## Rows -/

theorem getElem?_flatten (t : SyntaxTree) (l : Language) (i : Nat) : (t.flatten l)[i]? =
    t.preorder[i]?.map fun e => t.flatRow l t.preorder i e.1 e.2 := by
  rw [flatten, List.getElem?_mapIdx]

section Rows

variable {t : SyntaxTree} {l : Language}

/-- A row is made of the entry in its place. -/
theorem exists_of_getElem?_flatten {i : Nat} {r : FlatRow} (hr : (t.flatten l)[i]? = some r) :
    ∃ id depth, t.preorder[i]? = some (id, depth) ∧ t.ids[i]? = some id ∧
      r = t.flatRow l t.preorder i id depth := by
  rw [getElem?_flatten] at hr
  obtain ⟨⟨id, depth⟩, hentry, hrow⟩ := Option.map_eq_some_iff.mp hr
  exact ⟨id, depth, hentry, by rw [getElem?_ids, hentry]; rfl, hrow.symm⟩

variable (h : t.IsArena) (hroot : ∀ id < t.size, t.parent id = none → id = 0)
include h

theorem IsArena.flatten_eq : t.flatten l =
    t.preorder.map fun e => t.flatRow l t.preorder (rowOf t.preorder e.1) e.1 e.2 := by
  apply List.ext_getElem?
  intro i
  rw [getElem?_flatten, List.getElem?_map]
  cases hi : t.preorder[i]? with
  | none => rfl
  | some e => rw [Option.map_some, Option.map_some, h.rowOf_eq (by rw [getElem?_ids, hi]; rfl)]

include hroot

theorem IsArena.exists_place {id : Nat} (hid : id < t.size) : ∃ i : Nat, t.ids[i]? = some id :=
  List.mem_iff_getElem?.mp ((h.mem_ids hroot).mpr hid)

/-- The row of the parent of a node is the place of the parent. -/
theorem IsArena.map_rowOf_eq_iff {i x : Nat} : (t.parent x).map (rowOf t.preorder) = some i ↔
    ∃ p, t.ids[i]? = some p ∧ t.parent x = some p := by
  rw [Option.map_eq_some_iff]
  constructor
  · rintro ⟨p, hp, hi⟩
    obtain ⟨j, hj⟩ := h.exists_place hroot (Nat.lt_trans (h.lt hp) (lt_size_of_parent hp))
    rw [h.rowOf_eq hj] at hi
    exact ⟨p, hi ▸ hj, hp⟩
  · rintro ⟨p, hi, hp⟩
    exact ⟨p, hp, h.rowOf_eq hi⟩

/-- A row is directly below another one as its node is. -/
theorem IsArena.isChild_iff {i k x : Nat} (hk : t.ids[k]? = some x) :
    IsChild (t.flatten l) i k ↔ ∃ p, t.ids[i]? = some p ∧ t.IsParent p x := by
  obtain ⟨depth, hentry⟩ := exists_entry hk
  have hrow : (t.flatten l)[k]? = some (t.flatRow l t.preorder k x depth) := by
    rw [getElem?_flatten, hentry]
    rfl
  rw [IsChild, hrow]
  simpa [flatRow, IsParent] using h.map_rowOf_eq_iff hroot

theorem IsArena.isBelow_iff {i k id x : Nat} (hi : t.ids[i]? = some id) (hk : t.ids[k]? = some x) :
    IsBelow (t.flatten l) i k ↔ t.IsAncestor id x := by
  constructor
  · intro hbelow
    induction hbelow generalizing x with
    | single hchild =>
      obtain ⟨p, hp, hpx⟩ := (h.isChild_iff hroot hk).mp hchild
      cases hp.symm.trans hi
      exact .single hpx
    | tail _ hchild ih =>
      obtain ⟨p, hp, hpx⟩ := (h.isChild_iff hroot hk).mp hchild
      exact (ih hp).tail hpx
  · intro hanc
    induction hanc generalizing k with
    | single hpx => exact .single ((h.isChild_iff hroot hk).mpr ⟨id, hi, hpx⟩)
    | @tail p x _ hpx ih =>
      obtain ⟨m, hm⟩ := h.exists_place hroot (Nat.lt_trans (h.lt hpx) (lt_size_of_parent hpx))
      exact (ih hm).tail ((h.isChild_iff hroot hk).mpr ⟨p, hm, hpx⟩)

theorem IsArena.length_flatten : (t.flatten l).length = t.size := by
  have hlength := (h.ids_perm hroot).length_eq
  rw [ids, List.length_map, List.length_range] at hlength
  rw [flatten, List.length_mapIdx, hlength]

omit hroot in
/-- The first row is the root. -/
theorem IsArena.row_zero {r : FlatRow} (hr : (t.flatten l)[0]? = some r) :
    t.ids[0]? = some 0 ∧ r.parentId = none ∧ r.depth = 0 := by
  obtain ⟨id, depth, hentry, hid, rfl⟩ := exists_of_getElem?_flatten hr
  cases hentry.symm.trans (h.preorder_zero (size_pos_of_preorder hentry))
  exact ⟨hid, by rw [flatRow, h.parent_zero]; rfl, rfl⟩

theorem IsArena.exists_below {i : Nat} {r : FlatRow} (hr : (t.flatten l)[i]? = some r) :
    ∃ j, i ≤ j ∧ j < (t.flatten l).length ∧ (∀ k, IsBelow (t.flatten l) i k ↔ i < k ∧ k ≤ j) ∧
      (∀ (k : Nat) (q : FlatRow), i < k → k ≤ j → (t.flatten l)[k]? = some q →
        r.depth < q.depth) ∧
      ∀ q : FlatRow, (t.flatten l)[j + 1]? = some q → q.depth ≤ r.depth := by
  obtain ⟨id, depth, hentry, hid, rfl⟩ := exists_of_getElem?_flatten hr
  obtain ⟨j, hij, hj, hblock, hdeep, hnext⟩ := h.exists_block hentry
  refine ⟨j, hij, by rwa [flatten, List.length_mapIdx], fun k => ?_, fun k q hik hkj hq => ?_,
    fun q hq => ?_⟩
  · cases hk : t.ids[k]? with
    | some x => rw [h.isBelow_iff hroot hid hk, hblock k x hk]
    | none =>
      -- There is no row in this place, neither below nor in the block.
      have hlength : t.preorder.length ≤ k := by simpa [ids] using hk
      constructor
      · intro hbelow
        obtain ⟨m, -, q, hq, -⟩ := Relation.TransGen.tail'_iff.mp hbelow
        obtain ⟨x, -, -, hx, -⟩ := exists_of_getElem?_flatten hq
        rw [hk] at hx
        cases hx
      · omega
  · obtain ⟨x, depth', hentry', -, rfl⟩ := exists_of_getElem?_flatten hq
    exact hdeep k _ hik hkj hentry'
  · obtain ⟨x, depth', hentry', -, rfl⟩ := exists_of_getElem?_flatten hq
    exact hnext _ hentry'

/-- Every row but the first has its parent before it and one level up. -/
theorem IsArena.exists_parent {i : Nat} {r : FlatRow} (hi : 0 < i)
    (hr : (t.flatten l)[i]? = some r) : ∃ (p : Nat) (q : FlatRow), r.parentId = some p ∧ p < i ∧
      (t.flatten l)[p]? = some q ∧ r.depth = q.depth + 1 ∧ t.ids[i]?.bind t.parent = t.ids[p]? := by
  obtain ⟨x, depth, hentry, hx, hrow⟩ := exists_of_getElem?_flatten hr
  have hsize : x < t.size := (h.mem_ids hroot).mp (List.mem_of_getElem? hx)
  -- The first place belongs to the first node, so the node of the row has a parent.
  have hne : x ≠ 0 := by
    rintro rfl
    have hzero : t.ids[0]? = some 0 := by
      rw [getElem?_ids, h.preorder_zero hsize]
      rfl
    exact Nat.ne_of_lt hi (h.place_unique hzero hx)
  obtain ⟨a, ha⟩ := Option.ne_none_iff_exists'.mp fun hnone => hne (hroot x hsize hnone)
  obtain ⟨p, hp⟩ := h.exists_place hroot (Nat.lt_trans (h.lt ha) hsize)
  obtain ⟨depth', hentry'⟩ := exists_entry hp
  refine ⟨p, t.flatRow l t.preorder p a depth', ?_, ?_, ?_, ?_, ?_⟩
  · rw [hrow, flatRow, ha, Option.map_some, h.rowOf_eq hp]
  · obtain ⟨j, -, -, hblock, -⟩ := h.exists_block hentry'
    exact ((hblock i x hx).mp (.single ha)).1
  · rw [getElem?_flatten, hentry']
    rfl
  · rw [hrow]
    show depth = depth' + 1
    rw [h.depth_eq (List.mem_of_getElem? hentry), h.depth_eq (List.mem_of_getElem? hentry'),
      h.ncard_ancestors ha]
  · rw [hx, hp, Option.bind_some, ha]

/-- The rows directly below a row are the children of its node in their order. -/
theorem IsArena.filter_flatten {i id : Nat} (hi : t.ids[i]? = some id) :
    ((t.flatten l).filter fun r => r.parentId = some i).map (fun r => t.ids[r.nodeId]?) =
      (t.children id).map some := by
  have hparent (x : Nat) :
      (t.parent x).map (rowOf t.preorder) = some i ↔ t.parent x = some id := by
    simp [h.map_rowOf_eq_iff hroot, hi]
  rw [h.flatten_eq, ← h.filter_ids hi, ids, List.filter_map, List.filter_map, List.map_map,
    List.map_map]
  have hfilter : t.preorder.filter ((fun r : FlatRow => decide (r.parentId = some i)) ∘
      fun e => t.flatRow l t.preorder (rowOf t.preorder e.1) e.1 e.2) =
        t.preorder.filter ((fun x => decide (t.parent x = some id)) ∘ Prod.fst) :=
    List.filter_congr fun e _ => decide_eq_decide.mpr (hparent e.1)
  rw [hfilter]
  apply List.map_congr_left
  intro e he
  obtain ⟨k, hk⟩ := List.mem_iff_getElem?.mp (List.mem_of_mem_filter he)
  have hplace : t.ids[k]? = some e.1 := by
    rw [getElem?_ids, hk]
    rfl
  show t.ids[rowOf t.preorder e.1]? = some e.1
  rw [h.rowOf_eq hplace, hplace]

end Rows

/-- The rows of a tree in which only the first node has no parent encode the tree. -/
theorem encodes_flatten {text : List Char} {edits : List Edit} {t : SyntaxTree}
    (h : build? text edits = some t) (hroot : ∀ id < t.size, t.parent id = none → id = 0)
    (l : Language) : Encodes (t.flatten l) t.ids t := by
  have harena := isArena_build? h
  constructor
  case perm => exact harena.ids_perm hroot
  case length => exact harena.length_flatten hroot
  case columns =>
    intro i r hr
    obtain ⟨id, depth, -, hid, rfl⟩ := exists_of_getElem?_flatten hr
    exact ⟨rfl, id, hid, rfl, rfl, rfl⟩
  case root => exact fun r hr => harena.row_zero hr
  case parent => exact fun i r hi hr => harena.exists_parent hroot hi hr
  case below => exact fun i r hr => harena.exists_below hroot hr
  case childrenCount =>
    intro i r hr
    obtain ⟨id, depth, -, hid, rfl⟩ := exists_of_getElem?_flatten hr
    have hlength := congrArg List.length (harena.filter_flatten hroot (l := l) hid)
    rw [List.length_map, List.length_map, ← List.countP_eq_length_filter] at hlength
    exact hlength.symm
  case children => exact fun i id hi => harena.filter_flatten hroot hi

/-- Steps that add a grandchild of the root behind its second child. -/
def lateGrandchild : List Edit :=
  [.push "program" true 0 9 none, .push "a" true 0 3 (some 0), .push "b" true 4 9 (some 0),
    .push "c" true 0 2 (some 1)]

/-- A language in which no kind has a type. -/
def untyped : Language := { name := "untyped", aliases := [], extensions := [], table := {} }

theorem encodes_flatten_lateGrandchild :
    ∃ t, build? [] lateGrandchild = some t ∧ (∀ id < t.size, t.parent id = none → id = 0) ∧
      Encodes (t.flatten untyped) [0, 1, 3, 2] t ∧
      (t.flatten untyped).map FlatRow.parentId = [none, some 0, some 1, some 0] := by
  have hbuild : (build? [] lateGrandchild).isSome = true := rfl
  obtain ⟨t, ht⟩ := Option.isSome_iff_exists.mp hbuild
  have hroot : ∀ id < t.size, t.parent id = none → id = 0 := by
    cases ht
    decide
  have hids : t.ids = [0, 1, 3, 2] := by
    cases ht
    decide
  refine ⟨t, ht, hroot, hids ▸ encodes_flatten ht hroot untyped, ?_⟩
  cases ht
  rfl

end SyntaxTree

end NodeAtlas
