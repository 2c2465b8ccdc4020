import NodeAtlas.Proofs.Syntax.Extraction

/-!
Searching below a node. Behind a node in pre-order comes the block of the nodes below it, and a search
finds the first entry of this block that it looks for.
-/

namespace NodeAtlas.SyntaxTree

/-! ## Blocks -/

/-- The entries behind a place, as long as they are deeper. -/
def block (t : SyntaxTree) (i depth : Nat) : List (Nat × Nat) :=
  (t.preorder.drop (i + 1)).takeWhile fun e => depth < e.2

/-- A node of one of some kinds. -/
def hits (t : SyntaxTree) (kinds : List String) (e : Nat × Nat) : Bool :=
  kinds.contains (t.kind e.1)

section Arena

variable {t : SyntaxTree} (h : t.IsArena)
include h

theorem IsArena.block_eq {i id depth : Nat} (hi : t.preorder[i]? = some (id, depth)) :
    t.block i depth = (t.children id).flatMap (t.depthFirst (depth + 1)) := by
  obtain ⟨rest, hdrop, hrest⟩ := h.drop_preorder hi
  have hbehind : t.preorder.drop (i + 1) =
      (t.children id).flatMap (t.depthFirst (depth + 1)) ++ rest := by
    rw [← List.drop_drop, hdrop, h.depthFirst_eq]
    rfl
  rw [block, hbehind]
  apply Text.takeWhile_append_stop
  · intro e he
    obtain ⟨c, -, hec⟩ := List.mem_flatMap.mp he
    exact decide_eq_true (h.le_depth e hec)
  · intro e he
    exact decide_eq_false (Nat.not_lt.mpr (hrest e he))

theorem IsArena.mem_below_iff {depth id x : Nat} :
    x ∈ ((t.children id).flatMap (t.depthFirst depth)).map Prod.fst ↔ t.IsAncestor id x := by
  rw [List.map_flatMap, List.mem_flatMap, IsAncestor, Relation.TransGen.head'_iff]
  refine exists_congr fun c => and_congr h.mem_children ?_
  rw [h.mem_depthFirst_iff, h.leads_iff]

/-! ## Searches -/

omit h in
/-- What is found in one of some lists after another. -/
theorem map_find?_flatMap {α β γ : Type} {f : α → List β} {p : β → Bool} {k : β → γ}
    {g : α → Option γ} {as : List α} (hg : ∀ a ∈ as, ((f a).find? p).map k = g a) :
    ((as.flatMap f).find? p).map k = as.findSome? g := by
  induction as with
  | nil => rfl
  | cons a as ih =>
    obtain ⟨ha, has⟩ := List.forall_mem_cons.mp hg
    rw [List.flatMap_cons, List.find?_append, List.findSome?_cons, ← ha, ← ih has]
    cases (f a).find? p <;> rfl

/-- The recursive search goes through what is below a node in pre-order. -/
theorem IsArena.findWithin?_eq (kinds : List String) {levels id : Nat} (hlevels : t.size - id ≤ levels)
    (depth : Nat) : t.findWithin? kinds levels id =
      (((t.children id).flatMap (t.depthFirst depth)).find? (t.hits kinds)).map Prod.fst := by
  induction levels generalizing id depth with
  | zero =>
    -- There are no children behind the last node.
    have hnone : t.children id = [] := by
      rw [SyntaxTree.children, node?_eq_none (by omega)]
      rfl
    rw [findWithin?, hnone]
    rfl
  | succ levels ih =>
    rw [findWithin?]
    refine (map_find?_flatMap fun c hc => ?_).symm
    have hparent := h.mem_children.mp hc
    have hlt := h.lt hparent
    have hsize := lt_size_of_parent hparent
    rw [h.depthFirst_eq, List.find?_cons, hits]
    cases kinds.contains (t.kind c) with
    | true => rfl
    | false => exact (ih (by omega) (depth + 1)).symm

/-- The children of a node are what is one level below it. -/
theorem IsArena.findChild?_eq (kinds : List String) (id depth : Nat) : t.findChild? kinds id =
    (((t.children id).flatMap (t.depthFirst depth)).find? fun e =>
      e.2 = depth && t.hits kinds e).map Prod.fst := by
  have hdeeper (c : Nat) : ((t.children c).flatMap (t.depthFirst (depth + 1))).find?
      (fun e => e.2 = depth && t.hits kinds e) = none := by
    rw [List.find?_eq_none]
    intro e he
    obtain ⟨d, -, hed⟩ := List.mem_flatMap.mp he
    have hne : e.2 ≠ depth := Nat.ne_of_gt (h.le_depth e hed)
    simp [hne]
  rw [findChild?, List.find?_eq_findSome?_guard]
  refine (map_find?_flatMap fun c _ => ?_).symm
  rw [h.depthFirst_eq, List.find?_cons, hdeeper, decide_eq_true rfl, Bool.true_and, hits, Option.guard]
  cases kinds.contains (t.kind c) <;> rfl

/-- The recursive search when a node that is looked up may not be there, and when it has to end after
so many steps. -/
def descendant? (t : SyntaxTree) (kinds : List String) : Nat → Nat → Option (Option Nat)
  | 0, _ => none
  | steps + 1, id => do
    let n ← t.node? id
    n.children.findSomeM? fun c => do
      let m ← t.node? c
      if kinds.contains m.kind then some (some c) else descendant? t kinds steps c

theorem IsArena.descendant?_eq (kinds : List String) {steps levels id : Nat} (hid : id < t.size)
    (hsteps : t.size - id ≤ steps) (hlevels : t.size - id ≤ levels) :
    t.descendant? kinds steps id = some (t.findWithin? kinds levels id) := by
  induction steps generalizing levels id with
  | zero => omega
  | succ steps ih =>
    obtain ⟨levels, rfl⟩ : ∃ l, levels = l + 1 := Nat.exists_eq_succ_of_ne_zero (by omega)
    obtain ⟨n, hn⟩ := exists_node? hid
    rw [descendant?, hn, findWithin?, children_eq hn, Option.bind_eq_bind, Option.bind_some]
    refine findSomeM?_eq fun c hc => ?_
    have hlt := h.lt (h.mem_children.mp (children_eq hn ▸ hc))
    have hsize := lt_size_of_mem_node h hn hc
    obtain ⟨m, hm⟩ := exists_node? hsize
    rw [hm, kind_eq hm, Option.bind_some]
    split
    · rfl
    · exact ih hsize (by omega) (by omega)

end Arena

/-- What the searches below a node find, by the block behind its place in pre-order. -/
structure Searches (t : SyntaxTree) (kinds : List String) (id i depth : Nat) : Prop where
  place : t.preorder[i]? = some (id, depth)
  below : ∀ x, x ∈ (t.block i depth).map Prod.fst ↔ t.IsAncestor id x
  /-- The recursion ends, and no look-up fails. -/
  ends : ∀ steps, t.size ≤ steps → t.descendant? kinds steps id = some (t.findDescendant? kinds id)
  looks : t.child? kinds id = some (t.findChild? kinds id)
  descendant : t.findDescendant? kinds id =
    ((t.block i depth).find? (t.hits kinds)).map Prod.fst
  child : t.findChild? kinds id =
    ((t.block i depth).find? fun e => e.2 = depth + 1 && t.hits kinds e).map Prod.fst
  none_iff : t.findDescendant? kinds id = none ↔ ∀ x, t.IsAncestor id x → t.kind x ∉ kinds

/-- However a tree was made, searches below a node that the root leads to find the first entry that the
traversal comes to, and nothing exactly if there is none. -/
theorem searches_build? {text : List Char} {edits : List Edit} {t : SyntaxTree}
    (h : build? text edits = some t) (hsize : 0 < t.size) {id : Nat} (hid : t.Leads 0 id)
    (kinds : List String) : ∃ i depth, t.Searches kinds id i depth := by
  have harena := isArena_build? h
  obtain ⟨⟨x, depth⟩, hmem, hx⟩ :=
    List.mem_map.mp ((harena.isPreorder.reached id).mpr ⟨hsize, hid⟩)
  obtain rfl : x = id := hx
  obtain ⟨i, hi⟩ := List.mem_iff_getElem?.mp hmem
  have hlt := harena.lt_size_of_leads hsize hid
  have hblock := harena.block_eq hi
  have hfound : t.findDescendant? kinds x =
      ((t.block i depth).find? (t.hits kinds)).map Prod.fst := by
    rw [hblock]
    exact harena.findWithin?_eq kinds (Nat.sub_le _ _) (depth + 1)
  have hbelow (d : Nat) : d ∈ (t.block i depth).map Prod.fst ↔ t.IsAncestor x d := by
    rw [hblock]
    exact harena.mem_below_iff
  refine ⟨i, depth, hi, hbelow, fun steps hsteps => ?_, child?_eq harena kinds hlt, hfound, ?_, ?_⟩
  · exact harena.descendant?_eq kinds hlt (by omega) (Nat.sub_le _ _)
  · rw [hblock]
    exact harena.findChild?_eq kinds x (depth + 1)
  · rw [hfound, Option.map_eq_none_iff, List.find?_eq_none]
    simp only [← hbelow, List.forall_mem_map, hits, List.contains_iff_mem]

/-- Steps that add a match below the first child of the root behind one that is a child itself. -/
def lateMatch : List Edit :=
  [.push "program" true 0 9 none, .push "a" true 0 3 (some 0), .push "x" true 4 9 (some 0),
    .push "x" true 0 2 (some 1)]

theorem searches_build?_lateMatch :
    ∃ t, build? [] lateMatch = some t ∧ 0 < t.size ∧ t.Leads 0 0 ∧
      (∃ i depth, t.Searches ["x", "y"] 0 i depth) ∧ t.block 0 0 = [(1, 1), (3, 2), (2, 1)] ∧
      t.findDescendant? ["x", "y"] 0 = some 3 ∧ t.findChild? ["x", "y"] 0 = some 2 := by
  have hbuild : (build? [] lateMatch).isSome = true := rfl
  obtain ⟨t, ht⟩ := Option.isSome_iff_exists.mp hbuild
  have hfound : 0 < t.size ∧ t.block 0 0 = [(1, 1), (3, 2), (2, 1)] ∧
      t.findDescendant? ["x", "y"] 0 = some 3 ∧ t.findChild? ["x", "y"] 0 = some 2 := by
    cases ht
    decide
  exact ⟨t, ht, hfound.1, .refl, searches_build? ht hfound.1 .refl ["x", "y"], hfound.2⟩

end NodeAtlas.SyntaxTree
