import NodeAtlas.Proofs.Syntax.Arena
import NodeAtlas.Syntax.Walk

/-!
Pre-order. The traversal with a stack ends, and it visits what the recursive walk from the first node
visits: every node that children lead to once, at the depth of its number of ancestors.
-/

namespace NodeAtlas.SyntaxTree

/-! ## The recursive walk -/

/-- What holds of a node as soon as it holds of its children holds of every node. -/
theorem IsArena.induct {t : SyntaxTree} (h : t.IsArena) {P : Nat → Prop}
    (hstep : ∀ id, (∀ c ∈ t.children id, P c) → P id) (id : Nat) : P id := by
  -- Children come later in the arena, so there is less of it behind them.
  induction hn : t.size - id using Nat.strong_induction_on generalizing id with
  | _ n ih =>
    refine hstep id fun c hc => ih (t.size - c) ?_ c rfl
    have hparent := h.mem_children.mp hc
    have hlt := h.lt hparent
    have hsize := lt_size_of_parent hparent
    omega

/-- The nodes below a node with their depths, each before its children. -/
def depthFirst (t : SyntaxTree) (depth id : Nat) : List (Nat × Nat) :=
  t.walk (t.size + 1) depth id

section Walk

variable {t : SyntaxTree} (h : t.IsArena)
include h

/-- A walk with more levels than nodes follow does not end early. -/
theorem IsArena.walk_succ {levels depth id : Nat} (hlevels : t.size - id < levels) :
    t.walk (levels + 1) depth id = t.walk levels depth id := by
  induction levels generalizing depth id with
  | zero => omega
  | succ levels ih =>
    rw [walk, walk]
    congr 1
    apply List.flatMap_congr
    intro c hc
    have hparent := h.mem_children.mp hc
    have hlt := h.lt hparent
    have hsize := lt_size_of_parent hparent
    exact ih (by omega)

theorem IsArena.depthFirst_eq (depth id : Nat) :
    t.depthFirst depth id =
      (id, depth) :: (t.children id).flatMap (t.depthFirst (depth + 1)) := by
  rw [depthFirst, walk]
  congr 1
  apply List.flatMap_congr
  intro c hc
  have hparent := h.mem_children.mp hc
  have hlt := h.lt hparent
  have hsize := lt_size_of_parent hparent
  exact (h.walk_succ (by omega)).symm

theorem IsArena.mem_depthFirst_iff {depth id x : Nat} :
    x ∈ (t.depthFirst depth id).map Prod.fst ↔ t.Leads id x := by
  induction id using h.induct generalizing depth with
  | hstep id ih =>
    rw [h.depthFirst_eq, List.map_cons, List.mem_cons, List.map_flatMap, List.mem_flatMap,
      Leads, Relation.ReflTransGen.cases_head_iff, eq_comm]
    refine or_congr Iff.rfl (exists_congr fun c => and_congr_right fun hc => ih c hc)

/-- A walk visits the children of its first node in their order. -/
theorem IsArena.children_sublist (depth id : Nat) :
    (t.children id).Sublist ((t.depthFirst depth id).map Prod.fst) := by
  have hall (cs : List Nat) :
      cs.Sublist (cs.flatMap fun c => (t.depthFirst (depth + 1) c).map Prod.fst) := by
    induction cs with
    | nil => exact .slnil
    | cons c cs ih =>
      rw [List.flatMap_cons, h.depthFirst_eq, List.map_cons, List.cons_append]
      exact (ih.trans (List.sublist_append_right _ _)).cons_cons c
  rw [h.depthFirst_eq, List.map_cons, List.map_flatMap]
  exact (hall (t.children id)).cons id

theorem IsArena.le_depth {depth id : Nat} : ∀ e ∈ t.depthFirst depth id, depth ≤ e.2 := by
  induction id using h.induct generalizing depth with
  | hstep id ih =>
    rw [h.depthFirst_eq, List.forall_mem_cons]
    refine ⟨Nat.le_refl depth, fun e he => ?_⟩
    obtain ⟨c, hc, hec⟩ := List.mem_flatMap.mp he
    exact Nat.le_of_succ_le (ih c hc e hec)

theorem IsArena.nodup_depthFirst (depth id : Nat) :
    ((t.depthFirst depth id).map Prod.fst).Nodup := by
  induction id using h.induct generalizing depth with
  | hstep id ih =>
    rw [h.depthFirst_eq, List.map_cons, List.map_flatMap, List.nodup_cons, List.nodup_flatMap]
    refine ⟨?_, fun c hc => ih c hc (depth + 1), ?_⟩
    · intro hmem
      obtain ⟨c, hc, hid⟩ := List.mem_flatMap.mp hmem
      have hle := h.le_of_leads (h.mem_depthFirst_iff.mp hid)
      have hlt := h.lt (h.mem_children.mp hc)
      omega
    · refine (h.increasing id).imp_of_mem ?_
      intro c d hc hd hlt x hx hx'
      exact h.not_leads_of_sibling hc hd (Nat.ne_of_lt hlt) (h.mem_depthFirst_iff.mp hx)
        (h.mem_depthFirst_iff.mp hx')

end Walk

/-! ## The stack -/

/-- The traversal takes the first entry of the stack, visits it and puts its children in its place,
until the stack is empty. The second list is what it visits. -/
inductive Visits (t : SyntaxTree) : List (Nat × Nat) → List (Nat × Nat) → Prop where
  | done : t.Visits [] []
  | next {id depth : Nat} {stack order : List (Nat × Nat)}
      (h : t.Visits ((t.children id).map (·, depth + 1) ++ stack) order) :
      t.Visits ((id, depth) :: stack) ((id, depth) :: order)

/-- A traversal that ends is done in as many steps as it visits nodes. -/
theorem Visits.visit_eq {t : SyntaxTree} {stack order : List (Nat × Nat)} (h : t.Visits stack order)
    {steps : Nat} (hsteps : order.length ≤ steps) : t.visit steps stack = order := by
  induction h generalizing steps with
  | done => cases steps <;> rfl
  | next _ ih =>
    cases steps with
    | zero => simp at hsteps
    | succ steps => rw [visit, ih (Nat.le_of_succ_le_succ hsteps)]

/-- What goes over from a node to its children holds of all that is visited, when it holds of the
stack. -/
theorem forall_mem_visit {t : SyntaxTree} {P : Nat → Nat → Prop}
    (hstep : ∀ id depth, P id depth → ∀ c ∈ t.children id, P c (depth + 1)) {steps : Nat}
    {stack : List (Nat × Nat)} (hstack : ∀ e ∈ stack, P e.1 e.2) :
    ∀ e ∈ t.visit steps stack, P e.1 e.2 := by
  induction steps generalizing stack with
  | zero => simp [visit]
  | succ steps ih =>
    cases stack with
    | nil => simp [visit]
    | cons e stack =>
      obtain ⟨hfirst, hrest⟩ := List.forall_mem_cons.mp hstack
      refine List.forall_mem_cons.mpr ⟨hfirst, ih (List.forall_mem_append.mpr ⟨?_, hrest⟩)⟩
      exact List.forall_mem_map.mpr (hstep e.1 e.2 hfirst)

theorem forall_mem_preorder {t : SyntaxTree} {P : Nat → Nat → Prop}
    (hstep : ∀ id depth, P id depth → ∀ c ∈ t.children id, P c (depth + 1)) (hroot : P 0 0) :
    ∀ e ∈ t.preorder, P e.1 e.2 := by
  unfold preorder
  split
  · simp
  · exact forall_mem_visit hstep (List.forall_mem_singleton.mpr hroot)

theorem size_pos_of_preorder {t : SyntaxTree} {i : Nat} {e : Nat × Nat}
    (hi : t.preorder[i]? = some e) : 0 < t.size := by
  refine Nat.pos_of_ne_zero fun hzero => ?_
  simp [preorder, hzero] at hi

section Stack

variable {t : SyntaxTree} (h : t.IsArena)
include h

/-- A stack is visited as the walks from its entries, one after another. -/
theorem IsArena.visits (stack : List (Nat × Nat)) :
    t.Visits stack (stack.flatMap fun e => t.depthFirst e.2 e.1) := by
  -- Every step takes one node off what is left to visit.
  induction hn : (stack.flatMap fun e => t.depthFirst e.2 e.1).length generalizing stack with
  | zero =>
    cases stack with
    | nil => exact .done
    | cons e stack =>
      rw [List.flatMap_cons, h.depthFirst_eq, List.cons_append, List.length_cons] at hn
      omega
  | succ n ih =>
    cases stack with
    | nil => cases hn
    | cons e stack =>
      have hsplit : ((e :: stack).flatMap fun e => t.depthFirst e.2 e.1) =
          e :: (((t.children e.1).map (·, e.2 + 1) ++ stack).flatMap fun e =>
            t.depthFirst e.2 e.1) := by
        rw [List.flatMap_cons, h.depthFirst_eq, List.flatMap_append, List.flatMap_map]
        rfl
      rw [hsplit] at hn ⊢
      exact .next (ih _ (Nat.succ.inj hn))

theorem IsArena.length_depthFirst_le (depth : Nat) {id : Nat} (hid : id < t.size) :
    (t.depthFirst depth id).length ≤ t.size := by
  have hlt : ∀ x ∈ (t.depthFirst depth id).map Prod.fst, x ∈ List.range t.size :=
    fun x hx => List.mem_range.mpr (h.lt_size_of_leads hid (h.mem_depthFirst_iff.mp hx))
  have hle := (List.subperm_of_subset (h.nodup_depthFirst depth id) hlt).length_le
  rwa [List.length_map, List.length_range] at hle

theorem IsArena.visits_depthFirst : t.Visits [(0, 0)] (t.depthFirst 0 0) := by
  have hvisits := h.visits [(0, 0)]
  rwa [List.flatMap_singleton] at hvisits

theorem IsArena.preorder_eq (hsize : 0 < t.size) : t.preorder = t.depthFirst 0 0 := by
  rw [preorder, if_neg (Nat.ne_of_gt hsize),
    h.visits_depthFirst.visit_eq (h.length_depthFirst_le 0 hsize)]

theorem IsArena.preorder_zero (hsize : 0 < t.size) : t.preorder[0]? = some (0, 0) := by
  rw [h.preorder_eq hsize, h.depthFirst_eq]
  rfl

theorem IsArena.depth_eq {id depth : Nat} (hmem : (id, depth) ∈ t.preorder) :
    depth = {a | t.IsAncestor a id}.ncard := by
  refine forall_mem_preorder (P := fun id depth => depth = {a | t.IsAncestor a id}.ncard) ?_
    h.ncard_ancestors_zero.symm _ hmem
  intro id depth hdepth c hc
  rw [h.ncard_ancestors (h.mem_children.mp hc), hdepth]

end Stack

/-! ## Blocks -/

theorem Visits.unique {t : SyntaxTree} {stack order order' : List (Nat × Nat)}
    (h : t.Visits stack order) (h' : t.Visits stack order') : order = order' := by
  rw [← h.visit_eq (Nat.le_max_left order.length order'.length),
    h'.visit_eq (Nat.le_max_right order.length order'.length)]

/-- No entry of a stack is deeper than one before it. -/
def Rises (stack : List (Nat × Nat)) : Prop := stack.Pairwise fun a b => b.2 ≤ a.2

theorem Rises.next {t : SyntaxTree} {id depth : Nat} {stack : List (Nat × Nat)}
    (h : Rises ((id, depth) :: stack)) :
    Rises ((t.children id).map (·, depth + 1) ++ stack) := by
  obtain ⟨hfirst, hstack⟩ := List.pairwise_cons.mp h
  refine List.pairwise_append.mpr ⟨?_, hstack, ?_⟩
  · rw [List.pairwise_map]
    exact List.pairwise_of_forall fun _ _ => Nat.le_refl _
  · rw [List.forall_mem_map]
    exact fun _ _ e he => Nat.le_succ_of_le (hfirst e he)

/-- When a node is visited it is the first entry of the stack. -/
theorem Visits.drop {t : SyntaxTree} {stack order : List (Nat × Nat)} (h : t.Visits stack order)
    (hstack : Rises stack) {i : Nat} {e : Nat × Nat} (he : order[i]? = some e) :
    ∃ rest, t.Visits (e :: rest) (order.drop i) ∧ Rises (e :: rest) := by
  induction h generalizing i with
  | done => cases he
  | @next id depth stack order h ih =>
    cases i with
    | zero =>
      cases he
      exact ⟨stack, .next h, hstack⟩
    | succ i => exact ih hstack.next he

/-- From a node on, the traversal goes as the walk from the node and then to a node that is not
deeper. -/
theorem IsArena.drop_preorder {t : SyntaxTree} (h : t.IsArena) {i id depth : Nat}
    (hi : t.preorder[i]? = some (id, depth)) :
    ∃ rest, t.preorder.drop i = t.depthFirst depth id ++ rest ∧
      ∀ e ∈ rest.head?, e.2 ≤ depth := by
  have hsize := size_pos_of_preorder hi
  have hvisits := h.visits_depthFirst
  rw [← h.preorder_eq hsize] at hvisits
  obtain ⟨rest, hdrop, hrises⟩ := hvisits.drop (List.pairwise_singleton _ _) hi
  refine ⟨rest.flatMap fun e => t.depthFirst e.2 e.1, hdrop.unique (h.visits _), ?_⟩
  intro e he
  cases rest with
  | nil => cases he
  | cons first rest =>
    rw [List.flatMap_cons, h.depthFirst_eq] at he
    cases he
    exact (List.pairwise_cons.mp hrises).1 first List.mem_cons_self

/-- Right behind a node come the nodes below it, which are deeper, and then a node that is not. -/
theorem IsArena.drop_succ_preorder {t : SyntaxTree} (h : t.IsArena) {i id depth : Nat}
    (hi : t.preorder[i]? = some (id, depth)) :
    ∃ below rest, t.preorder.drop (i + 1) = below ++ rest ∧
      (∀ x, x ∈ below.map Prod.fst ↔ t.IsAncestor id x) ∧ (∀ e ∈ below, depth < e.2) ∧
      ∀ e ∈ rest.head?, e.2 ≤ depth := by
  obtain ⟨rest, hdrop, hrest⟩ := h.drop_preorder hi
  refine ⟨(t.children id).flatMap (t.depthFirst (depth + 1)), rest, ?_, fun x => ?_,
    fun e he => ?_, hrest⟩
  · rw [← List.drop_drop, hdrop, h.depthFirst_eq]
    rfl
  · rw [List.map_flatMap, List.mem_flatMap, IsAncestor, Relation.TransGen.head'_iff]
    refine exists_congr fun c => and_congr h.mem_children ?_
    rw [h.mem_depthFirst_iff, h.leads_iff]
  · obtain ⟨c, -, hec⟩ := List.mem_flatMap.mp he
    exact h.le_depth e hec

/-- A list of nodes with depths is the pre-order of a tree. -/
structure IsPreorder (t : SyntaxTree) (order : List (Nat × Nat)) : Prop where
  /-- The traversal ends. -/
  visits : 0 < t.size → t.Visits [(0, 0)] order
  /-- It goes as the recursive walk goes. -/
  depthFirst : 0 < t.size → order = t.depthFirst 0 0
  once : (order.map Prod.fst).Nodup
  reached : ∀ id, id ∈ order.map Prod.fst ↔ 0 < t.size ∧ t.Leads 0 id
  depth : ∀ id depth, (id, depth) ∈ order → depth = {a | t.IsAncestor a id}.ncard

theorem IsArena.isPreorder {t : SyntaxTree} (h : t.IsArena) : t.IsPreorder t.preorder where
  visits hsize := by
    rw [h.preorder_eq hsize]
    exact h.visits_depthFirst
  depthFirst := h.preorder_eq
  once := by
    rcases Nat.eq_zero_or_pos t.size with hsize | hsize
    · simp [preorder, hsize]
    · rw [h.preorder_eq hsize]
      exact h.nodup_depthFirst 0 0
  reached id := by
    rcases Nat.eq_zero_or_pos t.size with hsize | hsize
    · simp [preorder, hsize]
    · rw [h.preorder_eq hsize, h.mem_depthFirst_iff, and_iff_right hsize]
  depth _ _ := h.depth_eq

/-- A change of one node leaves the others, and the text, as they are. -/
def ChangesOnly (t t' : SyntaxTree) (id : Nat) (f : SyntaxNode → SyntaxNode) : Prop :=
  t'.text = t.text ∧ ∀ j, t'.node? j = if j = id then (t.node? j).map f else t.node? j

/-- However a tree was made, its links are in step, and its traversal is the recursive walk. -/
theorem links_build? {text : List Char} {edits : List Edit} {t : SyntaxTree}
    (h : build? text edits = some t) :
    t.IsArena ∧
    (∀ id stop, t.ChangesOnly (t.setStop id stop) id fun n => { n with stop := stop }) ∧
    (∀ id kind named, t.ChangesOnly (t.retag id kind named) id
      fun n => { n with kind := kind, named := named }) ∧
    (∀ depth id, t.depthFirst depth id =
      (id, depth) :: (t.children id).flatMap (t.depthFirst (depth + 1))) ∧
    t.IsPreorder t.preorder := by
  have harena := isArena_build? h
  exact ⟨harena, fun id stop => ⟨rfl, node?_setStop t id stop⟩,
    fun id kind named => ⟨rfl, node?_retag t id kind named⟩, harena.depthFirst_eq,
    harena.isPreorder⟩

/-- Steps that add a second node without a parent, and a grandchild behind a later child. -/
def outOfOrder : List Edit :=
  [.push "program" true 0 9 none, .push "a" true 0 3 (some 0), .push "stray" true 0 0 none,
    .push "b" true 4 9 (some 0), .push "c" true 0 0 (some 1), .setStop 4 2, .retag 3 "ERROR" true]

theorem links_build?_outOfOrder :
    ∃ t, build? [] outOfOrder = some t ∧ t.IsArena ∧ t.size = 5 ∧
      t.preorder = [(0, 0), (1, 1), (4, 2), (3, 1)] ∧ ¬ t.Leads 0 2 ∧
      {a | t.IsAncestor a 4}.ncard = 2 := by
  have hbuild : (build? [] outOfOrder).isSome = true := rfl
  obtain ⟨t, ht⟩ := Option.isSome_iff_exists.mp hbuild
  have horder : t.size = 5 ∧ t.preorder = [(0, 0), (1, 1), (4, 2), (3, 1)] := by
    cases ht
    decide
  obtain ⟨harena, -, -, -, hpre⟩ := links_build? ht
  obtain ⟨hsize, horder⟩ := horder
  refine ⟨t, ht, harena, hsize, horder, fun hlead => ?_, ?_⟩
  · have hmem := (hpre.reached 2).mpr ⟨by omega, hlead⟩
    rw [horder] at hmem
    revert hmem
    decide
  · exact (hpre.depth 4 2 (by rw [horder]; decide)).symm

end NodeAtlas.SyntaxTree
