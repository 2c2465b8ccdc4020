import NodeAtlas.Json.Tree
import NodeAtlas.Syntax.Walk

/-!
Where the nodes of a tree stand in the arena. A laid out tree takes up a block of ids: its root comes
first and the blocks of its children follow in order, so the ids of a block count its nodes in
pre-order.
-/

namespace NodeAtlas.Json.Tree

/-- What holds of a tree as soon as it holds of its children holds of every tree. -/
theorem induct {P : Tree → Prop} (hnode : ∀ k s e ts, (∀ u ∈ ts, P u) → P (node k s e ts)) :
    ∀ u, P u
  | node k s e ts => hnode k s e ts fun u _ => induct hnode u

mutual

/-- The number of nodes. -/
def count : Tree → Nat
  | node _ _ _ ts => 1 + countAll ts

def countAll : List Tree → Nat
  | [] => 0
  | u :: us => count u + countAll us

end

/-- The ids of the roots of trees that are laid out one after another. -/
def rootIds (id : Nat) : List Tree → List Nat
  | [] => []
  | u :: us => id :: rootIds (id + u.count) us

mutual

/-- The block of a tree. -/
def block (parent : Option Nat) (id : Nat) : Tree → List SyntaxNode
  | node k s e ts =>
    ⟨k.label, k.named, s, e, parent, rootIds (id + 1) ts⟩ :: blocks id (id + 1) ts

def blocks (parent id : Nat) : List Tree → List SyntaxNode
  | [] => []
  | u :: us => block (some parent) id u ++ blocks parent (id + u.count) us

end

theorem rootIds_append (id : Nat) (us vs : List Tree) :
    rootIds id (us ++ vs) = rootIds id us ++ rootIds (id + countAll us) vs := by
  induction us generalizing id with
  | nil => rfl
  | cons u us ih =>
    rw [List.cons_append, rootIds, rootIds, ih, countAll, Nat.add_assoc, List.cons_append]

theorem count_pos (u : Tree) : 0 < u.count := by
  cases u
  simp only [count]
  omega

theorem length_blocks {us : List Tree}
    (h : ∀ u ∈ us, ∀ parent id, (block parent id u).length = u.count) (parent id : Nat) :
    (blocks parent id us).length = countAll us := by
  induction us generalizing id with
  | nil => rfl
  | cons u us ih =>
    simp only [blocks, countAll, List.length_append]
    rw [h u List.mem_cons_self, ih fun v hv => h v (List.mem_cons_of_mem u hv)]

theorem length_block (u : Tree) : ∀ parent id, (block parent id u).length = u.count := by
  induction u using induct with
  | hnode k s e ts ih =>
    intro parent id
    simp only [block, count, List.length_cons, length_blocks ih]
    omega

/-- The arena after so many ids became the last children of a node. -/
def adopt (parent : Option Nat) (ids : List Nat) (nodes : List SyntaxNode) : List SyntaxNode :=
  match parent with
  | none => nodes
  | some p => nodes.modify p fun n => { n with children := n.children ++ ids }

@[simp] theorem length_adopt (parent : Option Nat) (ids : List Nat) (nodes : List SyntaxNode) :
    (adopt parent ids nodes).length = nodes.length := by
  cases parent <;> simp [adopt]

theorem adopt_nil (parent : Option Nat) (nodes : List SyntaxNode) :
    adopt parent [] nodes = nodes := by
  cases parent with
  | none => rfl
  | some p =>
    simp only [adopt, List.append_nil]
    exact List.modify_id p nodes

theorem adopt_append {p : Nat} {nodes : List SyntaxNode} (hp : p < nodes.length) (ids : List Nat)
    (more : List SyntaxNode) :
    adopt (some p) ids (nodes ++ more) = adopt (some p) ids nodes ++ more := by
  apply List.ext_getElem?
  intro i
  simp only [adopt]
  by_cases hi : i < nodes.length
  · rw [List.getElem?_modify, List.getElem?_append_left hi,
      List.getElem?_append_left (by simpa using hi), List.getElem?_modify]
  · have hne : p ≠ i := by omega
    have hle : nodes.length ≤ i := Nat.le_of_not_lt hi
    rw [List.getElem?_modify_ne _ _ hne, List.getElem?_append_right hle,
      List.getElem?_append_right (by simpa using hle), List.length_modify]

theorem adopt_adopt (p : Nat) (ids ids' : List Nat) (nodes : List SyntaxNode) :
    adopt (some p) ids' (adopt (some p) ids nodes) = adopt (some p) (ids ++ ids') nodes := by
  simp only [adopt, List.modify_modify_eq]
  congr 1
  funext n
  simp

theorem adopt_last {p : Nat} {nodes : List SyntaxNode} (hp : p = nodes.length) (ids : List Nat)
    (n : SyntaxNode) : adopt (some p) ids (nodes ++ [n]) =
      nodes ++ [{ n with children := n.children ++ ids }] := by
  subst hp
  have h := List.modifyTailIdx_add (List.modifyHead fun n : SyntaxNode =>
    { n with children := n.children ++ ids }) 0 nodes [n]
  simpa [adopt, List.modify] using h

theorem toList_push (t : SyntaxTree) (kind : String) (named : Bool) (start stop : Nat)
    {parent : Option Nat} (hp : ∀ p, parent = some p → p < t.size) :
    (t.push kind named start stop parent).nodes.toList =
      adopt parent [t.size] t.nodes.toList ++ [⟨kind, named, start, stop, parent, []⟩] := by
  cases parent with
  | none => simp [SyntaxTree.push, adopt]
  | some p =>
    rw [← adopt_append (by simpa [SyntaxTree.size] using hp p rfl)]
    simp [SyntaxTree.push, SyntaxTree.modify, adopt]

/-- Placing trees one after another adds their blocks and makes their roots children. -/
theorem toList_placeAll {us : List Tree} {p : Nat}
    (h : ∀ u ∈ us, ∀ t : SyntaxTree, p < t.size → (place (some p) t u).nodes.toList =
      adopt (some p) [t.size] t.nodes.toList ++ block (some p) t.size u)
    (t : SyntaxTree) (hp : p < t.size) :
    (placeAll p t us).nodes.toList =
      adopt (some p) (rootIds t.size us) t.nodes.toList ++ blocks p t.size us := by
  induction us generalizing t with
  | nil => simp [placeAll, rootIds, blocks, adopt_nil]
  | cons u us ih =>
    have hu := h u List.mem_cons_self t hp
    have hsize : (place (some p) t u).size = t.size + u.count := by
      have := congrArg List.length hu
      simpa [SyntaxTree.size, length_block] using this
    rw [placeAll, ih (fun v hv => h v (List.mem_cons_of_mem u hv)) _ (by omega), hu, hsize,
      adopt_append (by simpa [SyntaxTree.size] using hp), adopt_adopt]
    simp [rootIds, blocks]

theorem toList_place (u : Tree) : ∀ (parent : Option Nat) (t : SyntaxTree),
    (∀ p, parent = some p → p < t.size) → (place parent t u).nodes.toList =
      adopt parent [t.size] t.nodes.toList ++ block parent t.size u := by
  induction u using induct with
  | hnode k s e ts ih =>
    intro parent t hp
    -- The node comes last in the arena, so what is placed below it only adds to its children.
    have hall := toList_placeAll (p := t.size)
      (fun u hu t' ht' => ih u hu (some t.size) t' (by simpa using ht'))
      (t.push k.label k.named s e parent) (by simp)
    have hlen : t.size = (adopt parent [t.size] t.nodes.toList).length := by
      simp [SyntaxTree.size]
    rw [place, hall, toList_push _ _ _ _ _ hp, SyntaxTree.size_push, adopt_last hlen]
    simp [block]

theorem text_placeAll {us : List Tree}
    (h : ∀ u ∈ us, ∀ (parent : Option Nat) (t : SyntaxTree), (place parent t u).text = t.text)
    (p : Nat) (t : SyntaxTree) : (placeAll p t us).text = t.text := by
  induction us generalizing t with
  | nil => rfl
  | cons u us ih =>
    rw [placeAll, ih fun v hv => h v (List.mem_cons_of_mem u hv), h u List.mem_cons_self]

theorem text_place (u : Tree) : ∀ (parent : Option Nat) (t : SyntaxTree),
    (place parent t u).text = t.text := by
  induction u using induct with
  | hnode k s e ts ih =>
    intro parent t
    have hpush : (t.push k.label k.named s e parent).text = t.text := by
      cases parent <;> rfl
    rw [place, text_placeAll ih, hpush]

mutual

/-- A tree stands in the arena from an id on. -/
def Holds (t : SyntaxTree) (parent : Option Nat) (id : Nat) : Tree → Prop
  | node k s e ts =>
    t.node? id = some ⟨k.label, k.named, s, e, parent, rootIds (id + 1) ts⟩ ∧
      HoldsAll t id (id + 1) ts

def HoldsAll (t : SyntaxTree) (parent id : Nat) : List Tree → Prop
  | [] => True
  | u :: us => Holds t (some parent) id u ∧ HoldsAll t parent (id + u.count) us

end

theorem HoldsAll.front {t : SyntaxTree} {p id : Nat} {us vs : List Tree} (h : HoldsAll t p id (us ++ vs)) :
    HoldsAll t p id us := by
  induction us generalizing id with
  | nil => trivial
  | cons u us ih => exact ⟨h.1, ih h.2⟩

theorem holdsAll_of_blocks {t : SyntaxTree} {us : List Tree} {p : Nat}
    (h : ∀ u ∈ us, ∀ front rest, t.nodes.toList = front ++ block (some p) front.length u ++ rest →
      Holds t (some p) front.length u) (front rest : List SyntaxNode)
    (ht : t.nodes.toList = front ++ blocks p front.length us ++ rest) :
    HoldsAll t p front.length us := by
  induction us generalizing front with
  | nil => trivial
  | cons u us ih =>
    have hu := h u List.mem_cons_self front (blocks p (front.length + u.count) us ++ rest)
      (by simpa [blocks] using ht)
    have hlen : (front ++ block (some p) front.length u).length = front.length + u.count := by
      rw [List.length_append, length_block]
    have hus := ih (fun v hv => h v (List.mem_cons_of_mem u hv))
      (front ++ block (some p) front.length u) (by rw [hlen]; simpa [blocks] using ht)
    rw [hlen] at hus
    exact ⟨hu, hus⟩

theorem holds_of_block {t : SyntaxTree} (u : Tree) : ∀ parent front rest,
    t.nodes.toList = front ++ block parent front.length u ++ rest →
      Holds t parent front.length u := by
  induction u using induct with
  | hnode k s e ts ih =>
    intro parent front rest ht
    constructor
    · rw [SyntaxTree.node?, ← Array.getElem?_toList, ht]
      simp [block]
    · have hlen (n : SyntaxNode) : front.length + 1 = (front ++ [n]).length := by simp
      rw [hlen ⟨k.label, k.named, s, e, parent, rootIds (front.length + 1) ts⟩]
      apply holdsAll_of_blocks (fun u hu front' rest' => ih u hu _ front' rest') _ rest
      simpa [block] using ht

/-- A tree that is placed into an empty arena stands there from the first id on. -/
theorem holds_place (u : Tree) (text : List Char) : Holds (place none ⟨text, #[]⟩ u) none 0 u := by
  apply holds_of_block u none [] []
  simpa [adopt, SyntaxTree.size] using toList_place u none ⟨text, #[]⟩ (by simp)

theorem size_place (u : Tree) (text : List Char) : (place none ⟨text, #[]⟩ u).size = u.count := by
  have h := congrArg List.length (toList_place u none ⟨text, #[]⟩ (by simp))
  simpa [adopt, SyntaxTree.size, length_block] using h

theorem Holds.children_eq {t : SyntaxTree} {parent : Option Nat} {id : Nat} {u : Tree}
    (h : Holds t parent id u) : t.children id = rootIds (id + 1) u.children := by
  cases u
  simp [SyntaxTree.children, h.1, children]

theorem Holds.kind_eq {t : SyntaxTree} {parent : Option Nat} {id : Nat} {u : Tree}
    (h : Holds t parent id u) : t.kind id = u.kind.label := by
  cases u
  simp [SyntaxTree.kind, h.1, kind]

theorem Holds.named_eq {t : SyntaxTree} {parent : Option Nat} {id : Nat} {u : Tree}
    (h : Holds t parent id u) : t.named id = u.kind.named := by
  cases u
  simp [SyntaxTree.named, h.1, kind]

/-! ## Traversal -/

theorem map_visit_all {t : SyntaxTree} {us : List Tree}
    (h : ∀ u ∈ us, ∀ parent id depth steps stack, Holds t parent id u →
      (t.visit (u.count + steps) ((id, depth) :: stack)).map Prod.fst =
        List.range' id u.count ++ (t.visit steps stack).map Prod.fst)
    (p id depth steps : Nat) (stack : List (Nat × Nat)) (ht : HoldsAll t p id us) :
    (t.visit (countAll us + steps) ((rootIds id us).map (·, depth) ++ stack)).map Prod.fst =
      List.range' id (countAll us) ++ (t.visit steps stack).map Prod.fst := by
  induction us generalizing id with
  | nil => simp [countAll, rootIds]
  | cons u us ih =>
    have hu := h u List.mem_cons_self (some p) id depth (countAll us + steps)
      ((rootIds (id + u.count) us).map (·, depth) ++ stack) ht.1
    have hus := ih (fun v hv => h v (List.mem_cons_of_mem u hv)) (id + u.count) ht.2
    simp only [countAll, rootIds, List.map_cons, List.cons_append, Nat.add_assoc]
    rw [hu, hus, ← List.append_assoc, List.range'_append_1]

/-- The traversal meets the ids of a block in their order and then goes on. -/
theorem map_visit {t : SyntaxTree} (u : Tree) : ∀ parent id depth steps stack,
    Holds t parent id u → (t.visit (u.count + steps) ((id, depth) :: stack)).map Prod.fst =
      List.range' id u.count ++ (t.visit steps stack).map Prod.fst := by
  induction u using induct with
  | hnode k s e ts ih =>
    intro parent id depth steps stack ht
    have hall := map_visit_all ih id (id + 1) (depth + 1) steps stack ht.2
    have hsteps : 1 + countAll ts + steps = (countAll ts + steps) + 1 := by omega
    rw [count, hsteps, SyntaxTree.visit, ht.children_eq, List.map_cons, children, hall,
      Nat.add_comm 1, List.range'_succ, List.cons_append]

/-- Node ids are the positions in pre-order. -/
theorem map_preorder_place (u : Tree) (text : List Char) :
    ((place none ⟨text, #[]⟩ u).preorder).map Prod.fst = List.range u.count := by
  have h := map_visit u none 0 0 0 [] (holds_place u text)
  have hpos := u.count_pos
  rw [SyntaxTree.preorder, size_place, if_neg (by omega)]
  simpa [SyntaxTree.visit, List.range_eq_range'] using h

/-! ## The trees below a tree -/

/-- A tree is within itself and within every tree that one of its ancestors is a child of. -/
inductive Within : Tree → Tree → Prop where
  | self (u : Tree) : Within u u
  | child {v w u : Tree} (hv : v ∈ w.children) (hw : Within w u) : Within v u

theorem Within.trans {u v w : Tree} (hu : u.Within v) (hv : v.Within w) : u.Within w := by
  induction hu with
  | self => exact hv
  | child hx _ ih => exact .child hx (ih hv)

theorem exists_holds_child {t : SyntaxTree} {us : List Tree} {p id j : Nat}
    (h : HoldsAll t p id us) (hid : id ≤ j) (hj : j < id + countAll us) :
    ∃ u ∈ us, ∃ i, Holds t (some p) i u ∧ i ≤ j ∧ j < i + u.count := by
  induction us generalizing id with
  | nil =>
    simp only [countAll] at hj
    omega
  | cons u us ih =>
    by_cases hlt : j < id + u.count
    · exact ⟨u, List.mem_cons_self, id, h.1, hid, hlt⟩
    · simp only [countAll] at hj
      obtain ⟨v, hv, hi⟩ := ih h.2 (by omega) (by omega)
      exact ⟨v, List.mem_cons_of_mem u hv, hi⟩

/-- Every id of a block but the first belongs to a tree within, and its parent to the tree of which
that one is a child. -/
theorem exists_within {t : SyntaxTree} (u : Tree) : ∀ {parent : Option Nat} {id j : Nat},
    Holds t parent id u → id < j → j < id + u.count →
      ∃ v w gp q, v ∈ w.children ∧ w.Within u ∧ Holds t gp q w ∧ Holds t (some q) j v ∧ q < j := by
  induction u using induct with
  | hnode k s e ts ih =>
    intro parent id j ht hid hj
    obtain ⟨c, hc, i, hci, hij, hjc⟩ := exists_holds_child ht.2 (j := j) (by omega) (by
      simp only [count] at hj
      omega)
    rcases Nat.eq_or_lt_of_le hij with rfl | hlt
    · exact ⟨c, node k s e ts, parent, id, hc, .self _, ht, hci, hid⟩
    · obtain ⟨v, w, gp, q, hv, hw, hrest⟩ := ih c hc hci hlt hjc
      have hcn : c.Within (node k s e ts) := .child (w := node k s e ts) hc (.self _)
      exact ⟨v, w, gp, q, hv, hw.trans hcn, hrest⟩

theorem exists_holds_of_mem {t : SyntaxTree} {us : List Tree} {p id : Nat}
    (h : HoldsAll t p id us) {u : Tree} (hu : u ∈ us) :
    ∃ i, id ≤ i ∧ Holds t (some p) i u := by
  induction us generalizing id with
  | nil => cases hu
  | cons v us ih =>
    rcases List.mem_cons.mp hu with rfl | hmem
    · exact ⟨id, Nat.le_refl id, h.1⟩
    · obtain ⟨i, hi, hold⟩ := ih h.2 hmem
      exact ⟨i, by omega, hold⟩

/-- Every tree within a tree that stands in the arena stands there too. -/
theorem Holds.exists_of_within {t : SyntaxTree} {parent : Option Nat} {id : Nat} {u v : Tree}
    (h : Holds t parent id u) (hv : v.Within u) : ∃ gp i, id ≤ i ∧ Holds t gp i v := by
  induction hv with
  | self => exact ⟨parent, id, Nat.le_refl id, h⟩
  | @child v w u hvw _ ih =>
    obtain ⟨gp, i, hi, hw⟩ := ih h
    cases w
    obtain ⟨j, hj, hold⟩ := exists_holds_of_mem hw.2 hvw
    exact ⟨some i, j, by omega, hold⟩

end NodeAtlas.Json.Tree
