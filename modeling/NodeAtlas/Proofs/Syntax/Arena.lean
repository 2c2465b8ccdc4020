import Mathlib.Data.Set.Card
import Mathlib.Logic.Relation
import NodeAtlas.Syntax.Tree

/-!
The arena of a syntax tree. However a tree was made, the children that a node lists are the nodes
that name it as their parent, in the order in which they were added.
-/

namespace NodeAtlas.SyntaxTree

/-! ## Steps -/

/-- A step by which a tree is made. -/
inductive Edit where
  | push (kind : String) (named : Bool) (start stop : Nat) (parent : Option Nat)
  | setStop (id stop : Nat)
  | retag (id : Nat) (kind : String) (named : Bool)
  deriving DecidableEq, Repr

/-- The tree after a step; there is none when the step is about a node that is not there. -/
def edit? (t : SyntaxTree) : Edit → Option SyntaxTree
  | .push kind named start stop parent =>
    if parent.all (· < t.size) then some (t.push kind named start stop parent) else none
  | .setStop id stop => if id < t.size then some (t.setStop id stop) else none
  | .retag id kind named => if id < t.size then some (t.retag id kind named) else none

/-- The tree that some steps make of a text. -/
def build? (text : List Char) (edits : List Edit) : Option SyntaxTree :=
  edits.foldlM edit? ⟨text, #[]⟩

theorem node?_modify (t : SyntaxTree) (id : Nat) (f : SyntaxNode → SyntaxNode) (j : Nat) :
    (t.modify id f).node? j = if j = id then (t.node? j).map f else t.node? j := by
  simp only [node?, modify, Array.getElem?_modify, eq_comm]

theorem node?_setStop (t : SyntaxTree) (id stop j : Nat) :
    (t.setStop id stop).node? j =
      if j = id then (t.node? j).map fun n => { n with stop := stop } else t.node? j :=
  node?_modify t id _ j

theorem node?_retag (t : SyntaxTree) (id : Nat) (kind : String) (named : Bool) (j : Nat) :
    (t.retag id kind named).node? j =
      if j = id then (t.node? j).map fun n => { n with kind := kind, named := named }
      else t.node? j :=
  node?_modify t id _ j

theorem node?_push (t : SyntaxTree) (kind : String) (named : Bool) (start stop : Nat)
    {parent : Option Nat} (hp : parent.all (· < t.size)) (j : Nat) :
    (t.push kind named start stop parent).node? j =
      if j = t.size then some ⟨kind, named, start, stop, parent, []⟩
      else if parent = some j then
        (t.node? j).map fun n => { n with children := n.children ++ [t.size] }
      else t.node? j := by
  have hadded : ({ t with nodes := t.nodes.push ⟨kind, named, start, stop, parent, []⟩ } :
      SyntaxTree).node? j =
        if j = t.size then some ⟨kind, named, start, stop, parent, []⟩ else t.node? j := by
    simp only [node?, size, Array.getElem?_push]
    rfl
  cases parent with
  | none => simpa [push] using hadded
  | some p =>
    have hlt : p < t.size := by simpa using hp
    rw [push, node?_modify, hadded]
    by_cases hj : j = t.size
    · rw [if_neg (by omega), if_pos hj, if_pos hj]
    · simp only [hj, if_false, Option.some.injEq, eq_comm]

section Links

variable (t : SyntaxTree) (kind : String) (named : Bool) (start stop : Nat) {parent : Option Nat}

theorem parent_push (hp : parent.all (· < t.size)) (j : Nat) :
    (t.push kind named start stop parent).parent j =
      if j = t.size then parent else t.parent j := by
  rw [SyntaxTree.parent, node?_push t kind named start stop hp]
  split
  · rfl
  split
  · cases h : t.node? j <;> simp [SyntaxTree.parent, h]
  · rfl

theorem children_push (hp : parent.all (· < t.size)) (j : Nat) :
    (t.push kind named start stop parent).children j =
      t.children j ++ if parent = some j then [t.size] else [] := by
  have hlt : ∀ p ∈ parent, p < t.size := by simpa [Option.all_eq_true] using hp
  rw [SyntaxTree.children, node?_push t kind named start stop hp]
  by_cases hj : j = t.size
  · have hne : parent ≠ some j := fun hparent => absurd (hlt j hparent) (by omega)
    rw [if_pos hj, if_neg hne, SyntaxTree.children, node?_eq_none (Nat.le_of_eq hj.symm)]
    rfl
  by_cases hparent : parent = some j
  · have hsome : j < t.nodes.size := hlt j hparent
    simp [SyntaxTree.children, hj, hparent, node?, hsome]
  · simp [SyntaxTree.children, hj, hparent]

end Links

/-- A change that keeps the links of a node keeps the links of all nodes. -/
theorem parent_modify (t : SyntaxTree) (id : Nat) {f : SyntaxNode → SyntaxNode}
    (hf : ∀ n, (f n).parent = n.parent) (j : Nat) : (t.modify id f).parent j = t.parent j := by
  rw [SyntaxTree.parent, node?_modify]
  split
  · cases h : t.node? j <;> simp [SyntaxTree.parent, h, hf]
  · rfl

theorem children_modify (t : SyntaxTree) (id : Nat) {f : SyntaxNode → SyntaxNode}
    (hf : ∀ n, (f n).children = n.children) (j : Nat) :
    (t.modify id f).children j = t.children j := by
  rw [SyntaxTree.children, node?_modify]
  split
  · cases h : t.node? j <;> simp [SyntaxTree.children, h, hf]
  · rfl

/-! ## Arenas -/

/-- Parents and children are two views of the same links, which lead to later nodes. -/
structure IsArena (t : SyntaxTree) : Prop where
  mem_children : ∀ {p c}, c ∈ t.children p ↔ t.parent c = some p
  lt : ∀ {p c}, t.parent c = some p → p < c
  increasing : ∀ p, (t.children p).Pairwise (· < ·)

theorem lt_size_of_parent {t : SyntaxTree} {p c : Nat} (h : t.parent c = some p) : c < t.size := by
  obtain ⟨n, hn, -⟩ := Option.bind_eq_some_iff.mp h
  exact lt_size_of_node? hn

theorem isArena_empty (text : List Char) : IsArena ⟨text, #[]⟩ where
  mem_children := by simp [SyntaxTree.children, SyntaxTree.parent, node?]
  lt := by simp [SyntaxTree.parent, node?]
  increasing := by simp [SyntaxTree.children, node?]

theorem IsArena.modify {t : SyntaxTree} (h : t.IsArena) (id : Nat) {f : SyntaxNode → SyntaxNode}
    (hparent : ∀ n, (f n).parent = n.parent) (hchildren : ∀ n, (f n).children = n.children) :
    (t.modify id f).IsArena where
  mem_children := by
    intro p c
    rw [children_modify t id hchildren, parent_modify t id hparent]
    exact h.mem_children
  lt := by
    intro p c
    rw [parent_modify t id hparent]
    exact h.lt
  increasing := by
    intro p
    rw [children_modify t id hchildren]
    exact h.increasing p

theorem IsArena.push {t : SyntaxTree} (h : t.IsArena) (kind : String) (named : Bool)
    (start stop : Nat) {parent : Option Nat} (hp : parent.all (· < t.size)) :
    (t.push kind named start stop parent).IsArena := by
  have hlt : ∀ p ∈ parent, p < t.size := by simpa [Option.all_eq_true] using hp
  -- The new node is no child yet, since nodes that have a parent are in the arena.
  have hold {p c : Nat} (hc : c ∈ t.children p) : c < t.size :=
    lt_size_of_parent (h.mem_children.mp hc)
  constructor
  · intro p c
    rw [children_push t kind named start stop hp, parent_push t kind named start stop hp,
      List.mem_append]
    by_cases hc : c = t.size
    · have hnot : c ∉ t.children p := fun hmem => absurd (hold hmem) (by omega)
      by_cases hparent : parent = some p <;> simp [hc, hparent, hc ▸ hnot]
    · by_cases hparent : parent = some p <;> simp [hc, hparent, h.mem_children]
  · intro p c hc
    rw [parent_push t kind named start stop hp] at hc
    split at hc
    · next heq => exact heq ▸ hlt p hc
    · exact h.lt hc
  · intro p
    rw [children_push t kind named start stop hp, List.pairwise_append]
    refine ⟨h.increasing p, ?_, fun a ha b hb => ?_⟩
    · split <;> simp
    · have hb : b = t.size := by
        split at hb
        · exact List.mem_singleton.mp hb
        · cases hb
      exact hb ▸ hold ha

/-- Every step keeps the links in step. -/
theorem IsArena.edit? {t t' : SyntaxTree} (h : t.IsArena) {e : Edit} (he : t.edit? e = some t') :
    t'.IsArena := by
  cases e with
  | push kind named start stop parent =>
    obtain ⟨hp, he⟩ := Option.ite_none_right_eq_some.mp he
    cases he
    exact h.push kind named start stop hp
  | setStop id stop =>
    obtain ⟨-, he⟩ := Option.ite_none_right_eq_some.mp he
    cases he
    exact h.modify id (fun _ => rfl) fun _ => rfl
  | retag id kind named =>
    obtain ⟨-, he⟩ := Option.ite_none_right_eq_some.mp he
    cases he
    exact h.modify id (fun _ => rfl) fun _ => rfl

theorem IsArena.foldlM {edits : List Edit} {t t' : SyntaxTree} (h : t.IsArena)
    (ht : edits.foldlM SyntaxTree.edit? t = some t') : t'.IsArena := by
  induction edits generalizing t with
  | nil =>
    cases ht
    exact h
  | cons e edits ih =>
    obtain ⟨u, he, hrest⟩ := Option.bind_eq_some_iff.mp ht
    exact ih (h.edit? he) hrest

theorem isArena_build? {text : List Char} {edits : List Edit} {t : SyntaxTree}
    (h : build? text edits = some t) : t.IsArena :=
  (isArena_empty text).foldlM h

/-! ## Ancestors -/

def IsParent (t : SyntaxTree) (p c : Nat) : Prop := t.parent c = some p

/-- A node above another one. -/
def IsAncestor (t : SyntaxTree) : Nat → Nat → Prop := Relation.TransGen t.IsParent

/-- From the first node, going to children leads to the second one. -/
def Leads (t : SyntaxTree) : Nat → Nat → Prop :=
  Relation.ReflTransGen fun p c => c ∈ t.children p

theorem ancestors_eq_insert {t : SyntaxTree} {p c : Nat} (hp : t.IsParent p c) :
    {a | t.IsAncestor a c} = insert p {a | t.IsAncestor a p} := by
  ext a
  rw [Set.mem_insert_iff, Set.mem_ofPred_eq, Set.mem_ofPred_eq, IsAncestor,
    Relation.TransGen.tail'_iff]
  constructor
  · rintro ⟨q, hq, hc⟩
    have hpq : p = q := Option.some.inj (hp.symm.trans hc)
    exact (Relation.reflTransGen_iff_eq_or_transGen.mp (hpq ▸ hq)).imp Eq.symm id
  · intro ha
    exact ⟨p, Relation.reflTransGen_iff_eq_or_transGen.mpr (ha.imp Eq.symm id), hp⟩

section Ancestors

variable {t : SyntaxTree} (h : t.IsArena)
include h

theorem IsArena.leads_iff {a x : Nat} :
    t.Leads a x ↔ Relation.ReflTransGen t.IsParent a x := by
  have hlink : (fun p c => c ∈ t.children p) = t.IsParent := by
    funext p c
    exact propext h.mem_children
  rw [Leads, hlink]

theorem IsArena.parent_zero : t.parent 0 = none := by
  cases hp : t.parent 0 with
  | none => rfl
  | some p => exact absurd (h.lt hp) (Nat.not_lt_zero p)

theorem IsArena.lt_of_isAncestor {a x : Nat} (hax : t.IsAncestor a x) : a < x := by
  induction hax with
  | single hp => exact h.lt hp
  | tail _ hp ih => exact Nat.lt_trans ih (h.lt hp)

theorem IsArena.le_of_leads {a x : Nat} (hax : t.Leads a x) : a ≤ x := by
  rcases Relation.reflTransGen_iff_eq_or_transGen.mp (h.leads_iff.mp hax) with rfl | hanc
  · exact Nat.le_refl x
  · exact Nat.le_of_lt (h.lt_of_isAncestor hanc)

theorem IsArena.lt_size_of_leads {a x : Nat} (ha : a < t.size) (hax : t.Leads a x) :
    x < t.size := by
  rcases Relation.ReflTransGen.cases_tail_iff _ _ _ |>.mp hax with rfl | ⟨p, -, hp⟩
  · exact ha
  · exact lt_size_of_parent (h.mem_children.mp hp)

/-- Of two nodes above a third one is above the other. -/
theorem IsArena.leads_total {a b x : Nat} (ha : t.Leads a x) (hb : t.Leads b x) :
    t.Leads a b ∨ t.Leads b a := by
  -- Going up from a node there is only one way.
  have hunique : Relator.RightUnique (Function.swap t.IsParent) := by
    intro c p q hp hq
    exact Option.some.inj (hp.symm.trans hq)
  rw [h.leads_iff, ← Relation.reflTransGen_swap] at ha hb
  rcases Relation.ReflTransGen.total_of_right_unique hunique ha hb with hab | hba
  · exact .inr (h.leads_iff.mpr (Relation.reflTransGen_swap.mp hab))
  · exact .inl (h.leads_iff.mpr (Relation.reflTransGen_swap.mp hba))

/-- What is below one child is not below another. -/
theorem IsArena.not_leads_of_sibling {p c d x : Nat} (hc : c ∈ t.children p)
    (hd : d ∈ t.children p) (hne : c ≠ d) (hx : t.Leads c x) : ¬ t.Leads d x := by
  -- A child that leads to another would lead to its own parent.
  have hnot {a b : Nat} (ha : a ∈ t.children p) (hb : b ∈ t.children p) (hab : a ≠ b) :
      ¬ t.Leads a b := by
    intro hlead
    rcases Relation.ReflTransGen.cases_tail_iff _ _ _ |>.mp hlead with heq | ⟨q, hq, hb'⟩
    · exact hab heq.symm
    · have hpq : p = q := Option.some.inj
        ((h.mem_children.mp hb).symm.trans (h.mem_children.mp hb'))
      have hle := h.le_of_leads hq
      have hlt := h.lt (h.mem_children.mp ha)
      omega
  intro hx'
  rcases h.leads_total hx hx' with hlead | hlead
  · exact hnot hc hd hne hlead
  · exact hnot hd hc (Ne.symm hne) hlead

theorem IsArena.finite_ancestors (x : Nat) : {a | t.IsAncestor a x}.Finite :=
  (Set.finite_lt_nat x).subset fun _ ha => h.lt_of_isAncestor ha

/-- A node has one ancestor more than its parent. -/
theorem IsArena.ncard_ancestors {p c : Nat} (hp : t.IsParent p c) :
    {a | t.IsAncestor a c}.ncard = {a | t.IsAncestor a p}.ncard + 1 := by
  have hself : p ∉ {a | t.IsAncestor a p} := fun hpp => Nat.lt_irrefl p (h.lt_of_isAncestor hpp)
  rw [ancestors_eq_insert hp, Set.ncard_insert_of_notMem hself (h.finite_ancestors p)]

/-- No node is above the first one. -/
theorem IsArena.ncard_ancestors_zero : {a | t.IsAncestor a 0}.ncard = 0 := by
  rw [Set.ncard_eq_zero (h.finite_ancestors 0), Set.eq_empty_iff_forall_notMem]
  intro a ha
  exact Nat.not_lt_zero a (h.lt_of_isAncestor ha)

end Ancestors

end NodeAtlas.SyntaxTree
