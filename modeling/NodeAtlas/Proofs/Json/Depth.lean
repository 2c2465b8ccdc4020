import NodeAtlas.Proofs.Json.Parts
import NodeAtlas.Proofs.Syntax.Traversal

/-!
How deep trees get. However many brackets a text opens, at most `maxNesting` containers stand on a
path down its tree, and between a container and the next one there is at most a pair.
-/

namespace NodeAtlas

namespace SyntaxTree

/-- Each node of a list is a child of the one before it. -/
def IsPath (t : SyntaxTree) (path : List Nat) : Prop := path.IsChain fun p c => c ∈ t.children p

/-- The number of objects and arrays among some nodes. -/
def containers (t : SyntaxTree) (ids : List Nat) : Nat :=
  ids.countP fun id => t.kind id = "object" || t.kind id = "array"

end SyntaxTree

namespace Json

open Text

def NodeKind.isContainer : NodeKind → Bool
  | object | array => Bool.true
  | _ => Bool.false

theorem isContainer_iff (k : NodeKind) :
    (k.label = "object" || k.label = "array") = k.isContainer := by
  cases k with
  | token c =>
    simp [label_token_ne c (s := "object") (by decide), label_token_ne c (s := "array") (by decide),
      NodeKind.isContainer]
  | _ => decide

theorem isContainer_of_isFree {k : NodeKind} (h : IsFree k) : k.isContainer = false := by
  cases k <;> first | rfl | exact h.elim

/-- Below the root of a tree there are at most so many levels, and on a path from the root down at
most so many containers. -/
inductive Shallow : Nat → Nat → Tree → Prop where
  | leaf {levels room : Nat} {k : NodeKind} {s e : Nat} (hk : k.isContainer = false) :
      Shallow levels room (.node k s e [])
  | inner {levels room : Nat} {k : NodeKind} {s e : Nat} {ts : List Tree}
      (hk : k.isContainer = false) (hts : ∀ u ∈ ts, Shallow levels room u) :
      Shallow (levels + 1) room (.node k s e ts)
  | container {levels room : Nat} {k : NodeKind} {s e : Nat} {ts : List Tree}
      (hk : k.isContainer = true) (hts : ∀ u ∈ ts, Shallow levels room u) :
      Shallow (levels + 1) (room + 1) (.node k s e ts)

theorem Shallow.succ {levels room : Nat} {u : Tree} (h : Shallow levels room u) :
    Shallow (levels + 1) room u := by
  induction h with
  | leaf hk => exact .leaf hk
  | inner hk _ ih => exact .inner hk ih
  | container hk _ ih => exact .container hk ih

/-! ## Reading -/

section Reading

variable {levels room : Nat}

theorem shallow_leaf (k : NodeKind) (s t : Cursor) (hk : IsFree k) :
    Shallow levels room (leaf k s t) :=
  .leaf (isContainer_of_isFree hk)

theorem shallow_number (s : Cursor) : Shallow levels room (number s).1 := by
  unfold number
  dsimp only
  split <;> exact .leaf rfl

theorem shallow_word (s : Cursor) : Shallow levels room (word s).1 := by
  unfold word
  dsimp only
  split <;> exact .leaf rfl

theorem shallow_string (s : Cursor) : Shallow (levels + 1) room (string s).1 := by
  have hkind : (if (stringParts s.next).2.1 then NodeKind.string else .error).isContainer =
      false := by
    split <;> rfl
  rw [string_eq]
  exact .inner hkind (List.forall_mem_cons.mpr ⟨shallow_leaf (.token '"') _ _ trivial,
    forall_mem_stringParts shallow_leaf s.next⟩)

theorem shallow_key (s : Cursor) : Shallow (levels + 1) room (key s).1 := by
  unfold key
  split
  · exact shallow_string s
  · exact shallow_number s

theorem shallow_scalar (s : Cursor) : Shallow (levels + 1) room (scalar s).1 := by
  unfold scalar
  split
  · split
    · exact shallow_string s
    split
    · exact shallow_number s
    split
    · exact shallow_word s
    · exact shallow_leaf .error _ _ trivial
  · exact shallow_leaf .error _ _ trivial

theorem shallow_container {shape : Shape} (hshape : shape.kind.isContainer = true)
    {item : Cursor → Tree × Cursor} (hitem : ∀ s, Shallow levels room (item s).1) (s : Cursor) :
    Shallow (levels + 1) (room + 1) (container shape item s).1 := by
  have hitems : ∀ u ∈ (items shape item s.next).1, Shallow levels room u :=
    forall_mem_items (Q := fun _ => True) shallow_leaf (fun _ _ => trivial)
      (fun s _ _ _ _ _ => hitem (trivia s).2) trivial
  exact .container hshape (List.forall_mem_cons.mpr
    ⟨shallow_leaf (.token _) _ _ trivial, hitems⟩)

theorem shallow_pair {value : Cursor → Tree × Cursor}
    (hvalue : ∀ s, Shallow (levels + 1) room (value s).1) (s : Cursor) :
    Shallow (levels + 2) room (pair value s).1 := by
  have hgap (s : Cursor) : ∀ u ∈ (trivia s).1, Shallow (levels + 1) room u :=
    forall_mem_trivia (fun s t => shallow_leaf .comment s t trivial) s
  have hkey := List.forall_mem_cons.mpr ⟨shallow_key s, hgap (key s).2⟩
  have hfront := List.forall_mem_append.mpr ⟨hkey, List.forall_mem_cons.mpr
    ⟨shallow_leaf (.token ':') (trivia (key s).2).2 (trivia (key s).2).2.next trivial,
      hgap (trivia (key s).2).2.next⟩⟩
  unfold pair
  dsimp only
  split
  · split
    · split
      · exact .inner rfl (List.forall_mem_append.mpr
          ⟨hfront, List.forall_mem_singleton.mpr (hvalue _)⟩)
      · exact .inner rfl hfront
    · exact .inner rfl hfront
  · exact .inner rfl hkey

end Reading

/-- A level of containers costs two levels of the tree, one for a pair and one for its value. -/
theorem shallow_value (room : Nat) (s : Cursor) : Shallow (2 * room + 1) room (value room s).1 := by
  induction room generalizing s with
  | zero =>
    unfold value
    split
    · exact shallow_leaf .error _ _ trivial
    · exact shallow_scalar s
  | succ room ih =>
    unfold value
    split
    · exact shallow_container rfl (shallow_pair ih) s
    split
    · exact shallow_container rfl (fun s => (ih s).succ) s
    · exact shallow_scalar s

theorem shallow_documentItem {s t : Cursor} {c : Char} {x : Tree}
    (hx : (if _ : startsValue c = true then value maxNesting s
      else errorUntil (fun c => isGap c || startsValue c) s) = (x, t)) :
    Shallow (2 * maxNesting + 1) maxNesting x := by
  split at hx
  · have hvalue := shallow_value maxNesting s
    rwa [hx] at hvalue
  · cases hx
    exact shallow_leaf .error _ _ trivial

theorem shallow_documentItems (s : Cursor) :
    ∀ u ∈ documentItems s, Shallow (2 * maxNesting + 1) maxNesting u := by
  have hgap (s : Cursor) : ∀ u ∈ (trivia s).1, Shallow (2 * maxNesting + 1) maxNesting u :=
    forall_mem_trivia (fun s t => shallow_leaf .comment s t trivial) s
  fun_induction documentItems s with
  | case1 s gap t htrivia hrest =>
    have hcomments := hgap s
    rw [htrivia] at hcomments
    exact hcomments
  | case2 s gap t htrivia c rest hrest x u hx hlt ih =>
    have hcomments := hgap s
    rw [htrivia] at hcomments
    exact List.forall_mem_append.mpr
      ⟨hcomments, List.forall_mem_cons.mpr ⟨shallow_documentItem hx, ih⟩⟩
  | case3 s gap t htrivia c rest hrest x u hx hlt =>
    have hcomments := hgap s
    rw [htrivia] at hcomments
    exact List.forall_mem_append.mpr
      ⟨hcomments, List.forall_mem_singleton.mpr (shallow_documentItem hx)⟩

theorem shallow_read (text : List Char) :
    Shallow (2 * maxNesting + 2) maxNesting (read text) :=
  .inner rfl (shallow_documentItems ⟨0, text⟩)

/-! ## The arena -/

theorem Tree.HoldsAll.exists_of_mem_rootIds {t : SyntaxTree} {us : List Tree} {p id c : Nat}
    (h : HoldsAll t p id us) (hc : c ∈ rootIds id us) : ∃ u ∈ us, u.Holds t (some p) c := by
  induction us generalizing id with
  | nil => cases hc
  | cons u us ih =>
    rcases List.mem_cons.mp hc with rfl | hmem
    · exact ⟨u, List.mem_cons_self, h.1⟩
    · obtain ⟨v, hv, hold⟩ := ih h.2 hmem
      exact ⟨v, List.mem_cons_of_mem u hv, hold⟩

/-- What stands at a child of a node is a child of the tree that stands at the node. -/
theorem Tree.Holds.exists_child {t : SyntaxTree} {gp : Option Nat} {id c : Nat} {u : Tree}
    (h : u.Holds t gp id) (hc : c ∈ t.children id) :
    ∃ v ∈ u.children, v.Holds t (some id) c := by
  rw [h.children_eq] at hc
  cases u
  exact h.2.exists_of_mem_rootIds hc

theorem Tree.Holds.containers_cons {t : SyntaxTree} {gp : Option Nat} {id : Nat} {u : Tree}
    (h : u.Holds t gp id) (ids : List Nat) :
    t.containers (id :: ids) = t.containers ids + if u.kind.isContainer then 1 else 0 := by
  rw [SyntaxTree.containers, List.countP_cons, h.kind_eq, isContainer_iff]
  rfl

/-- One step down a shallow tree. -/
theorem Shallow.child {levels room : Nat} {u v : Tree} (h : Shallow levels room u)
    (hv : v ∈ u.children) : ∃ l r, Shallow l r v ∧ levels = l + 1 ∧
      room = r + if u.kind.isContainer then 1 else 0 := by
  cases h with
  | leaf _ => cases hv
  | @inner levels room k s e ts hk hts =>
    exact ⟨levels, room, hts v hv, rfl, by simp [Tree.kind, hk]⟩
  | @container levels room k s e ts hk hts =>
    exact ⟨levels, room, hts v hv, rfl, by simp [Tree.kind, hk]⟩

theorem Shallow.containers_le {t : SyntaxTree} {path : List Nat} {levels room id : Nat} {u : Tree}
    (h : Shallow levels room u) {gp : Option Nat} (hold : u.Holds t gp id)
    (hpath : t.IsPath (id :: path)) : t.containers (id :: path) ≤ room := by
  induction path generalizing levels room id u gp with
  | nil =>
    rw [hold.containers_cons]
    cases h with
    | leaf hk => simp [SyntaxTree.containers, Tree.kind, hk]
    | inner hk _ => simp [SyntaxTree.containers, Tree.kind, hk]
    | container hk _ => simp [SyntaxTree.containers, Tree.kind, hk]
  | cons c path ih =>
    obtain ⟨hc, hmore⟩ := List.isChain_cons_cons.mp hpath
    obtain ⟨v, hv, hvold⟩ := hold.exists_child hc
    obtain ⟨l, r, hshallow, -, hroom⟩ := h.child hv
    have hle := ih hshallow hvold hmore
    rw [hold.containers_cons, hroom]
    exact Nat.add_le_add_right hle _

theorem Shallow.depth_le {t : SyntaxTree} {levels room : Nat} {u : Tree}
    (h : Shallow levels room u) (hold : u.Holds t none 0) : ∀ e ∈ t.preorder, e.2 ≤ levels := by
  -- What is below a node still fits into the levels that are left.
  have hbelow := SyntaxTree.forall_mem_preorder (t := t) (P := fun id depth =>
    ∃ l r gp v, Shallow l r v ∧ v.Holds t gp id ∧ depth + l = levels) ?_
    ⟨levels, room, none, u, h, hold, Nat.zero_add levels⟩
  · intro e he
    obtain ⟨l, -, -, -, -, -, hl⟩ := hbelow e he
    omega
  · rintro id depth ⟨l, r, gp, v, hv, hvold, hl⟩ c hc
    obtain ⟨w, hw, hwold⟩ := hvold.exists_child hc
    obtain ⟨l', r', hshallow, hlevel, -⟩ := hv.child hw
    exact ⟨l', r', some id, w, hshallow, hwold, by omega⟩

end Json

end NodeAtlas
