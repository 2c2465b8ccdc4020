import NodeAtlas.Proofs.Syntax.Traversal
import NodeAtlas.Proofs.Text.Slices
import NodeAtlas.Syntax.Naming

/-!
Where names come from. When spans are nested, the text of a node has the texts of all nodes below it
inside, and every strategy that looks at nothing else finds its name there.
-/

namespace NodeAtlas.SyntaxTree

open Text

/-! ## Spans -/

/-- Spans cut no characters, and those of children are inside those of their parents. -/
structure IsNested (t : SyntaxTree) : Prop where
  divides : ∀ n ∈ t.nodes.toList, DividesAt t.text n.start ∧ DividesAt t.text n.stop
  inside : ∀ n ∈ t.nodes.toList, ∀ p ∈ n.parent, ∀ m ∈ t.node? p,
    m.start ≤ n.start ∧ n.stop ≤ m.stop

theorem exists_node? {t : SyntaxTree} {id : Nat} (hid : id < t.size) : ∃ n, t.node? id = some n :=
  ⟨_, Array.getElem?_eq_getElem hid⟩

theorem mem_nodes_of_node? {t : SyntaxTree} {id : Nat} {n : SyntaxNode} (h : t.node? id = some n) :
    n ∈ t.nodes.toList :=
  Array.mem_toList_iff.mpr (Array.mem_of_getElem? h)

section Spans

variable {t : SyntaxTree} (h : t.IsArena) (hn : t.IsNested)
include h hn

/-- The text of a node has the texts of its children inside. -/
theorem textOf_infix_of_isParent {p c : Nat} (hp : t.IsParent p c) : t.textOf c <:+: t.textOf p := by
  obtain ⟨n, hc, hparent⟩ := Option.bind_eq_some_iff.mp hp
  have hlt : p < t.size := Nat.lt_trans (h.lt hp) (lt_size_of_node? hc)
  obtain ⟨m, hm⟩ := exists_node? hlt
  obtain ⟨hstart, hstop⟩ := hn.inside n (mem_nodes_of_node? hc) p hparent m hm
  rw [textOf, textOf, hc, hm, Option.bind_some, Option.bind_some]
  cases hslice : slice? t.text n.start n.stop with
  | none => exact List.nil_infix
  | some w =>
    obtain ⟨a, b, -, ha, hb⟩ := slice?_eq_some_iff.mp hslice
    obtain ⟨hdivides, hdivides'⟩ := hn.divides m (mem_nodes_of_node? hm)
    obtain ⟨w', hw'⟩ := exists_slice? hdivides hdivides' (by omega)
    rw [hw']
    exact infix_of_slice? hslice hw' hstart hstop

theorem textOf_infix_of_isAncestor {a d : Nat} (ha : t.IsAncestor a d) :
    t.textOf d <:+: t.textOf a := by
  induction ha with
  | single hp => exact textOf_infix_of_isParent h hn hp
  | tail _ hp ih => exact (textOf_infix_of_isParent h hn hp).trans ih

end Spans

/-! ## Texts of nodes below -/

/-- Nothing, or the text of a node further down. -/
def IsTextBelow (t : SyntaxTree) (id : Nat) (s : List Char) : Prop :=
  s = [] ∨ ∃ d, t.IsAncestor id d ∧ s = t.textOf d

theorem isTextBelow_nil (t : SyntaxTree) (id : Nat) : t.IsTextBelow id [] := .inl rfl

theorem IsTextBelow.of_isParent {t : SyntaxTree} {p c : Nat} {s : List Char}
    (hs : t.IsTextBelow c s) (hp : t.IsParent p c) : t.IsTextBelow p s := by
  rcases hs with hs | ⟨d, hd, hs⟩
  · exact .inl hs
  · exact .inr ⟨d, Relation.TransGen.head hp hd, hs⟩

theorem isTextBelow_textOf {t : SyntaxTree} {p c : Nat} (hp : t.IsParent p c) :
    t.IsTextBelow p (t.textOf c) :=
  .inr ⟨c, .single hp, rfl⟩

/-- The first name that is not empty among those of the first child of each kind. -/
def firstName (t : SyntaxTree) (kinds : List String) (nameOf : Nat → List Char) (id : Nat) :
    Option (List Char) :=
  kinds.findSome? fun k => (t.findChild? [k] id).bind fun c =>
    match nameOf c with
    | [] => none
    | name => some name

theorem qualifiedNameWithin_succ (t : SyntaxTree) (depth id : Nat) :
    t.qualifiedNameWithin (depth + 1) id =
      match qualifiedKinds.findSome? fun k => t.findChild? [k] id with
      | some q => t.lastSegment q
      | none => (t.firstName qualifiedContainers (t.qualifiedNameWithin depth) id).getD
          (t.childText ["identifier"] id) :=
  rfl

theorem declaratorName_eq (t : SyntaxTree) (id : Nat) : t.declaratorName id =
    match t.firstName declaratorKinds t.qualifiedName id with
    | some name => name
    | none =>
      match t.childText ["identifier"] id with
      | [] => nameBeforeParen (t.textOf id)
      | name => name :=
  rfl

section Below

variable {t : SyntaxTree} (h : t.IsArena)
include h

theorem IsTextBelow.infix_textOf (hn : t.IsNested) {id : Nat} {s : List Char} (hs : t.IsTextBelow id s) :
    s <:+: t.textOf id := by
  rcases hs with rfl | ⟨d, hd, rfl⟩
  · exact List.nil_infix
  · exact textOf_infix_of_isAncestor h hn hd

theorem isParent_of_mem {p c : Nat} (hc : c ∈ t.children p) : t.IsParent p c := h.mem_children.mp hc

theorem isParent_of_findChild? {kinds : List String} {id c : Nat}
    (hc : t.findChild? kinds id = some c) : t.IsParent id c :=
  isParent_of_mem h (List.mem_of_find?_eq_some hc)

theorem isTextBelow_childText (kinds : List String) (id : Nat) :
    t.IsTextBelow id (t.childText kinds id) := by
  unfold childText
  cases hc : t.findChild? kinds id with
  | none => exact isTextBelow_nil t id
  | some c => exact isTextBelow_textOf (isParent_of_findChild? h hc)

theorem isTextBelow_identifierName (id : Nat) : t.IsTextBelow id (t.identifierName id) := by
  unfold identifierName
  split
  · exact isTextBelow_childText h _ id
  · exact isTextBelow_childText h _ id

theorem isTextBelow_lastSegment {id q : Nat} (hq : t.IsParent id q) :
    t.IsTextBelow id (t.lastSegment q) := by
  unfold lastSegment
  split
  · next c hc =>
    have hmem : c ∈ t.children q := List.mem_reverse.mp (List.mem_of_find?_eq_some hc)
    exact (isTextBelow_textOf (isParent_of_mem h hmem)).of_isParent hq
  · exact isTextBelow_textOf hq

/-- What is found in a child comes from the text below that child. -/
theorem isTextBelow_firstName {kinds : List String} {nameOf : Nat → List Char} {id : Nat}
    {name : List Char} (hname : t.firstName kinds nameOf id = some name)
    (hbelow : ∀ c, t.IsTextBelow c (nameOf c)) : t.IsTextBelow id name := by
  obtain ⟨k, -, hk⟩ := List.exists_of_findSome?_eq_some hname
  obtain ⟨c, hc, hname⟩ := Option.bind_eq_some_iff.mp hk
  split at hname
  · cases hname
  · cases hname
    exact (hbelow c).of_isParent (isParent_of_findChild? h hc)

theorem isTextBelow_qualifiedNameWithin (depth id : Nat) :
    t.IsTextBelow id (t.qualifiedNameWithin depth id) := by
  induction depth generalizing id with
  | zero => exact isTextBelow_nil t id
  | succ depth ih =>
    rw [qualifiedNameWithin_succ]
    split
    · next q hq =>
      obtain ⟨k, -, hk⟩ := List.exists_of_findSome?_eq_some hq
      exact isTextBelow_lastSegment h (isParent_of_findChild? h hk)
    · cases hinner : t.firstName qualifiedContainers (t.qualifiedNameWithin depth) id with
      | none => exact isTextBelow_childText h _ id
      | some name => exact isTextBelow_firstName h hinner ih

theorem isTextBelow_callTarget (id : Nat) : t.IsTextBelow id (t.callTarget id) := by
  unfold callTarget
  split
  · exact isTextBelow_nil t id
  · next callee hcallee =>
    have hparent := isParent_of_mem h (List.mem_of_find?_eq_some hcallee)
    dsimp only
    split
    · exact isTextBelow_textOf hparent
    split
    · next c hc =>
      split at hc
      · have hmem : c ∈ t.children callee := List.mem_reverse.mp (List.mem_of_find?_eq_some hc)
        exact (isTextBelow_textOf (isParent_of_mem h hmem)).of_isParent hparent
      · cases hc
    · exact isTextBelow_childText h _ id

theorem isTextBelow_firstChild (id : Nat) :
    t.IsTextBelow id (((t.children id).head?.map t.textOf).getD []) := by
  cases hc : (t.children id).head? with
  | none => exact isTextBelow_nil t id
  | some c => exact isTextBelow_textOf (isParent_of_mem h (List.mem_of_head? hc))

end Below

/-! ## Parts of texts -/

theorem infix_unquote (s : List Char) : unquote s <:+: s := by
  unfold unquote
  split
  · next rest =>
    split
    · next front hrest =>
      have heq : rest = front.reverse ++ ['"'] := by
        rw [← List.reverse_reverse rest, hrest, List.reverse_cons]
      exact ⟨['"'], ['"'], by rw [heq]; simp⟩
    · exact List.infix_rfl
  · exact List.infix_rfl

theorem infix_nameBeforeParen (s : List Char) : nameBeforeParen s <:+: s := by
  unfold nameBeforeParen
  split
  · dsimp only
    have hbefore : trimEnd (s.takeWhile (· ≠ '(')) <:+: s := by
      have htrim : trimEnd (s.takeWhile (· ≠ '(')) <+: s.takeWhile (· ≠ '(') := by
        rw [trimEnd, ← List.reverse_suffix, List.reverse_reverse]
        exact List.dropWhile_suffix isBlank
      exact (htrim.trans (List.takeWhile_prefix _)).isInfix
    have hname (w : List Char) : (w.reverse.takeWhile fun c => !isNameBoundary c).reverse <:+: w := by
      rw [← List.reverse_infix, List.reverse_reverse]
      exact (List.takeWhile_prefix _).isInfix
    split
    · split
      · next heq _ => exact heq ▸ (hname _).trans hbefore
      · exact List.nil_infix
    · exact List.nil_infix
  · exact List.nil_infix

section Names

variable {t : SyntaxTree} (h : t.IsArena) (hn : t.IsNested)
include h hn

theorem infix_propertyName (propertyKinds : List String) (id : Nat) :
    t.propertyName propertyKinds id <:+: t.textOf id := by
  unfold propertyName
  split
  · next c hc =>
    have hchild := textOf_infix_of_isParent h hn (isParent_of_findChild? h hc)
    split
    · exact (infix_unquote _).trans hchild
    · exact hchild
  · exact List.nil_infix

theorem infix_declaratorName (id : Nat) : t.declaratorName id <:+: t.textOf id := by
  rw [declaratorName_eq]
  split
  · next name hname =>
    exact (isTextBelow_firstName h hname fun c => isTextBelow_qualifiedNameWithin h t.size c).infix_textOf h hn
  · split
    · exact infix_nameBeforeParen _
    · exact (isTextBelow_childText h _ id).infix_textOf h hn

/-- A name is a part of the text of its node, unless it is sought outside of the node. -/
theorem infix_extractName (propertyKinds : List String) (id : Nat) {s : NameStrategy}
    (hs : s ≠ .findAssignmentTarget) : t.extractName propertyKinds id s <:+: t.textOf id := by
  cases s with
  | none => exact List.nil_infix
  | custom => exact List.nil_infix
  | nodeText => exact List.infix_rfl
  | firstChild => exact (isTextBelow_firstChild h id).infix_textOf h hn
  | findIdentifier => exact (isTextBelow_identifierName h id).infix_textOf h hn
  | findProperty => exact infix_propertyName h hn propertyKinds id
  | findAssignmentTarget => exact absurd rfl hs
  | findQualifiedIdentifier => exact (isTextBelow_qualifiedNameWithin h t.size id).infix_textOf h hn
  | findInDeclarator => exact infix_declaratorName h hn id
  | findCallTarget => exact (isTextBelow_callTarget h id).infix_textOf h hn

end Names

end NodeAtlas.SyntaxTree
