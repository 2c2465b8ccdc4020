import NodeAtlas.Proofs.Json.Depth
import NodeAtlas.Proofs.Json.Origins
import NodeAtlas.Proofs.Json.Table
import NodeAtlas.Proofs.Syntax.Flattening

/-!
How pairs come by their names. A pair is named by the first string among its children, and only its key
and its value can be strings: a key that is one gives the name, and otherwise the value does.
-/

namespace NodeAtlas

namespace Json

open Text

/-! ## Quotes -/

theorem passes_stringParts {s : Cursor} (h : (stringParts s).2.1 = true) :
    ∃ w, s.Passes (w ++ ['"']) (stringParts s).2.2 := by
  fun_induction stringParts s with
  | case1 s => cases h
  | case2 s => cases h
  | case3 s rest hrest => exact ⟨[], Cursor.passes_next hrest⟩
  | case4 s rest hrest t more r hparts ih =>
    rw [hparts] at ih
    obtain ⟨w, hw⟩ := ih h
    have hpass := (Cursor.passes_forward s (escapeLength s.rest)).trans hw
    rw [← List.append_assoc] at hpass
    exact ⟨_, hpass⟩
  | case5 s c rest _ _ _ hrest t more r hparts ih =>
    rw [hparts] at ih
    obtain ⟨w, hw⟩ := ih h
    have hpass := ((Cursor.passes_next hrest).trans
      (Cursor.passes_skip s.next isStringContent)).trans hw
    rw [← List.append_assoc] at hpass
    exact ⟨_, hpass⟩

/-- A string stands between quotes. -/
theorem Origin.quoted {text : List Char} {v : Tree} (h : Origin text v) (hkind : v.kind = .string) :
    ∃ w, slice? text v.start v.stop = some ('"' :: (w ++ ['"'])) := by
  cases h with
  | leaf hk s t =>
    cases hkind
    exact hk.elim
  | number hs => rcases kind_number _ with hk | hk <;> cases hk.symm.trans hkind
  | @string s rest hs hrest =>
    have hclosed : (stringParts s.next).2.1 = true := by
      by_contra hopen
      rw [string_eq, if_neg hopen] at hkind
      cases hkind
    obtain ⟨w, hw⟩ := passes_stringParts hclosed
    exact ⟨w, hs.slice?_eq ((Cursor.passes_next hrest).trans hw)⟩
  | object room hs => cases hkind
  | array room hs => cases hkind
  | @pair room s hs =>
    obtain ⟨front, -, ⟨t, heq⟩ | ⟨v, c, rest, -, -, -, heq⟩⟩ := pair_cases (value room) s <;>
      cases (congrArg Tree.kind heq).symm.trans hkind

/-! ## Keys and values -/

theorem kind_key (s : Cursor) : (key s).1.kind.label ∈ keyKinds := by
  unfold key
  split
  · exact label_mem (kind_string s) (by decide) (by decide)
  · exact label_mem (kind_number s) (by decide) (by decide)

/-- A pair is a key, spacers and a value. -/
theorem Origin.children_pair {text : List Char} {v : Tree} (h : Origin text v)
    (hkind : v.kind = .pair) : ∃ k front x, v.children = k :: (front ++ [x]) ∧
      k.kind.label ∈ keyKinds ∧ ∀ u ∈ front, u.IsSpacer := by
  cases h with
  | leaf hk s t =>
    cases hkind
    exact hk.elim
  | number hs => rcases kind_number _ with hk | hk <;> cases hk.symm.trans hkind
  | string hs hrest => rcases kind_string _ with hk | hk <;> cases hk.symm.trans hkind
  | object room hs => cases hkind
  | array room hs => cases hkind
  | @pair room s hs =>
    obtain ⟨front, hfront, ⟨t, heq⟩ | ⟨w, c, rest, -, -, -, heq⟩⟩ := pair_cases (value room) s
    · cases (congrArg Tree.kind heq).symm.trans hkind
    · rw [heq]
      exact ⟨(key s).1, front, (value room w).1, rfl, kind_key s, hfront⟩

theorem Tree.IsSpacer.label_ne {u : Tree} (h : u.IsSpacer) : u.kind.label ≠ "string" := by
  obtain ⟨k, s, t, hk, rfl⟩ := h
  rcases hk with rfl | rfl
  · show NodeKind.comment.label ≠ "string"
    decide
  · show (NodeKind.token ':').label ≠ "string"
    decide

/-! ## The arena -/

section Arena

variable {t : SyntaxTree}

/-- Between the ids of a key and a value there are only those of spacers. -/
theorem Origin.exists_ids {text : List Char} {gp : Option Nat} {id : Nat} {v : Tree}
    (h : Origin text v) (hkind : v.kind = .pair) (hold : v.Holds t gp id) :
    ∃ key gap value, t.children id = key :: (gap ++ [value]) ∧ t.kind key ∈ keyKinds ∧
      ∀ c ∈ gap, t.kind c ≠ "string" := by
  obtain ⟨k, front, x, hchildren, hkey, hfront⟩ := h.children_pair hkind
  have hids := hold.children_eq
  rw [hchildren, Tree.rootIds, Tree.rootIds_append] at hids
  obtain ⟨kind, s, e, ts⟩ := v
  obtain rfl : ts = k :: (front ++ [x]) := hchildren
  obtain ⟨hk, hrest⟩ := hold.2
  refine ⟨id + 1, _, _, hids, hk.kind_eq ▸ hkey, fun c hc => ?_⟩
  obtain ⟨u, hu, huc⟩ := hrest.front.exists_of_mem_rootIds hc
  rw [huc.kind_eq]
  exact (hfront u hu).label_ne

end Arena

/-- What a reader made stands at a node. -/
theorem exists_origin {text : List Char} {id : Nat} {k : NodeKind}
    (hkind : (parse text).kind id = k.label) (hk : k ≠ .document) :
    ∃ v gp, Origin text v ∧ v.kind = k ∧ v.Holds (parse text) gp id := by
  have hid : id < (parse text).size := by
    by_contra hge
    have hnone := SyntaxTree.node?_eq_none (Nat.le_of_not_lt hge)
    have hempty : k.label.length = 0 := by
      rw [← hkind, SyntaxTree.kind, hnone]
      rfl
    cases k with
    | token c => simp [NodeKind.label] at hempty
    | _ => exact absurd hempty (by decide)
  have hplace : (read text).Holds (parse text) none 0 := Tree.holds_place _ _
  obtain ⟨v, gp, hv, hold⟩ := exists_holds hplace (Tree.size_place _ _) hid
  rw [hold.kind_eq, NodeKind.label_eq_iff] at hkind
  exact ⟨v, gp, origin_of_within hv (hkind ▸ hk), hkind, hold⟩

/-- Strings stand between quotes. -/
theorem textOf_string {text : List Char} {id : Nat} (hkind : (parse text).kind id = "string") :
    ∃ w, (parse text).textOf id = '"' :: (w ++ ['"']) := by
  have htext : (parse text).text = text := Tree.text_place _ _ _
  obtain ⟨v, gp, horigin, hv, hold⟩ := exists_origin (k := .string) hkind (by decide)
  obtain ⟨w, hw⟩ := horigin.quoted hv
  refine ⟨w, ?_⟩
  rw [SyntaxTree.textOf, hold.node?_eq, Option.bind_some, htext, hw]
  rfl

end Json

/-! ## Names -/

namespace SyntaxTree

theorem unquote_quoted (w : List Char) : unquote ('"' :: (w ++ ['"'])) = w := by
  simp [unquote]

/-- A property is named by the first string among the children. -/
theorem propertyName_eq {t : SyntaxTree} {id key value : Nat} {gap : List Nat}
    (hchildren : t.children id = key :: (gap ++ [value]))
    (hgap : ∀ c ∈ gap, t.kind c ≠ "string") :
    t.propertyName ["string"] id =
      if t.kind key = "string" then unquote (t.textOf key)
      else if t.kind value = "string" then unquote (t.textOf value) else [] := by
  have hnone : gap.find? (fun c => decide (t.kind c = "string")) = none := by
    rw [List.find?_eq_none]
    intro c hc
    simpa using hgap c hc
  have hfind : t.findChild? ["string"] id = if t.kind key = "string" then some key
      else if t.kind value = "string" then some value else none := by
    rw [findChild?, hchildren]
    split_ifs with hkey hvalue
    · simp [hkey]
    · simp [hkey, hvalue, hnone, List.find?_append]
    · simp [hkey, hvalue, hnone, List.find?_append]
  rw [propertyName, hfind]
  split_ifs with hkey hvalue
  · simp [hkey]
  · simp [hvalue]
  · rfl

/-- How a pair comes by its name: from its key if that is a string, else from its value. -/
structure NamesPair (t : SyntaxTree) (key value : Nat) (name : List Char) : Prop where
  kind : t.kind key ∈ Json.keyKinds
  ofKey : t.kind key = "string" → t.textOf key = '"' :: (name ++ ['"'])
  ofValue : t.kind key ≠ "string" → t.kind value = "string" →
    t.textOf value = '"' :: (name ++ ['"'])
  unnamed : t.kind key ≠ "string" → t.kind value ≠ "string" → name = []

end SyntaxTree

theorem Language.nameOf_of_property {l : Language} {t : SyntaxTree} {id : Nat} {config : NodeConfig}
    (hget : l.table.get? (t.kind id) = some config) (hname : config.nameStrategy = .findProperty) :
    l.nameOf t id = t.propertyName l.propertyKinds id := by
  rw [nameOf, hget]
  simp [hname, SyntaxTree.extractName]

namespace Json

theorem nameOf_pair {t : SyntaxTree} {id : Nat} (hkind : t.kind id = "pair") :
    language.nameOf t id = t.propertyName ["string"] id := by
  obtain ⟨config, hconfig, hname⟩ := Option.map_eq_some_iff.mp nameStrategy_pair
  rw [← hkind] at hconfig
  exact Language.nameOf_of_property (l := language) hconfig hname

/-- Ids count the nodes in pre-order, so the number of a row is the id of its node. -/
theorem of_mem_flatten {text : List Char} {l : Language} {r : FlatRow}
    (hr : r ∈ (parse text).flatten l) :
    r.kind = (parse text).kind r.nodeId ∧ r.name = l.nameOf (parse text) r.nodeId := by
  obtain ⟨i, hi⟩ := List.mem_iff_getElem?.mp hr
  obtain ⟨id, depth, -, hid, rfl⟩ := SyntaxTree.exists_of_getElem?_flatten hi
  have hpre : (parse text).ids = List.range (read text).count := Tree.map_preorder_place _ _
  rw [hpre] at hid
  obtain ⟨hlt, hi⟩ := List.getElem?_eq_some_iff.mp hid
  rw [List.getElem_range] at hi
  subst hi
  exact ⟨rfl, rfl⟩

theorem namesPair_of_kind {text : List Char} {id : Nat} (hkind : (parse text).kind id = "pair") :
    ∃ key gap value, (parse text).children id = key :: (gap ++ [value]) ∧
      (parse text).NamesPair key value ((parse text).propertyName ["string"] id) := by
  obtain ⟨v, gp, horigin, hv, hold⟩ := exists_origin (k := .pair) hkind (by decide)
  obtain ⟨key, gap, value, hchildren, hkey, hgap⟩ := horigin.exists_ids hv hold
  -- A string has the quotes that naming takes off.
  have hquoted {c : Nat} (hc : (parse text).kind c = "string") : (parse text).textOf c =
      '"' :: (SyntaxTree.unquote ((parse text).textOf c) ++ ['"']) := by
    obtain ⟨w, hw⟩ := textOf_string hc
    rw [hw, SyntaxTree.unquote_quoted]
  refine ⟨key, gap, value, hchildren, ?_⟩
  rw [SyntaxTree.propertyName_eq hchildren hgap]
  constructor
  case kind => exact hkey
  case ofKey =>
    intro hc
    rw [if_pos hc]
    exact hquoted hc
  case ofValue =>
    intro hc hc'
    rw [if_neg hc, if_pos hc']
    exact hquoted hc'
  case unnamed =>
    intro hc hc'
    rw [if_neg hc, if_neg hc']

/-- Every row of a pair is named by its key or its value. -/
theorem namesPair_flatten {text : List Char} {r : FlatRow} (hr : r ∈ (parse text).flatten language)
    (hkind : r.kind = "pair") :
    ∃ key gap value, (parse text).children r.nodeId = key :: (gap ++ [value]) ∧
      (parse text).NamesPair key value r.name := by
  obtain ⟨hnode, hname⟩ := of_mem_flatten hr
  rw [hnode] at hkind
  rw [hname, nameOf_pair hkind]
  exact namesPair_of_kind hkind

theorem mem_flatten {text : List Char} {l : Language} {id depth : Nat}
    (h : (parse text).preorder[id]? = some (id, depth)) :
    (parse text).flatRow l (parse text).preorder id id depth ∈ (parse text).flatten l := by
  apply List.mem_of_getElem? (i := id)
  rw [SyntaxTree.getElem?_flatten, h]
  rfl

theorem namesPair_flatten_string :
    let t := parse ['\x7b', '"', 'k', '"', ':', '1', '\x7d']
    ∃ r ∈ t.flatten language, r.kind = "pair" ∧
      ∃ key gap value, t.children r.nodeId = key :: (gap ++ [value]) ∧
        t.NamesPair key value r.name := by
  intro t
  have hr : t.flatRow language t.preorder 3 3 2 ∈ t.flatten language :=
    mem_flatten (by decide +kernel)
  have hkind : t.kind 3 = "pair" := by decide +kernel
  exact ⟨_, hr, hkind, namesPair_flatten hr hkind⟩

/-- A pair whose key is a number has the name of its value. -/
theorem named_by_value :
    let t := parse ['\x7b', '1', ':', ' ', '"', 'v', '"', '\x7d']
    ∃ r ∈ t.flatten language, r.kind = "pair" ∧ r.name = ['v'] ∧
      ∃ key gap value, t.children r.nodeId = key :: (gap ++ [value]) ∧
        t.kind key = "number" ∧ t.textOf key = ['1'] ∧ t.textOf value = ['"', 'v', '"'] := by
  intro t
  have hr : t.flatRow language t.preorder 3 3 2 ∈ t.flatten language :=
    mem_flatten (by decide +kernel)
  have hkind : t.kind 3 = "pair" := by decide +kernel
  have hname : t.propertyName ["string"] 3 = ['v'] := by decide +kernel
  have hchildren : t.children 3 = [4, 5, 6] := by decide +kernel
  exact ⟨_, hr, hkind, (nameOf_pair hkind).trans hname, 4, [5], 6, hchildren, by decide +kernel,
    by decide +kernel, by decide +kernel⟩

end Json

end NodeAtlas
