import NodeAtlas.Proofs.Json.Parts

/-!
Where trees come from. Below the root of a document every tree is what one of the readers makes at a
cursor of the text, so what holds of all that a reader makes holds of every node of its kind.
-/

namespace NodeAtlas.Json

open Text

/-! ## Pairs -/

/-- A comment or a colon. -/
def Tree.IsSpacer (u : Tree) : Prop :=
  ∃ k s t, (k = NodeKind.comment ∨ k = .token ':') ∧ u = leaf k s t

theorem isSpacer_trivia (s : Cursor) : ∀ u ∈ (trivia s).1, u.IsSpacer :=
  forall_mem_trivia (fun s t => ⟨.comment, s, t, .inl rfl, rfl⟩) s

/-- What becomes of a key: a pair with a value behind it, or an error without one. -/
theorem pair_cases (value : Cursor → Tree × Cursor) (s : Cursor) :
    ∃ front : List Tree, (∀ u ∈ front, u.IsSpacer) ∧
      ((∃ t, (pair value s).1 = .node .error s.offset t ((key s).1 :: front)) ∨
        ∃ v c rest, (key s).2.Reaches v ∧ v.rest = c :: rest ∧ startsValue c = true ∧
          (pair value s).1 =
            .node .pair s.offset (value v).2.offset ((key s).1 :: front ++ [(value v).1])) := by
  have hgap := isSpacer_trivia (key s).2
  have hcolon : (token ':' (trivia (key s).2).2).IsSpacer := ⟨_, _, _, .inr rfl, rfl⟩
  have hfront : ∀ u ∈ (trivia (key s).2).1 ++ token ':' (trivia (key s).2).2 ::
      (trivia (trivia (key s).2).2.next).1, u.IsSpacer :=
    List.forall_mem_append.mpr ⟨hgap, List.forall_mem_cons.mpr ⟨hcolon, isSpacer_trivia _⟩⟩
  unfold pair
  dsimp only
  split
  · have hreach := ((coversAll_trivia (key s).2).reaches.trans (Cursor.reaches_next _)).trans
      (coversAll_trivia (trivia (key s).2).2.next).reaches
    split
    · next c rest h =>
      split
      · next hstart => exact ⟨_, hfront, .inr ⟨_, c, rest, hreach, h, hstart, rfl⟩⟩
      · exact ⟨_, hfront, .inl ⟨_, rfl⟩⟩
    · exact ⟨_, hfront, .inl ⟨_, rfl⟩⟩
  · exact ⟨_, hgap, .inl ⟨_, rfl⟩⟩

/-! ## Origins -/

/-- What the readers make of a text. Trees that are nothing but a span may come from anywhere. -/
inductive Origin (text : List Char) : Tree → Prop where
  | leaf {k : NodeKind} (hk : IsFree k) (s t : Cursor) : Origin text (leaf k s t)
  | number {s : Cursor} (hs : (Cursor.start text).Reaches s) : Origin text (number s).1
  | string {s : Cursor} {rest : List Char} (hs : (Cursor.start text).Reaches s)
      (hrest : s.rest = '"' :: rest) : Origin text (string s).1
  | object (room : Nat) {s : Cursor} (hs : (Cursor.start text).Reaches s) :
      Origin text (container .object (pair (value room)) s).1
  | array (room : Nat) {s : Cursor} (hs : (Cursor.start text).Reaches s) :
      Origin text (container .array (value room) s).1
  | pair (room : Nat) {s : Cursor} (hs : (Cursor.start text).Reaches s) :
      Origin text (pair (value room) s).1

/-- Every tree within is made by a reader. -/
def Tree.Made (text : List Char) (u : Tree) : Prop := ∀ v : Tree, v.Within u → Origin text v

theorem made_of_children {text : List Char} {u : Tree} (h : Origin text u)
    (hts : ∀ v ∈ u.children, v.Made text) : u.Made text := by
  obtain ⟨k, s, e, ts⟩ := u
  intro v hv
  rcases Tree.within_node hv with rfl | ⟨w, hw, hvw⟩
  · exact h
  · exact hts w hw v hvw

section Made

variable {text : List Char}

theorem made_leaf {k : NodeKind} (hk : IsFree k) (s t : Cursor) : (leaf k s t).Made text :=
  made_of_children (.leaf hk s t) (by simp [leaf, Tree.children])

theorem made_spacer {u : Tree} (h : u.IsSpacer) : u.Made text := by
  obtain ⟨k, s, t, hk, rfl⟩ := h
  rcases hk with rfl | rfl
  · exact made_leaf (k := .comment) trivial s t
  · exact made_leaf (k := .token ':') trivial s t

theorem made_number {s : Cursor} (hs : (Cursor.start text).Reaches s) :
    (number s).1.Made text :=
  made_of_children (.number hs) (by simp [number, leaf, Tree.children])

theorem made_string {s : Cursor} {rest : List Char} (hs : (Cursor.start text).Reaches s)
    (hrest : s.rest = '"' :: rest) : (string s).1.Made text :=
  made_of_children (.string hs hrest) (List.forall_mem_cons.mpr
    ⟨made_leaf (k := .token '"') trivial _ _,
      forall_mem_stringParts (fun _ s t hk => made_leaf hk s t) s.next⟩)

theorem made_key {s : Cursor} (hs : (Cursor.start text).Reaches s) : (key s).1.Made text := by
  unfold key
  split
  · next h =>
    obtain ⟨rest, hrest⟩ := List.head?_eq_some_iff.mp h
    exact made_string hs hrest
  · exact made_number hs

theorem made_word (s : Cursor) : (word s).1.Made text := by
  unfold word
  dsimp only
  split
  · exact made_leaf (k := .true) trivial s _
  · exact made_leaf (k := .false) trivial s _
  · exact made_leaf (k := .null) trivial s _
  · exact made_leaf (k := .error) trivial s _

theorem made_scalar {s : Cursor} (hs : (Cursor.start text).Reaches s) :
    (scalar s).1.Made text := by
  unfold scalar
  split
  · next c rest hrest =>
    split
    · next hquote => exact made_string hs (hquote ▸ hrest)
    split
    · exact made_number hs
    split
    · exact made_word s
    · exact made_leaf (k := .error) trivial s _
  · exact made_leaf (k := .error) trivial s _

theorem made_container {shape : Shape} {item : Cursor → Tree × Cursor}
    (hcovers : ∀ s c rest, s.rest = c :: rest → shape.startsItem c = true →
      Covers s (item s).2 (item s).1)
    (hitem : ∀ s c rest, (Cursor.start text).Reaches s → s.rest = c :: rest →
      shape.startsItem c = true → (item s).1.Made text)
    {s : Cursor} (hs : (Cursor.start text).Reaches s)
    (horigin : Origin text (container shape item s).1) : (container shape item s).1.Made text := by
  have hround : ∀ s, (Cursor.start text).Reaches s →
      (Cursor.start text).Reaches (round shape item s).cursor :=
    fun s hs => hs.trans (coversAll_round hcovers s).reaches
  have hitems := forall_mem_items (Q := (Cursor.start text).Reaches)
    (fun _ s t hk => made_leaf hk s t) hround
    (fun s c rest hs => hitem _ c rest (hs.trans (coversAll_trivia s).reaches))
    (hs.trans (Cursor.reaches_next s))
  exact made_of_children horigin (List.forall_mem_cons.mpr
    ⟨made_leaf (k := .token shape.opening) trivial _ _, hitems⟩)

theorem made_pair {room : Nat}
    (hvalue : ∀ s, (Cursor.start text).Reaches s → (value room s).1.Made text)
    {s : Cursor} (hcovers : Covers s (key s).2 (key s).1) (hs : (Cursor.start text).Reaches s) :
    (pair (value room) s).1.Made text := by
  apply made_of_children (.pair room hs)
  have hkey : (key s).1.Made text := made_key hs
  obtain ⟨front, hfront, ⟨t, heq⟩ | ⟨v, c, rest, hreach, -, -, heq⟩⟩ := pair_cases (value room) s
  · rw [heq]
    exact List.forall_mem_cons.mpr ⟨hkey, fun u hu => made_spacer (hfront u hu)⟩
  · have hv := hvalue v ((hs.trans hcovers.before.reaches).trans hreach)
    rw [heq]
    exact List.forall_mem_append.mpr ⟨List.forall_mem_cons.mpr
      ⟨hkey, fun u hu => made_spacer (hfront u hu)⟩, List.forall_mem_singleton.mpr hv⟩

theorem made_value (room : Nat) {s : Cursor} (hs : (Cursor.start text).Reaches s) :
    (value room s).1.Made text := by
  induction room generalizing s with
  | zero =>
    unfold value
    split
    · exact made_leaf (k := .error) trivial s _
    · exact made_scalar hs
  | succ room ih =>
    have hcovers : ∀ s c rest, s.rest = c :: rest → startsValue c = true →
        Covers s (value room s).2 (value room s).1 :=
      fun s c rest hrest _ => covers_value room (by simp [hrest])
    unfold value
    split
    · exact made_container (fun s c rest => covers_pair hcovers)
        (fun s c rest hs hrest hc => made_pair (fun s hs => ih hs) (covers_key hrest hc) hs) hs
        (.object room hs)
    split
    · exact made_container hcovers (fun s _ _ hs _ _ => ih hs) hs (.array room hs)
    · exact made_scalar hs

/-! ## Documents -/

theorem made_documentItem {s t : Cursor} {c : Char} {x : Tree}
    (hs : (Cursor.start text).Reaches s)
    (hx : (if _ : startsValue c = true then value maxNesting s
      else errorUntil (fun c => isGap c || startsValue c) s) = (x, t)) : x.Made text := by
  split at hx
  · have hvalue := made_value maxNesting hs
    rwa [hx] at hvalue
  · cases hx
    exact made_leaf (k := .error) trivial s _

theorem made_documentItems {s : Cursor} (hs : (Cursor.start text).Reaches s) :
    ∀ u ∈ documentItems s, u.Made text := by
  have hgap (s : Cursor) : ∀ u ∈ (trivia s).1, u.Made text :=
    fun u hu => made_spacer (isSpacer_trivia s u hu)
  fun_induction documentItems s with
  | case1 s gap t htrivia hrest =>
    have hcomments := hgap s
    rw [htrivia] at hcomments
    exact hcomments
  | case2 s gap t htrivia c rest hrest x u hx hlt ih =>
    have hcomments := hgap s
    have ht := hs.trans (coversAll_trivia s).reaches
    rw [htrivia] at hcomments ht
    have hu := ht.trans (covers_documentItem (by simp [hrest]) hx).before.reaches
    exact List.forall_mem_append.mpr
      ⟨hcomments, List.forall_mem_cons.mpr ⟨made_documentItem ht hx, ih hu⟩⟩
  | case3 s gap t htrivia c rest hrest x u hx hlt =>
    have hcomments := hgap s
    have ht := hs.trans (coversAll_trivia s).reaches
    rw [htrivia] at hcomments ht
    exact List.forall_mem_append.mpr
      ⟨hcomments, List.forall_mem_singleton.mpr (made_documentItem ht hx)⟩

/-- Every node but the document is made by a reader. -/
theorem origin_of_within {v : Tree} (h : v.Within (read text)) (hkind : v.kind ≠ .document) :
    Origin text v := by
  rcases Tree.within_node h with rfl | ⟨u, hu, hvu⟩
  · exact absurd rfl hkind
  · exact made_documentItems (Cursor.reaches_refl _) u hu v hvu

end Made

end NodeAtlas.Json
