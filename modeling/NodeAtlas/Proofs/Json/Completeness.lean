import NodeAtlas.Proofs.Json.Layout
import NodeAtlas.Proofs.Json.Values

/-!
The syntax tree of a derived text shows the tree of its derivation, whatever comments stand between
its tokens.
-/

namespace NodeAtlas.Json

open Text Grammar
open NodeAtlas.Json.Tree (withoutCommentsAll rootIds Holds HoldsAll)

/-! ## Documents -/

theorem follows_openText (d : Document) : Follows d.openText := by
  unfold Document.openText
  split
  · intro c hc
    cases hc
  · exact follows_cons (.inr (.inl rfl)) _

/-- At the end of a document nothing but comments is left. -/
theorem trivia_openText (d : Document) (o : Nat) :
    ∃ us t, trivia ⟨o, d.after.text ++ d.openText⟩ = (us, t) ∧ t.rest = [] ∧
      withoutCommentsAll us = [] := by
  obtain ⟨us, hus, hnone⟩ := trivia_spacing_append d.after o d.openText
  have hsolid : Solid [] := by
    intro c hc
    cases hc
  have hnil (p : Nat) : trivia ⟨p, []⟩ = ([], ⟨p, []⟩) := trivia_solid hsolid p
  unfold Document.openText at hus ⊢
  split at hus
  · rw [hnil] at hus
    exact ⟨_, _, hus, rfl, by simpa using hnone⟩
  · next body hbody =>
    have hline := @trivia_line body.val [] body.property (by simp) (o + byteLength d.after.text)
    simp only [List.append_nil, hnil] at hline
    rw [hline] at hus
    refine ⟨_, _, hus, rfl, ?_⟩
    rw [withoutCommentsAll_append, hnone, withoutCommentsAll_comment]
    rfl

theorem documentItems_end {s t : Cursor} {us : List Tree} (h : trivia s = (us, t))
    (ht : t.rest = []) : documentItems s = us := by
  obtain ⟨o, rest⟩ := t
  cases ht
  rw [documentItems]
  simp only [h]

/-- A document is read as its tree. -/
theorem read_text (d : Document) (h : d.value.PlainBelow 0) :
    (read d.text).withoutComments = d.tree := by
  obtain ⟨c, w, hw, hc⟩ := value_eq_cons d.value
  have hsolid := solid_value d.value (d.after.text ++ d.openText)
  obtain ⟨us, hus, hnone⟩ := trivia_spacing d.before hsolid 0
  obtain ⟨u, hu, htree⟩ := @value_text d.value maxNesting 0 rfl h
    (0 + byteLength d.before.text) _ (follows_spacing d.after (follows_openText d))
  obtain ⟨vs, t, hvs, ht, hnone'⟩ :=
    trivia_openText d (0 + byteLength d.before.text + byteLength d.value.text)
  have hlast := documentItems_end hvs ht
  have hlt : (d.after.text ++ d.openText).length < d.text.length := by
    rw [Document.text, hw]
    simp only [List.length_append, List.length_cons]
    omega
  -- One round reads the value, and the next one finds nothing but comments.
  have hitems : documentItems ⟨0, d.text⟩ = us ++ u :: vs := by
    rw [hw] at hlast
    rw [hw, List.cons_append] at hus hu
    rw [Document.text, hw, List.cons_append] at hlt ⊢
    rw [documentItems]
    simp only [hus, hc, if_true, hu, hlast]
    exact dif_pos hlt
  have hkind : u.kind ≠ .comment := by
    rw [← kind_withoutComments, htree]
    exact kind_value d.value 0 _
  rw [read, hitems, Tree.withoutComments, withoutCommentsAll_append, hnone,
    withoutCommentsAll_cons hkind, hnone', htree, Nat.zero_add]
  rfl

/-! ## Comments in the arena -/

/-- A comment without children. -/
def IsComment (t : SyntaxTree) (id : Nat) : Prop := t.kind id = "comment" ∧ t.children id = []

instance (t : SyntaxTree) (id : Nat) : Decidable (IsComment t id) :=
  inferInstanceAs (Decidable (_ ∧ _))

mutual

/-- A node and the nodes below it are a tree, when comments do not count. -/
def Shows (t : SyntaxTree) (parent : Option Nat) (id : Nat) : Tree → Prop
  | .node k s e ts =>
    ∃ n, t.node? id = some n ∧ n.kind = k.label ∧ n.named = k.named ∧ n.start = s ∧ n.stop = e ∧
      n.parent = parent ∧ ShowsAll t id (n.children.filter fun c => ¬ IsComment t c) ts

def ShowsAll (t : SyntaxTree) (parent : Nat) (ids : List Nat) : List Tree → Prop
  | [] => ids = []
  | u :: us => ∃ id rest, ids = id :: rest ∧ Shows t (some parent) id u ∧ ShowsAll t parent rest us

end

theorem rootIds_eq_nil {id : Nat} {us : List Tree} : rootIds id us = [] ↔ us = [] := by
  cases us <;> simp [rootIds]

theorem isComment_of_holds {t : SyntaxTree} {parent : Option Nat} {id : Nat} {u : Tree}
    (h : Holds t parent id u) : IsComment t id ↔ u.kind = .comment ∧ u.children = [] := by
  have hlabel : u.kind.label = "comment" ↔ u.kind = .comment :=
    NodeKind.label_eq_iff (k := .comment)
  rw [IsComment, h.children_eq, rootIds_eq_nil, h.kind_eq, hlabel]

theorem showsAll_of_holdsAll {t : SyntaxTree} {us : List Tree} {p id : Nat}
    (hshow : ∀ u ∈ us, ∀ parent id, Holds t parent id u → Shows t parent id u.withoutComments)
    (h : HoldsAll t p id us) :
    ShowsAll t p ((rootIds id us).filter fun c => ¬ IsComment t c) (withoutCommentsAll us) := by
  induction us generalizing id with
  | nil => rfl
  | cons u us ih =>
    have hus := ih (fun v hv => hshow v (List.mem_cons_of_mem u hv)) h.2
    have hiff := isComment_of_holds h.1
    by_cases hu : u.kind = .comment ∧ u.children = []
    · have hcomment := hiff.mpr hu
      rw [withoutCommentsAll, if_pos hu, rootIds, List.filter_cons_of_neg (by simpa using hcomment)]
      exact hus
    · have hother := mt hiff.mp hu
      rw [withoutCommentsAll, if_neg hu, rootIds, List.filter_cons_of_pos (by simpa using hother)]
      exact ⟨id, _, rfl, hshow u List.mem_cons_self (some p) id h.1, hus⟩

/-- What stands in the arena is shown without its comments. -/
theorem shows_of_holds {t : SyntaxTree} (u : Tree) : ∀ {parent : Option Nat} {id : Nat},
    Holds t parent id u → Shows t parent id u.withoutComments := by
  induction u using Tree.induct with
  | hnode k s e ts ih =>
    intro parent id h
    exact ⟨_, h.1, rfl, rfl, rfl, rfl, rfl, showsAll_of_holdsAll (fun u hu _ _ => ih u hu) h.2⟩

/-- The syntax tree of a derived text is the tree of its derivation, but for comments. -/
theorem shows_parse (d : Document) (h : d.value.PlainBelow 0) :
    Shows (parse d.text) none 0 d.tree := by
  rw [← read_text d h]
  exact shows_of_holds _ (Tree.holds_place (read d.text) d.text)

theorem shows_parse_commented :
    ∃ d : Document, d.text = "/*a*/[ true, // b\n[]]//".toList ∧ d.value.PlainBelow 0 ∧
      Shows (parse d.text) none 0 d.tree := by
  let space : Filler := .blank ' ' (by decide)
  let line : Filler := .line [' ', 'b'] (by decide)
  let inner : Items .array := .last ⟨[space, line]⟩ .none (.empty .array ⟨[]⟩) ⟨[]⟩
  let d : Document :=
    { before := ⟨[.block ['a'] (by decide)]⟩
      value := .container .array (.cons ⟨[space]⟩ .none (.literal .true) ⟨[]⟩ inner)
      after := ⟨[]⟩
      open? := some ⟨[], by decide⟩ }
  have hplain : d.value.PlainBelow 0 := by
    simp [d, inner, Phrase.PlainBelow, Items.PlainBelow]
  exact ⟨d, by decide, hplain, shows_parse d hplain⟩

end NodeAtlas.Json
