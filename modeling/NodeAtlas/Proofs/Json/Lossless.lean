import NodeAtlas.Proofs.Json.Cover

/-!
A syntax tree loses nothing of its text, whatever the text is: spans are nested and ordered, and what
no node without children spans is white space.
-/

namespace NodeAtlas.Json

open Text

/-- An offset at which no character is cut. -/
def IsBoundary (text : List Char) (o : Nat) : Prop :=
  ∃ front rest, text = front ++ rest ∧ byteLength front = o

/-- An offset at which a space, tab, line feed, form feed or carriage return stands. -/
def IsGapAt (text : List Char) (o : Nat) : Prop :=
  ∃ front c rest, text = front ++ c :: rest ∧ byteLength front = o ∧ isGap c = true

/-- A tree in the arena that accounts for every byte of its text once. -/
structure Lossless (text : List Char) (t : SyntaxTree) : Prop where
  root : ∃ n, t.node? 0 = some n ∧ n.kind = "document" ∧ n.start = 0 ∧ n.stop = byteLength text
  nested : ∀ id n, id ≠ 0 → t.node? id = some n → n.start < n.stop ∧
    ∃ p m, n.parent = some p ∧ t.node? p = some m ∧ m.start ≤ n.start ∧ n.stop ≤ m.stop
  ordered : ∀ id, (t.children id).Pairwise fun a b =>
    ∃ m n, t.node? a = some m ∧ t.node? b = some n ∧ m.stop ≤ n.start
  boundary : ∀ id n, t.node? id = some n → IsBoundary text n.start ∧ IsBoundary text n.stop
  preorder : t.preorder.map Prod.fst = List.range t.size
  covered : ∀ o < byteLength text, IsGapAt text o ∨
    ∃ id n, id ≠ 0 ∧ t.node? id = some n ∧ n.children = [] ∧ n.start ≤ o ∧ o < n.stop

/-- A cursor at the beginning of a text. -/
def Cursor.start (text : List Char) : Cursor := ⟨0, text⟩

theorem Cursor.Reaches.isBoundary {text : List Char} {s : Cursor}
    (h : (Cursor.start text).Reaches s) : IsBoundary text s.offset := by
  obtain ⟨w, hrest, hoff⟩ := h
  exact ⟨w, s.rest, hrest, by simpa [Cursor.start] using hoff.symm⟩

theorem utf8Size_of_isGap {c : Char} (h : isGap c = true) : c.utf8Size = 1 := by
  rcases isGap_iff.mp h with rfl | rfl | rfl | rfl | rfl <;> rfl

theorem isGapAt_of_gap {text w : List Char} {s t : Cursor} {o : Nat} (hw : s.Passes w t)
    (hgap : ∀ c ∈ w, isGap c = true) (hs : (Cursor.start text).Reaches s) (ho : s.offset ≤ o)
    (ho' : o < t.offset) : IsGapAt text o := by
  induction w generalizing s with
  | nil =>
    have := hw.2
    simp only [byteLength_nil] at this
    omega
  | cons c w ih =>
    have hrest : s.rest = c :: (w ++ t.rest) := hw.1
    have hc : isGap c = true := hgap c List.mem_cons_self
    -- Every gap character is one byte, so an offset further on is one in the rest.
    by_cases heq : o = s.offset
    · obtain ⟨front, hfront, hoff⟩ := hs
      refine ⟨front, c, w ++ t.rest, ?_, ?_, hc⟩
      · rw [← hrest]
        exact hfront
      · rw [heq, hoff]
        simp [Cursor.start]
    · have hnext : s.next = ⟨s.offset + 1, w ++ t.rest⟩ := by
        simp [Cursor.next, hrest, utf8Size_of_isGap hc]
      have hoff := hw.2
      rw [byteLength_cons, utf8Size_of_isGap hc] at hoff
      apply ih (s := s.next) ⟨by rw [hnext], by rw [hnext, hoff, Nat.add_assoc]⟩
        (fun d hd => hgap d (List.mem_cons_of_mem c hd)) (hs.trans (Cursor.reaches_next s))
      rw [hnext]
      show s.offset + 1 ≤ o
      omega

/-! ## Covered trees -/

theorem CoversAll.exists_covers {s t : Cursor} {us : List Tree} (h : CoversAll s t us) {u : Tree}
    (hu : u ∈ us) : ∃ q r, s.Reaches q ∧ Covers q r u ∧ r.Reaches t := by
  induction us generalizing s with
  | nil => cases hu
  | cons v vs ih =>
    obtain ⟨q, r, hgap, hv, hvs⟩ := h
    rcases List.mem_cons.mp hu with rfl | hmem
    · exact ⟨q, r, hgap.reaches, hv, hvs.reaches⟩
    · obtain ⟨q', r', hq, hcov, hr⟩ := ih hvs hmem
      exact ⟨q', r', hgap.reaches.trans (hv.before.reaches.trans hq), hcov, hr⟩

theorem Covers.start_eq {s t : Cursor} {u : Tree} (h : Covers s t u) : u.start = s.offset := by
  cases u
  exact h.1

theorem Covers.stop_eq {s t : Cursor} {u : Tree} (h : Covers s t u) : u.stop = t.offset := by
  cases u
  exact h.2.1

/-- A tree spans a part of a text, and its children, if it has any, cover that part. -/
def Tiled (text : List Char) (u : Tree) : Prop :=
  ∃ s t, (Cursor.start text).Reaches s ∧ s.Reaches t ∧ u.start = s.offset ∧ u.stop = t.offset ∧
    (u.children ≠ [] → CoversAll s t u.children)

theorem Covers.tiled {text : List Char} {s t : Cursor} {u : Tree} (h : Covers s t u)
    (hs : (Cursor.start text).Reaches s) : Tiled text u := by
  cases u
  exact ⟨s, t, hs, h.before.reaches, h.1, h.2.1, h.2.2.2⟩

theorem Tiled.exists_covers {text : List Char} {u v : Tree} (h : Tiled text u)
    (hv : v ∈ u.children) : ∃ q r, (Cursor.start text).Reaches q ∧ Covers q r v ∧
      u.start ≤ q.offset ∧ r.offset ≤ u.stop := by
  obtain ⟨s, t, hs, -, hstart, hstop, hcov⟩ := h
  obtain ⟨q, r, hq, hqr, hr⟩ := (hcov (List.ne_nil_of_mem hv)).exists_covers hv
  exact ⟨q, r, hs.trans hq, hqr, hstart ▸ hq.offset_le, hstop ▸ hr.offset_le⟩

theorem Tiled.within {text : List Char} {u v : Tree} (h : Tiled text u) (hv : v.Within u) :
    Tiled text v := by
  induction hv with
  | self => exact h
  | child hmem _ ih =>
    obtain ⟨q, r, hq, hqr, -⟩ := (ih h).exists_covers hmem
    exact hqr.tiled hq

theorem CoversAll.isGapAt_or_exists {text : List Char} {s t : Cursor} {us : List Tree}
    (h : CoversAll s t us) (hs : (Cursor.start text).Reaches s) {o : Nat} (ho : s.offset ≤ o)
    (ho' : o < t.offset) : IsGapAt text o ∨ ∃ u ∈ us, ∃ q r, (Cursor.start text).Reaches q ∧
      Covers q r u ∧ q.offset ≤ o ∧ o < r.offset := by
  induction us generalizing s with
  | nil =>
    obtain ⟨w, hw, hgap⟩ := h
    exact .inl (isGapAt_of_gap hw hgap hs ho ho')
  | cons u us ih =>
    obtain ⟨q, r, ⟨w, hw, hgap⟩, hu, hus⟩ := h
    have hq : (Cursor.start text).Reaches q := hs.trans ⟨w, hw⟩
    by_cases hlt : o < q.offset
    · exact .inl (isGapAt_of_gap hw hgap hs ho hlt)
    by_cases hlt' : o < r.offset
    · exact .inr ⟨u, List.mem_cons_self, q, r, hq, hu, by omega, hlt'⟩
    rcases ih hus (hq.trans hu.before.reaches) (by omega) with hgapAt | ⟨v, hv, hrest⟩
    · exact .inl hgapAt
    · exact .inr ⟨v, List.mem_cons_of_mem u hv, hrest⟩

/-- What a tree spans is white space or inside a tree without children. -/
theorem Covers.isGapAt_or_exists {text : List Char} {o : Nat} (u : Tree) : ∀ {s t : Cursor},
    Covers s t u → (Cursor.start text).Reaches s → s.offset ≤ o → o < t.offset →
      IsGapAt text o ∨ ∃ v : Tree, v.Within u ∧ v.children = [] ∧ v.start ≤ o ∧ o < v.stop := by
  induction u using Tree.induct with
  | hnode k b e ts ih =>
    intro s t h hs ho ho'
    -- A tree without children accounts for its whole span, any other one leaves it to them.
    by_cases hnil : ts = []
    · exact .inr ⟨_, .self _, hnil, h.1 ▸ ho, h.2.1 ▸ ho'⟩
    rcases (h.2.2.2 hnil).isGapAt_or_exists hs ho ho' with hgap | ⟨u, hu, q, r, hq, hqr, hle, hlt⟩
    · exact .inl hgap
    rcases ih u hu hqr hq hle hlt with hgap | ⟨v, hv, hrest⟩
    · exact .inl hgap
    · have hun : u.Within (.node k b e ts) := .child (w := .node k b e ts) hu (.self _)
      exact .inr ⟨v, hv.trans hun, hrest⟩

/-! ## The arena -/

section Arena

variable {text : List Char} {t : SyntaxTree} {root : Tree}

/-- Every node of the arena is the root of a tree within the one that fills it. -/
theorem exists_holds (h : root.Holds t none 0) (hsize : t.size = root.count) {id : Nat}
    (hid : id < t.size) : ∃ (v : Tree) (gp : Option Nat), v.Within root ∧ v.Holds t gp id := by
  rcases Nat.eq_zero_or_pos id with rfl | hpos
  · exact ⟨root, none, .self root, h⟩
  · obtain ⟨v, w, -, q, hv, hw, -, hold, -⟩ := root.exists_within h hpos (by omega)
    exact ⟨v, some q, .child hv hw, hold⟩

theorem exists_of_mem_rootIds {s e : Cursor} {p id b : Nat} {us : List Tree}
    (h : Tree.HoldsAll t p id us) (hcov : CoversAll s e us) (hb : b ∈ Tree.rootIds id us) :
    ∃ n, t.node? b = some n ∧ s.offset ≤ n.start := by
  induction us generalizing s id with
  | nil => cases hb
  | cons u us ih =>
    obtain ⟨q, r, hgap, hu, hus⟩ := hcov
    rcases List.mem_cons.mp hb with rfl | hmem
    · have hle := hgap.reaches.offset_le
      rw [← hu.start_eq] at hle
      cases u
      exact ⟨_, h.1.1, hle⟩
    · obtain ⟨n, hn, hle⟩ := ih h.2 hus hmem
      exact ⟨n, hn, Nat.le_trans (hgap.reaches.trans hu.before.reaches).offset_le hle⟩

theorem pairwise_rootIds {s e : Cursor} {p id : Nat} {us : List Tree}
    (h : Tree.HoldsAll t p id us) (hcov : CoversAll s e us) :
    (Tree.rootIds id us).Pairwise fun a b =>
      ∃ m n, t.node? a = some m ∧ t.node? b = some n ∧ m.stop ≤ n.start := by
  induction us generalizing s id with
  | nil => exact List.Pairwise.nil
  | cons u us ih =>
    obtain ⟨q, r, hgap, hu, hus⟩ := hcov
    refine List.Pairwise.cons (fun b hb => ?_) (ih h.2 hus)
    obtain ⟨n, hn, hle⟩ := exists_of_mem_rootIds h.2 hus hb
    rw [← hu.stop_eq] at hle
    cases u
    exact ⟨_, n, h.1.1, hn, hle⟩

theorem Tree.Holds.node?_eq {gp : Option Nat} {id : Nat} {v : Tree} (h : v.Holds t gp id) :
    t.node? id = some ⟨v.kind.label, v.kind.named, v.start, v.stop, gp,
      Tree.rootIds (id + 1) v.children⟩ := by
  cases v
  exact h.1

/-- A tree that covers a text fills an arena that loses nothing of it. -/
theorem lossless_of_tiled (h : root.Holds t none 0) (hsize : t.size = root.count)
    (htiled : Tiled text root) (hkind : root.kind = .document) (hstart : root.start = 0)
    (hstop : root.stop = byteLength text) (hpre : t.preorder.map Prod.fst = List.range t.size)
    (hcov : ∃ e : Cursor, e.offset = byteLength text ∧
      CoversAll (Cursor.start text) e root.children) : Lossless text t where
  root := by
    refine ⟨_, h.node?_eq, ?_, hstart, hstop⟩
    rw [hkind]
    rfl
  nested id n hid hn := by
    have hlt := SyntaxTree.lt_size_of_node? hn
    obtain ⟨v, w, gp, q, hv, hw, hhold, hold, -⟩ :=
      root.exists_within h (Nat.pos_of_ne_zero hid) (by omega)
    obtain ⟨a, b, -, hab, hle, hle'⟩ := (htiled.within hw).exists_covers hv
    rw [hold.node?_eq] at hn
    cases hn
    have hlt := hab.before.offset_lt
    rw [← hab.start_eq, ← hab.stop_eq] at hlt
    rw [← hab.start_eq] at hle
    rw [← hab.stop_eq] at hle'
    exact ⟨hlt, q, _, rfl, hhold.node?_eq, hle, hle'⟩
  ordered id := by
    by_cases hid : id < t.size
    · obtain ⟨v, gp, hv, hold⟩ := exists_holds h hsize hid
      rw [hold.children_eq]
      by_cases hnil : v.children = []
      · rw [hnil]
        exact List.Pairwise.nil
      · obtain ⟨a, b, -, -, -, -, hall⟩ := htiled.within hv
        cases v
        exact pairwise_rootIds hold.2 (hall hnil)
    · have hnone : t.children id = [] := by
        simp [SyntaxTree.children, SyntaxTree.node?_eq_none (Nat.le_of_not_lt hid)]
      rw [hnone]
      exact List.Pairwise.nil
  boundary id n hn := by
    obtain ⟨v, gp, hv, hold⟩ := exists_holds h hsize (SyntaxTree.lt_size_of_node? hn)
    obtain ⟨a, b, ha, hab, hstart, hstop, -⟩ := htiled.within hv
    rw [hold.node?_eq] at hn
    cases hn
    rw [hstart, hstop]
    exact ⟨ha.isBoundary, (ha.trans hab).isBoundary⟩
  preorder := hpre
  covered o ho := by
    obtain ⟨e, he, hall⟩ := hcov
    rcases hall.isGapAt_or_exists (Cursor.reaches_refl _) (Nat.zero_le o) (he ▸ ho) with
      hgap | ⟨u, hu, q, r, hq, hqr, hle, hlt⟩
    · exact .inl hgap
    rcases hqr.isGapAt_or_exists u hq hle hlt with hgap | ⟨v, hv, hnil, hle', hlt'⟩
    · exact .inl hgap
    · have hold : Tree.HoldsAll t 0 1 root.children := by
        cases root
        exact h.2
      obtain ⟨i, hi, hui⟩ := Tree.exists_holds_of_mem hold hu
      obtain ⟨gp, j, hj, hvj⟩ := hui.exists_of_within hv
      refine .inr ⟨j, _, by omega, hvj.node?_eq, ?_, hle', hlt'⟩
      simp [hnil, Tree.rootIds]

end Arena

/-- Reading a text gives a tree that loses nothing of it. -/
theorem lossless_parse (text : List Char) : Lossless text (parse text) := by
  obtain ⟨e, hrest, hcov⟩ := coversAll_documentItems (Cursor.start text)
  have hreach := hcov.reaches
  have hend : e.offset = byteLength text := by
    obtain ⟨w, hw, hoff⟩ := hreach
    rw [hrest, List.append_nil] at hw
    simpa [Cursor.start, ← hw] using hoff
  have htiled : Tiled text (read text) :=
    ⟨Cursor.start text, e, Cursor.reaches_refl _, hreach, rfl, hend.symm, fun _ => hcov⟩
  have hsize : (parse text).size = (read text).count := Tree.size_place _ _
  have hpre := Tree.map_preorder_place (read text) text
  rw [← hsize] at hpre
  exact lossless_of_tiled (Tree.holds_place _ _) hsize htiled rfl rfl rfl hpre ⟨e, hend, hcov⟩

end NodeAtlas.Json
