import NodeAtlas.Proofs.Json.Parts

/-!
Every node has the children its kind asks for, also where the text does not fit the grammar: an error
takes the place of an item or of a whole pair, never of a bracket or a comma.
-/

namespace NodeAtlas.Json

open Text

/-- The kinds of some trees without the comments. -/
def Tree.kindsOf (ts : List Tree) : List String := kinds (ts.map Tree.part)

open NodeAtlas.Json.Tree (kindsOf)

theorem kindsOf_append (ts us : List Tree) : kindsOf (ts ++ us) = kindsOf ts ++ kindsOf us := by
  simp [kindsOf, kinds]

theorem kindsOf_cons {u : Tree} (h : u.kind.label ≠ "comment") (us : List Tree) :
    kindsOf (u :: us) = u.kind.label :: kindsOf us := by
  simp [kindsOf, kinds, Tree.part, h]

theorem kindsOf_token (c : Char) (s : Cursor) (us : List Tree) :
    kindsOf (token c s :: us) = .singleton c :: kindsOf us :=
  kindsOf_cons (u := token c s) (label_token_ne c (by decide)) us

theorem kindsOf_errorUntil (stops : Char → Bool) (s : Cursor) (us : List Tree) :
    kindsOf ((errorUntil stops s).1 :: us) = "ERROR" :: kindsOf us := by
  have hne : (errorUntil stops s).1.kind.label ≠ "comment" := by
    show "ERROR" ≠ "comment"
    decide
  rw [kindsOf_cons hne]
  rfl

theorem fits_trivia (text : List Char) (s : Cursor) :
    ∀ u ∈ (trivia s).1, Fits text ["comment"] u :=
  forall_mem_trivia (fits_leaf text (k := .comment) trivial (by decide)) s

theorem sound_trivia (text : List Char) (s : Cursor) : ∀ u ∈ (trivia s).1, u.Sound text :=
  fun u hu => (fits_trivia text s u hu).1

theorem kindsOf_trivia (s : Cursor) : kindsOf (trivia s).1 = [] := by
  rw [kindsOf, kinds, List.filter_eq_nil_iff, List.forall_mem_map, List.forall_mem_map]
  intro u hu
  have hkind := List.mem_singleton.mp (fits_trivia [] s u hu).2
  simp [Tree.part, hkind]

/-! ## Lines of items -/

/-- Items and commas, each comma right behind an item. -/
structure Line (items ks : List String) : Prop where
  mem : ∀ k ∈ ks, k ∈ items ∨ k = ","
  head : ks.head? ≠ some ","
  chain : ks.IsChain fun j k => k = "," → j ∈ items

/-- An error may stand for an item, and neither a comma nor a comment is one. -/
structure AreItems (items : List String) : Prop where
  error : "ERROR" ∈ items
  comma : "," ∉ items
  comment : "comment" ∉ items

section Line

variable {items : List String}

theorem line_nil : Line items [] := ⟨by simp, by simp, .nil⟩

theorem Line.append {ks ks' : List String} (h : Line items ks) (h' : Line items ks') :
    Line items (ks ++ ks') where
  mem := List.forall_mem_append.mpr ⟨h.mem, h'.mem⟩
  head := by
    cases ks with
    | nil => exact h'.head
    | cons k ks => exact h.head
  chain := by
    apply h.chain.append h'.chain
    intro j _ k hk hcomma
    rw [hcomma] at hk
    exact absurd hk h'.head

theorem line_item (hitems : AreItems items) {k : String} (h : k ∈ items) : Line items [k] where
  mem := List.forall_mem_singleton.mpr (.inl h)
  head := by
    intro hcomma
    cases hcomma
    exact hitems.comma h
  chain := .singleton k

theorem line_comma (hitems : AreItems items) {k : String} (h : k ∈ items) :
    Line items [k, ","] where
  mem := List.forall_mem_cons.mpr ⟨.inl h, List.forall_mem_singleton.mpr (.inr rfl)⟩
  head := (line_item hitems h).head
  chain := .cons_cons (fun _ => h) (.singleton _)

/-- What comes behind the opening bracket of a container. -/
theorem Line.bracketed {ks last : List String} {opening closing : String} {atEnd : Prop}
    (h : Line items ks) (hlast : last = [closing] ∨ last = [] ∧ atEnd) (hclosing : closing ≠ ",") :
    Bracketed opening closing items atEnd (opening :: (ks ++ last)) := by
  have hhead : last.head? ≠ some "," := by
    rcases hlast with rfl | ⟨rfl, -⟩ <;> simp [hclosing]
  have hchain : last.IsChain fun j k => k = "," → j ∈ items := by
    rcases hlast with rfl | ⟨rfl, -⟩
    · exact .singleton closing
    · exact .nil
  -- No comma stands behind the items, and none right behind the opening bracket.
  refine ⟨ks, last, rfl, h.mem, hlast, List.IsChain.cons (h.chain.append hchain ?_) ?_⟩
  · intro j _ k hk hcomma
    rw [hcomma] at hk
    exact absurd hk hhead
  · intro k hk hcomma
    rw [hcomma] at hk
    cases ks with
    | nil => exact absurd hk hhead
    | cons j ks => exact absurd hk h.head

end Line

/-! ## Containers -/

theorem CoversAll.before {s t : Cursor} {us : List Tree} (h : CoversAll s t us) (hne : us ≠ []) :
    s.Before t := by
  cases us with
  | nil => exact absurd rfl hne
  | cons u us =>
    obtain ⟨q, r, hgap, hu, hus⟩ := h
    exact hgap.reaches.before (hu.before.trans hus.reaches)

theorem sound_separator (text : List Char) (closing : Char) (s : Cursor) :
    ∀ u ∈ (separator closing s).1, u.Sound text :=
  forall_mem_separator (fun _ s t hk => sound_leaf text hk s t) closing s

/-- An item with what separates it from the next one. -/
theorem line_separator {items : List String} (hitems : AreItems items) {k : String}
    (h : k ∈ items) (closing : Char) (s : Cursor) :
    Line items (k :: kindsOf (separator closing s).1) := by
  unfold separator
  split
  · exact line_item hitems h
  split
  · exact line_comma hitems h
  split
  · exact line_item hitems h
  dsimp only
  split
  · rw [kindsOf_errorUntil, kindsOf_token]
    exact (line_item hitems h).append (line_comma hitems hitems.error)
  · rw [kindsOf_errorUntil]
    exact (line_item hitems h).append (line_item hitems hitems.error)

/-- What a round of a container adds. -/
structure RoundFits (text : List Char) (closing : String) (items : List String) (r : Round) :
    Prop where
  sound : ∀ u ∈ r.nodes, u.Sound text
  last : r.last = true →
    kindsOf r.nodes = [closing] ∨ kindsOf r.nodes = [] ∧ r.cursor.rest = []
  more : r.last = false → r.nodes ≠ [] ∧ Line items (kindsOf r.nodes)

section Items

variable {text : List Char} {shape : Shape} {item : Cursor → Tree × Cursor} {ks : List String}
  (hks : AreItems ks)
  (hcovers : ∀ s c rest, s.rest = c :: rest → shape.startsItem c = true →
    Covers s (item s).2 (item s).1)
  (hitem : ∀ s c rest, (Cursor.start text).Reaches s → s.rest = c :: rest →
    shape.startsItem c = true → Fits text ks (item s).1)

include hks in
/-- A round with an error in the place of an item. -/
theorem roundFits_error (stops : Char → Bool) (s : Cursor) :
    RoundFits text (.singleton shape.closing) ks
      ⟨(trivia s).1 ++ [(errorUntil stops (trivia s).2).1], (errorUntil stops (trivia s).2).2,
        false⟩ where
  sound := List.forall_mem_append.mpr ⟨sound_trivia text s,
    List.forall_mem_singleton.mpr (fits_errorUntil text hks.error stops _).1⟩
  last hlast := by cases hlast
  more _ := by
    refine ⟨by simp, ?_⟩
    rw [kindsOf_append, kindsOf_trivia, kindsOf_errorUntil]
    exact line_item hks hks.error

include hks hitem in
theorem roundFits {s : Cursor} (hs : (Cursor.start text).Reaches s) :
    RoundFits text (.singleton shape.closing) ks (round shape item s) := by
  have ht := hs.trans (coversAll_trivia s).reaches
  have hgap := sound_trivia text s
  unfold round
  dsimp only
  split
  · next h => exact ⟨hgap, fun _ => .inr ⟨kindsOf_trivia s, h⟩, by simp⟩
  · next c rest h =>
    split
    · next hclosing =>
      have htoken : (token c (trivia s).2).Sound text :=
        sound_leaf text (k := .token c) trivial _ _
      refine ⟨List.forall_mem_append.mpr ⟨hgap, List.forall_mem_singleton.mpr htoken⟩,
        fun _ => .inl ?_, by simp⟩
      rw [kindsOf_append, kindsOf_trivia, kindsOf_token, hclosing]
      rfl
    split
    · exact roundFits_error hks _ s
    split
    · next hstart =>
      obtain ⟨hsound, hkind⟩ := hitem _ c rest ht h hstart
      have hne : (item (trivia s).2).1.kind.label ≠ "comment" :=
        ne_of_mem_of_not_mem hkind hks.comment
      refine ⟨?_, by simp, fun _ => ⟨by simp, ?_⟩⟩
      · exact List.forall_mem_append.mpr ⟨List.forall_mem_append.mpr ⟨hgap,
          List.forall_mem_cons.mpr ⟨hsound, sound_trivia text _⟩⟩, sound_separator text _ _⟩
      · rw [kindsOf_append, kindsOf_append, kindsOf_trivia, List.nil_append, kindsOf_cons hne,
          kindsOf_trivia]
        exact line_separator hks hkind _ _
    · exact roundFits_error hks _ s

include hks hcovers hitem in
/-- The items of a container up to its closing bracket or the end of the text. -/
theorem items_fit {s : Cursor} (hs : (Cursor.start text).Reaches s) :
    (∀ u ∈ (items shape item s).1, u.Sound text) ∧
      ∃ inner last, kindsOf (items shape item s).1 = inner ++ last ∧ Line ks inner ∧
        (last = [.singleton shape.closing] ∨ last = [] ∧ (items shape item s).2.rest = []) := by
  fun_induction items shape item s with
  | case1 s r h more t hitems ih =>
    have hr : RoundFits text (.singleton shape.closing) ks r := roundFits hks hitem hs
    obtain ⟨-, hline⟩ := hr.more h.1
    obtain ⟨hsound, inner, last, hkinds, hinner, hlast⟩ :=
      ih (hs.trans (coversAll_round hcovers s).reaches)
    rw [hitems] at hsound hkinds hlast
    refine ⟨List.forall_mem_append.mpr ⟨hr.sound, hsound⟩,
      kindsOf r.nodes ++ inner, last, ?_, hline.append hinner, hlast⟩
    rw [kindsOf_append, hkinds, List.append_assoc]
  | case2 s r h =>
    have hr : RoundFits text (.singleton shape.closing) ks r := roundFits hks hitem hs
    -- A round that is not the last moves on.
    have hlast : r.last = true := by
      by_contra hmore
      have hfalse : r.last = false := by simpa using hmore
      exact h ⟨hfalse, ((coversAll_round hcovers s).before (hr.more hfalse).1).length_lt⟩
    exact ⟨hr.sound, [], kindsOf r.nodes, rfl, line_nil, hr.last hlast⟩

theorem Cursor.Reaches.offset_eq {s : Cursor} (h : (Cursor.start text).Reaches s)
    (hend : s.rest = []) : s.offset = byteLength text := by
  obtain ⟨w, hw, hoff⟩ := h
  rw [hend, List.append_nil] at hw
  simpa [Cursor.start, ← hw] using hoff

include hks hcovers hitem in
theorem sound_container (hclosing : String.singleton shape.closing ≠ ",")
    (hproper : ∀ start stop children,
      Bracketed (.singleton shape.opening) (.singleton shape.closing) ks (stop = byteLength text)
        (kinds children) → Proper text ⟨shape.kind.label, start, stop⟩ children)
    {s : Cursor} (hs : (Cursor.start text).Reaches s) : (container shape item s).1.Sound text := by
  have hnext := hs.trans (Cursor.reaches_next s)
  obtain ⟨hsound, inner, last, hkinds, hinner, hlast⟩ := items_fit hks hcovers hitem hnext
  have hreach := hnext.trans (coversAll_items hcovers s.next).reaches
  apply Tree.sound_node
  · apply hproper
    show Bracketed _ _ _ _ (kindsOf (token shape.opening s :: (items shape item s.next).1))
    rw [kindsOf_token, hkinds]
    exact hinner.bracketed (hlast.imp_right fun h => ⟨h.1, hreach.offset_eq h.2⟩) hclosing
  · exact List.forall_mem_cons.mpr
      ⟨sound_leaf text (k := .token shape.opening) trivial _ _, hsound⟩

end Items

theorem areItems_pairKinds : AreItems pairKinds := ⟨by decide, by decide, by decide⟩

theorem areItems_valueKinds : AreItems valueKinds := ⟨by decide, by decide, by decide⟩

theorem proper_object {text : List Char} {start stop : Nat} {children : List Part}
    (h : Bracketed "\x7b" "\x7d" pairKinds (stop = byteLength text) (kinds children)) :
    Proper text ⟨"object", start, stop⟩ children := by
  constructor
  case object => exact fun _ => h
  all_goals simp

theorem proper_array {text : List Char} {start stop : Nat} {children : List Part}
    (h : Bracketed "[" "]" valueKinds (stop = byteLength text) (kinds children)) :
    Proper text ⟨"array", start, stop⟩ children := by
  constructor
  case array => exact fun _ => h
  all_goals simp

/-! ## Pairs and values -/

/-- The trees of a key, a value and comments make a pair. -/
theorem proper_pair {text : List Char} {k x : Tree} {gap gap' : List Tree} {s : Cursor}
    {start stop : Nat} (hkey : k.kind.label ∈ keyKinds) (hvalue : x.kind.label ∈ valueKinds)
    (hgap : kindsOf gap = []) (hgap' : kindsOf gap' = []) :
    Proper text ⟨"pair", start, stop⟩
      ((k :: gap ++ token ':' s :: gap' ++ [x]).map Tree.part) := by
  have hne : k.kind.label ≠ "comment" := ne_of_mem_of_not_mem hkey (by decide)
  have hne' : x.kind.label ≠ "comment" := ne_of_mem_of_not_mem hvalue (by decide)
  constructor
  case pair =>
    intro _
    refine ⟨_, hkey, _, hvalue, ?_⟩
    show kindsOf _ = _
    rw [kindsOf_append, List.cons_append, kindsOf_cons hne, kindsOf_append, hgap, kindsOf_token,
      hgap', kindsOf_cons hne']
    rfl
  all_goals simp

theorem fits_pair {text : List Char} {value : Cursor → Tree × Cursor}
    (hvalue : ∀ s c rest, (Cursor.start text).Reaches s → s.rest = c :: rest →
      startsValue c = true → Fits text valueKinds (value s).1)
    {s : Cursor} (hcovers : Covers s (key s).2 (key s).1)
    (hs : (Cursor.start text).Reaches s) : Fits text pairKinds (pair value s).1 := by
  obtain ⟨hkey, hkind⟩ := fits_key hs
  have hu := (hs.trans hcovers.before.reaches).trans (coversAll_trivia (key s).2).reaches
  have hv := (hu.trans (Cursor.reaches_next _)).trans
    (coversAll_trivia (trivia (key s).2).2.next).reaches
  have hbegin : ∀ u ∈ (key s).1 :: (trivia (key s).2).1, u.Sound text :=
    List.forall_mem_cons.mpr ⟨hkey, sound_trivia text _⟩
  have hfront : ∀ u ∈ (key s).1 :: (trivia (key s).2).1 ++ token ':' (trivia (key s).2).2 ::
      (trivia (trivia (key s).2).2.next).1, u.Sound text :=
    List.forall_mem_append.mpr ⟨hbegin, List.forall_mem_cons.mpr
      ⟨sound_leaf text (k := .token ':') trivial _ _, sound_trivia text _⟩⟩
  have herror {start stop : Nat} {ts : List Tree} (hts : ∀ u ∈ ts, u.Sound text) :
      Fits text pairKinds (.node .error start stop ts) :=
    fits_of_kind (k := .error) rfl (by decide)
      (Tree.sound_node (proper_of_isFree (k := .error) trivial _ _ _) hts)
  -- Without its colon or its value a pair is an error that keeps what was read.
  unfold pair
  dsimp only
  split
  · split
    · next c rest h =>
      split
      · next hstart =>
        obtain ⟨hsound, hkind'⟩ := hvalue _ c rest hv h hstart
        apply fits_of_kind (k := .pair) rfl (by decide)
        exact Tree.sound_node (proper_pair hkind hkind' (kindsOf_trivia _) (kindsOf_trivia _))
          (List.forall_mem_append.mpr ⟨hfront, List.forall_mem_singleton.mpr hsound⟩)
      · exact herror hfront
    · exact herror hfront
  · exact herror hbegin

theorem fits_value {text : List Char} (room : Nat) {s : Cursor}
    (hs : (Cursor.start text).Reaches s) : Fits text valueKinds (value room s).1 := by
  induction room generalizing s with
  | zero =>
    unfold value
    split
    · exact fits_tooDeep text s
    · exact fits_scalar hs
  | succ room ih =>
    have hcovers : ∀ s c rest, s.rest = c :: rest → startsValue c = true →
        Covers s (value room s).2 (value room s).1 :=
      fun s c rest hrest _ => covers_value room (by simp [hrest])
    have hvalue : ∀ s c rest, (Cursor.start text).Reaches s → s.rest = c :: rest →
        startsValue c = true → Fits text valueKinds (value room s).1 :=
      fun s c rest hs _ _ => ih hs
    unfold value
    split
    · apply fits_of_kind (k := .object) rfl (by decide)
      exact @sound_container text .object _ pairKinds areItems_pairKinds
        (fun s c rest => covers_pair hcovers)
        (fun s c rest hs hrest hc => fits_pair hvalue (covers_key hrest hc) hs) (by decide)
        (fun _ _ _ => proper_object) s hs
    split
    · apply fits_of_kind (k := .array) rfl (by decide)
      exact @sound_container text .array _ valueKinds areItems_valueKinds hcovers hvalue
        (by decide) (fun _ _ _ => proper_array) s hs
    · exact fits_scalar hs

/-! ## Documents -/

theorem fits_documentItem {text : List Char} {s t : Cursor} {c : Char} {x : Tree}
    (hs : (Cursor.start text).Reaches s)
    (hx : (if _ : startsValue c = true then value maxNesting s
      else errorUntil (fun c => isGap c || startsValue c) s) = (x, t)) :
    Fits text valueKinds x := by
  split at hx
  · have hfits := fits_value maxNesting hs
    rwa [hx] at hfits
  · have hfits := fits_errorUntil text (by decide : "ERROR" ∈ valueKinds)
      (fun c => isGap c || startsValue c) s
    rwa [hx] at hfits

/-- A document has values with comments between them. -/
theorem fits_documentItems {text : List Char} {s : Cursor}
    (hs : (Cursor.start text).Reaches s) :
    ∀ u ∈ documentItems s, Fits text ("comment" :: valueKinds) u := by
  have hgap (s : Cursor) : ∀ u ∈ (trivia s).1, Fits text ("comment" :: valueKinds) u :=
    fun u hu => (fits_trivia text s u hu).mono (by decide)
  fun_induction documentItems s with
  | case1 s gap t htrivia hrest =>
    have hcomments := hgap s
    rw [htrivia] at hcomments
    exact hcomments
  | case2 s gap t htrivia c rest hrest x u hx hlt ih =>
    have hcomments := hgap s
    have ht := hs.trans (coversAll_trivia s).reaches
    rw [htrivia] at hcomments ht
    have hitem := (fits_documentItem ht hx).mono (List.subset_cons_self "comment" valueKinds)
    have hu := ht.trans (covers_documentItem (by simp [hrest]) hx).before.reaches
    exact List.forall_mem_append.mpr ⟨hcomments, List.forall_mem_cons.mpr ⟨hitem, ih hu⟩⟩
  | case3 s gap t htrivia c rest hrest x u hx hlt =>
    have hcomments := hgap s
    have ht := hs.trans (coversAll_trivia s).reaches
    rw [htrivia] at hcomments ht
    have hitem := (fits_documentItem ht hx).mono (List.subset_cons_self "comment" valueKinds)
    exact List.forall_mem_append.mpr ⟨hcomments, List.forall_mem_singleton.mpr hitem⟩

theorem sound_read (text : List Char) : (read text).Sound text := by
  have hitems := fits_documentItems (Cursor.reaches_refl (Cursor.start text))
  apply Tree.sound_node _ fun u hu => (hitems u hu).1
  constructor
  case document =>
    intro _ k hk
    obtain ⟨hmem, hne⟩ := List.mem_filter.mp hk
    rw [List.map_map] at hmem
    obtain ⟨u, hu, rfl⟩ := List.mem_map.mp hmem
    exact List.mem_of_ne_of_mem (by simpa using hne) (hitems u hu).2
  all_goals simp [NodeKind.label]

/-! ## The arena -/

/-- Every node has the children its kind asks for. -/
def WellFormed (text : List Char) (t : SyntaxTree) : Prop :=
  ∀ id p, t.part? id = some p → Proper text p (t.parts id)

theorem Tree.Holds.part?_eq {t : SyntaxTree} {gp : Option Nat} {id : Nat} {u : Tree}
    (h : u.Holds t gp id) : t.part? id = some u.part := by
  rw [SyntaxTree.part?, h.node?_eq]
  rfl

theorem Tree.HoldsAll.parts_eq {t : SyntaxTree} {p id : Nat} {us : List Tree}
    (h : Tree.HoldsAll t p id us) :
    (Tree.rootIds id us).filterMap t.part? = us.map Tree.part := by
  induction us generalizing id with
  | nil => rfl
  | cons u us ih =>
    rw [Tree.rootIds, List.filterMap_cons, h.1.part?_eq, ih h.2]
    rfl

theorem Tree.Holds.parts_eq {t : SyntaxTree} {gp : Option Nat} {id : Nat} {u : Tree}
    (h : u.Holds t gp id) : t.parts id = u.children.map Tree.part := by
  rw [SyntaxTree.parts, h.children_eq]
  cases u
  exact Tree.HoldsAll.parts_eq h.2

/-- Whatever a text is, the nodes of its tree have the children that their kinds ask for. -/
theorem wellFormed_parse (text : List Char) : WellFormed text (parse text) := by
  intro id p hp
  have hid : id < (parse text).size := by
    obtain ⟨n, hn, -⟩ := Option.map_eq_some_iff.mp hp
    exact SyntaxTree.lt_size_of_node? hn
  have hplace : (read text).Holds (parse text) none 0 := Tree.holds_place _ _
  obtain ⟨v, gp, hv, hold⟩ := exists_holds hplace (Tree.size_place _ _) hid
  rw [hold.part?_eq] at hp
  cases hp
  rw [hold.parts_eq]
  exact sound_read text v hv

end NodeAtlas.Json
