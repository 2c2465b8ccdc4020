import Mathlib.Data.List.Chain
import NodeAtlas.Proofs.Json.Grammar
import NodeAtlas.Proofs.Json.Lossless

/-!
The children that a node has to have. Comments may stand among the children of a container, a pair or
a document and are left out of account.
-/

namespace NodeAtlas

/-- The kind and the span of a node. -/
structure Part where
  kind : String
  start : Nat
  stop : Nat
  deriving DecidableEq, Repr

namespace SyntaxTree

def part? (t : SyntaxTree) (id : Nat) : Option Part :=
  (t.node? id).map fun n => ⟨n.kind, n.start, n.stop⟩

def parts (t : SyntaxTree) (id : Nat) : List Part := (t.children id).filterMap t.part?

end SyntaxTree

namespace Json

open Text Grammar

/-- The kinds of some nodes without the comments. -/
def kinds (ps : List Part) : List String := (ps.map Part.kind).filter (· ≠ "comment")

def keyKinds : List String := ["string", "number", "ERROR"]

def valueKinds : List String :=
  ["object", "array", "string", "number", "true", "false", "null", "ERROR"]

def pairKinds : List String := ["pair", "ERROR"]

/-- The kinds of the children of a container: its opening bracket, then items and commas, then its
closing bracket unless the text ends before it. A comma comes right behind an item. -/
def Bracketed (opening closing : String) (items : List String) (atEnd : Prop)
    (ks : List String) : Prop :=
  ∃ inner last, ks = opening :: (inner ++ last) ∧ (∀ k ∈ inner, k ∈ items ∨ k = ",") ∧
    (last = [closing] ∨ last = [] ∧ atEnd) ∧ ks.IsChain fun j k => k = "," → j ∈ items

/-- Nodes that fill a span one after another. -/
def Abut (start stop : Nat) : List Part → Prop
  | [] => start = stop
  | p :: ps => p.start = start ∧ Abut p.stop stop ps

/-- One digit or more. -/
def IsDigits (w : List Char) : Prop := w ≠ [] ∧ ∀ c ∈ w, IsDigit c

def IsFraction (w : List Char) : Prop := ∃ ds, IsDigits ds ∧ w = '.' :: ds

def IsExponent (w : List Char) : Prop :=
  ∃ mark sign ds, (mark = 'e' ∨ mark = 'E') ∧ (sign = [] ∨ sign = ['+'] ∨ sign = ['-']) ∧
    IsDigits ds ∧ w = mark :: (sign ++ ds)

/-- A number as it may be written. Unlike a numeral of the grammar it may begin with zeros. -/
def IsNumberText (w : List Char) : Prop :=
  ∃ sign whole fraction exponent, (sign = [] ∨ sign = ['-']) ∧ IsDigits whole ∧
    (fraction = [] ∨ IsFraction fraction) ∧ (exponent = [] ∨ IsExponent exponent) ∧
    w = sign ++ (whole ++ (fraction ++ exponent))

/-- A node of a text that has the children its kind asks for. -/
structure Proper (text : List Char) (p : Part) (children : List Part) : Prop where
  document : p.kind = "document" → ∀ k ∈ kinds children, k ∈ valueKinds
  object : p.kind = "object" →
    Bracketed "\x7b" "\x7d" pairKinds (p.stop = byteLength text) (kinds children)
  array : p.kind = "array" →
    Bracketed "[" "]" valueKinds (p.stop = byteLength text) (kinds children)
  pair : p.kind = "pair" → ∃ k ∈ keyKinds, ∃ v ∈ valueKinds, kinds children = [k, ":", v]
  string : p.kind = "string" → Abut p.start p.stop children ∧
    ∃ inner, children.map Part.kind = "\"" :: (inner ++ ["\""]) ∧
      ∀ k ∈ inner, k = "string_content" ∨ k = "escape_sequence"
  number : p.kind = "number" → ∃ w, slice? text p.start p.stop = some w ∧ IsNumberText w

/-! ## Trees -/

namespace Tree

def part (u : Tree) : Part := ⟨u.kind.label, u.start, u.stop⟩

/-- Every tree within is proper. -/
def Sound (text : List Char) (u : Tree) : Prop :=
  ∀ v : Tree, v.Within u → Proper text v.part (v.children.map part)

theorem within_node {v : Tree} {k : NodeKind} {s e : Nat} {ts : List Tree}
    (h : v.Within (.node k s e ts)) : v = .node k s e ts ∨ ∃ u ∈ ts, v.Within u := by
  generalize hu : Tree.node k s e ts = u at h
  induction h with
  | self => exact .inl rfl
  | @child v w u hv _ ih =>
    rcases ih hu with rfl | ⟨x, hx, hwx⟩
    · subst hu
      exact .inr ⟨v, hv, .self v⟩
    · exact .inr ⟨x, hx, .child hv hwx⟩

theorem sound_node {text : List Char} {k : NodeKind} {s e : Nat} {ts : List Tree}
    (h : Proper text ⟨k.label, s, e⟩ (ts.map part)) (hts : ∀ u ∈ ts, u.Sound text) :
    (Tree.node k s e ts).Sound text := by
  intro v hv
  rcases within_node hv with rfl | ⟨u, hu, hvu⟩
  · exact h
  · exact hts u hu v hvu

end Tree

theorem label_token_ne (c : Char) {s : String} (h : s.length ≠ 1) :
    (NodeKind.token c).label ≠ s := by
  intro heq
  rw [← heq, NodeKind.label, String.length_singleton] at h
  exact h rfl

/-- Nodes of these kinds may have any children, or none. -/
def IsFree : NodeKind → Prop
  | .document | .object | .array | .pair | .string | .number => False
  | _ => True

theorem proper_of_isFree {text : List Char} {k : NodeKind} (h : IsFree k) (s e : Nat)
    (children : List Part) : Proper text ⟨k.label, s, e⟩ children := by
  have hne : ∀ j ∈ ["document", "object", "array", "pair", "string", "number"], k.label ≠ j := by
    cases k with
    | token c =>
      intro j hj
      apply label_token_ne
      revert j
      decide
    | document | object | array | pair | string | number => exact h.elim
    | _ => decide
  constructor
  all_goals
    intro heq
    exact absurd heq (hne _ (by decide))

theorem sound_leaf (text : List Char) {k : NodeKind} (h : IsFree k) (s t : Cursor) :
    (leaf k s t).Sound text :=
  Tree.sound_node (proper_of_isFree h _ _ _) fun _ hu => absurd hu List.not_mem_nil

/-- A sound tree of one of some kinds. -/
def Fits (text : List Char) (ks : List String) (u : Tree) : Prop :=
  u.Sound text ∧ u.kind.label ∈ ks

theorem Fits.mono {text : List Char} {ks ks' : List String} {u : Tree} (h : Fits text ks u)
    (hks : ks ⊆ ks') : Fits text ks' u :=
  ⟨h.1, hks h.2⟩

theorem fits_of_kind {text : List Char} {ks : List String} {u : Tree} {k : NodeKind}
    (hkind : u.kind = k) (hk : k.label ∈ ks) (h : u.Sound text) : Fits text ks u := by
  subst hkind
  exact ⟨h, hk⟩

theorem fits_leaf (text : List Char) {ks : List String} {k : NodeKind} (h : IsFree k)
    (hk : k.label ∈ ks) (s t : Cursor) : Fits text ks (leaf k s t) :=
  ⟨sound_leaf text h s t, hk⟩

theorem fits_errorUntil (text : List Char) {ks : List String} (h : "ERROR" ∈ ks)
    (stops : Char → Bool) (s : Cursor) : Fits text ks (errorUntil stops s).1 :=
  fits_leaf text (k := .error) trivial h _ _

theorem fits_tooDeep (text : List Char) (s : Cursor) : Fits text valueKinds (tooDeep s).1 :=
  fits_leaf text (k := .error) trivial (by decide) _ _

theorem fits_word (text : List Char) (s : Cursor) : Fits text valueKinds (word s).1 := by
  unfold word
  dsimp only
  split
  · exact fits_leaf text (k := .true) trivial (by decide) _ _
  · exact fits_leaf text (k := .false) trivial (by decide) _ _
  · exact fits_leaf text (k := .null) trivial (by decide) _ _
  · exact fits_leaf text (k := .error) trivial (by decide) _ _

/-! ## What reading adds -/

section Added

variable {P : Tree → Prop}

theorem forall_mem_trivia (hcomment : ∀ s t, P (leaf .comment s t)) (s : Cursor) :
    ∀ u ∈ (trivia s).1, P u := by
  fun_induction trivia s with
  | case1 s => simp
  | case2 s rest h t more u htrivia ih =>
    rw [htrivia] at ih
    exact List.forall_mem_cons.mpr ⟨hcomment s t, ih⟩
  | case3 s rest h t more u htrivia ih =>
    rw [htrivia] at ih
    exact List.forall_mem_cons.mpr ⟨hcomment s t, ih⟩
  | case4 s c rest _ _ h hgap ih => exact ih
  | case5 s => simp

variable (hleaf : ∀ k s t, IsFree k → P (leaf k s t))
include hleaf

theorem forall_mem_stringParts (s : Cursor) : ∀ u ∈ (stringParts s).1, P u := by
  fun_induction stringParts s with
  | case1 s => simp
  | case2 s => simp
  | case3 s rest h => exact List.forall_mem_singleton.mpr (hleaf _ s s.next trivial)
  | case4 s rest h t more r hparts ih =>
    rw [hparts] at ih
    exact List.forall_mem_cons.mpr ⟨hleaf _ s t trivial, ih⟩
  | case5 s c rest _ _ _ h t more r hparts ih =>
    rw [hparts] at ih
    exact List.forall_mem_cons.mpr ⟨hleaf _ s t trivial, ih⟩

theorem forall_mem_separator (closing : Char) (s : Cursor) :
    ∀ u ∈ (separator closing s).1, P u := by
  have htoken (t : Cursor) : P (token ',' t) := hleaf _ _ _ trivial
  have herror := hleaf .error s (errorUntil (fun c => c = ',' || c = closing) s).2 trivial
  unfold separator
  split
  · simp
  split
  · exact List.forall_mem_singleton.mpr (htoken s)
  split
  · simp
  dsimp only
  split
  · exact List.forall_mem_cons.mpr ⟨herror, List.forall_mem_singleton.mpr (htoken _)⟩
  · exact List.forall_mem_singleton.mpr herror

variable {shape : Shape} {item : Cursor → Tree × Cursor}

theorem forall_mem_round {s : Cursor} (hitem : ∀ c rest, (trivia s).2.rest = c :: rest →
    shape.startsItem c = true → P (item (trivia s).2).1) :
    ∀ u ∈ (round shape item s).nodes, P u := by
  have hgap (s : Cursor) := forall_mem_trivia (P := P) (fun s t => hleaf _ s t trivial) s
  have hend (k : NodeKind) (hk : IsFree k) (t u : Cursor) :
      ∀ v ∈ (trivia s).1 ++ [leaf k t u], P v :=
    List.forall_mem_append.mpr ⟨hgap s, List.forall_mem_singleton.mpr (hleaf k t u hk)⟩
  unfold round
  dsimp only
  split
  · exact hgap s
  · next c rest h =>
    split
    · exact hend (.token _) trivial _ _
    split
    · exact hend .error trivial _ _
    split
    · next hstart =>
      have hfront := List.forall_mem_append.mpr ⟨hgap s,
        List.forall_mem_cons.mpr ⟨hitem c rest h hstart, hgap (item (trivia s).2).2⟩⟩
      exact List.forall_mem_append.mpr ⟨hfront, forall_mem_separator hleaf _ _⟩
    · exact hend .error trivial _ _

/-- What holds of the items holds of all that a container adds; `Q` is what a round keeps. -/
theorem forall_mem_items {Q : Cursor → Prop}
    (hround : ∀ s, Q s → Q (round shape item s).cursor)
    (hitem : ∀ s c rest, Q s → (trivia s).2.rest = c :: rest → shape.startsItem c = true →
      P (item (trivia s).2).1) {s : Cursor} (hs : Q s) :
    ∀ u ∈ (items shape item s).1, P u := by
  fun_induction items shape item s with
  | case1 s r h more t hitems ih =>
    rw [hitems] at ih
    exact List.forall_mem_append.mpr
      ⟨forall_mem_round hleaf fun c rest => hitem s c rest hs, ih (hround s hs)⟩
  | case2 s r h => exact forall_mem_round hleaf fun c rest => hitem s c rest hs

end Added

/-! ## Numbers -/

theorem isDigit_of_isAsciiDigit {c : Char} (h : isAsciiDigit c = true) : IsDigit c := by
  simpa [isAsciiDigit, IsDigit] using h

theorem passes_digits {s : Cursor} (h : (digits s).1 = true) :
    ∃ w, IsDigits w ∧ s.Passes w (digits s).2 := by
  refine ⟨s.rest.takeWhile isAsciiDigit, ⟨?_, ?_⟩, Cursor.passes_skip s _⟩
  · intro hnil
    cases hrest : s.rest with
    | nil => simp [digits, hrest] at h
    | cons c rest =>
      have hc : isAsciiDigit c = true := by simpa [digits, hrest] using h
      simp [hrest, hc] at hnil
  · intro c hc
    exact isDigit_of_isAsciiDigit (List.all_eq_true.mp List.all_takeWhile c hc)

theorem passes_optional (c : Char) (s : Cursor) :
    ∃ w, (w = [] ∨ w = [c]) ∧ s.Passes w (optional c s) := by
  unfold optional
  split
  · next h =>
    obtain ⟨rest, hrest⟩ := List.head?_eq_some_iff.mp h
    exact ⟨[c], .inr rfl, Cursor.passes_next hrest⟩
  · exact ⟨[], .inl rfl, .refl s⟩

theorem passes_fraction {valid : Bool} {s : Cursor} (h : (fraction valid s).1 = true) :
    valid = true ∧ ∃ w, (w = [] ∨ IsFraction w) ∧ s.Passes w (fraction valid s).2 := by
  unfold fraction at h ⊢
  split
  · next hdot =>
    rw [if_pos hdot] at h
    obtain ⟨hvalid, hhead⟩ : valid = true ∧ s.rest.head? = some '.' := by simpa using hdot
    obtain ⟨rest, hrest⟩ := List.head?_eq_some_iff.mp hhead
    obtain ⟨ds, hds, hpass⟩ := passes_digits h
    exact ⟨hvalid, _, .inr ⟨ds, hds, rfl⟩, (Cursor.passes_next hrest).trans hpass⟩
  · next hdot =>
    rw [if_neg hdot] at h
    exact ⟨h, [], .inl rfl, .refl s⟩

theorem passes_sign (s : Cursor) : ∃ w, (w = [] ∨ w = ['+'] ∨ w = ['-']) ∧
    s.Passes w (if s.rest.head? = some '+' || s.rest.head? = some '-' then s.next else s) := by
  split
  · next h =>
    have hhead : s.rest.head? = some '+' ∨ s.rest.head? = some '-' := by simpa using h
    rcases hhead with hhead | hhead
    · obtain ⟨rest, hrest⟩ := List.head?_eq_some_iff.mp hhead
      exact ⟨['+'], .inr (.inl rfl), Cursor.passes_next hrest⟩
    · obtain ⟨rest, hrest⟩ := List.head?_eq_some_iff.mp hhead
      exact ⟨['-'], .inr (.inr rfl), Cursor.passes_next hrest⟩
  · exact ⟨[], .inl rfl, .refl s⟩

theorem passes_exponent {valid : Bool} {s : Cursor} (h : (exponent valid s).1 = true) :
    valid = true ∧ ∃ w, (w = [] ∨ IsExponent w) ∧ s.Passes w (exponent valid s).2 := by
  unfold exponent at h ⊢
  split
  · next hmark =>
    rw [if_pos hmark] at h
    obtain ⟨hvalid, hhead⟩ :
        valid = true ∧ (s.rest.head? = some 'e' ∨ s.rest.head? = some 'E') := by
      simpa using hmark
    obtain ⟨mark, hmark, rest, hrest⟩ :
        ∃ mark, (mark = 'e' ∨ mark = 'E') ∧ ∃ rest, s.rest = mark :: rest := by
      rcases hhead with hhead | hhead
      · exact ⟨'e', .inl rfl, List.head?_eq_some_iff.mp hhead⟩
      · exact ⟨'E', .inr rfl, List.head?_eq_some_iff.mp hhead⟩
    obtain ⟨sign, hsign, hpass⟩ := passes_sign s.next
    obtain ⟨ds, hds, hpass'⟩ := passes_digits h
    refine ⟨hvalid, _, .inr ⟨mark, sign, ds, hmark, hsign, hds, rfl⟩, ?_⟩
    exact (Cursor.passes_next hrest).trans (hpass.trans hpass')
  · next hmark =>
    rw [if_neg hmark] at h
    exact ⟨h, [], .inl rfl, .refl s⟩

/-- What becomes a number is written like one. -/
theorem passes_number {s : Cursor} (h : (number s).1.kind = .number) :
    ∃ w, IsNumberText w ∧ s.Passes w (number s).2 := by
  have hvalid : (exponent (fraction (digits (optional '-' s)).1
      (digits (optional '-' s)).2).1 (fraction (digits (optional '-' s)).1
      (digits (optional '-' s)).2).2).1 = true := by
    by_contra hinvalid
    simp [number, leaf, Tree.kind, hinvalid] at h
  -- A part is valid only if the parts before it are.
  obtain ⟨hfrac, exp, hexp, hpassExp⟩ := passes_exponent hvalid
  obtain ⟨hwhole, frac, hfrac, hpassFrac⟩ := passes_fraction hfrac
  obtain ⟨whole, hwhole, hpassWhole⟩ := passes_digits hwhole
  obtain ⟨sign, hsign, hpassSign⟩ := passes_optional '-' s
  exact ⟨_, ⟨sign, whole, frac, exp, hsign, hwhole, hfrac, hexp, rfl⟩,
    hpassSign.trans (hpassWhole.trans (hpassFrac.trans hpassExp))⟩

theorem Cursor.Reaches.slice?_eq {text w : List Char} {s t : Cursor}
    (h : (Cursor.start text).Reaches s) (hw : s.Passes w t) :
    slice? text s.offset t.offset = some w := by
  obtain ⟨front, hfront, hoff⟩ := h
  have htext : text = front ++ (w ++ t.rest) := by
    rw [← hw.1]
    exact hfront
  have hstart : s.offset = byteLength front := by simpa [Cursor.start] using hoff
  rw [hw.2, hstart, htext]
  exact slice?_append front w t.rest

theorem kind_number (s : Cursor) :
    (number s).1.kind = .number ∨ (number s).1.kind = .error := by
  unfold number
  dsimp only [leaf, Tree.kind]
  split
  · exact .inl rfl
  · exact .inr rfl

theorem sound_number {text : List Char} {s : Cursor} (hs : (Cursor.start text).Reaches s) :
    (number s).1.Sound text := by
  rcases kind_number s with h | h
  · obtain ⟨w, hw, hpass⟩ := passes_number h
    have htree : (number s).1 = leaf .number s (number s).2 := by
      rw [← h]
      rfl
    rw [htree]
    apply Tree.sound_node _ fun _ hu => absurd hu List.not_mem_nil
    constructor
    case number => exact fun _ => ⟨w, hs.slice?_eq hpass, hw⟩
    all_goals simp [NodeKind.label]
  · have htree : (number s).1 = leaf .error s (number s).2 := by
      rw [← h]
      rfl
    rw [htree]
    exact sound_leaf text (k := .error) trivial _ _

/-! ## Strings -/

/-- The parts of a string fill its span. -/
theorem abut_stringParts (s : Cursor) :
    Abut s.offset (stringParts s).2.2.offset ((stringParts s).1.map Tree.part) := by
  fun_induction stringParts s with
  | case1 s => exact rfl
  | case2 s => exact rfl
  | case3 s rest h => exact ⟨rfl, rfl⟩
  | case4 s rest h t more r hparts ih =>
    rw [hparts] at ih
    exact ⟨rfl, ih⟩
  | case5 s c rest _ _ _ h t more r hparts ih =>
    rw [hparts] at ih
    exact ⟨rfl, ih⟩

/-- The parts of a closed string are contents and escape sequences up to its closing quote. -/
theorem stringParts_closed (s : Cursor) (h : (stringParts s).2.1 = true) :
    ∃ inner, (stringParts s).1.map (·.kind.label) = inner ++ ["\""] ∧
      ∀ k ∈ inner, k = "string_content" ∨ k = "escape_sequence" := by
  fun_induction stringParts s with
  | case1 s => cases h
  | case2 s => cases h
  | case3 s rest hrest => exact ⟨[], rfl, by simp⟩
  | case4 s rest hrest t more r hparts ih =>
    rw [hparts] at ih
    obtain ⟨inner, hmore, hinner⟩ := ih h
    exact ⟨"escape_sequence" :: inner, congrArg _ hmore,
      List.forall_mem_cons.mpr ⟨.inr rfl, hinner⟩⟩
  | case5 s c rest _ _ _ hrest t more r hparts ih =>
    rw [hparts] at ih
    obtain ⟨inner, hmore, hinner⟩ := ih h
    exact ⟨"string_content" :: inner, congrArg _ hmore,
      List.forall_mem_cons.mpr ⟨.inl rfl, hinner⟩⟩

theorem string_eq (s : Cursor) : (string s).1 =
    .node (if (stringParts s.next).2.1 then .string else .error) s.offset
      (stringParts s.next).2.2.offset (token '"' s :: (stringParts s.next).1) := rfl

theorem sound_string (text : List Char) (s : Cursor) : (string s).1.Sound text := by
  have hsound := forall_mem_stringParts (fun _ s t hk => sound_leaf text hk s t) s.next
  rw [string_eq]
  apply Tree.sound_node
  · split
    · next hclosed =>
      obtain ⟨inner, hkinds, hinner⟩ := stringParts_closed s.next hclosed
      constructor
      case string =>
        intro _
        refine ⟨⟨rfl, abut_stringParts s.next⟩, inner, ?_, hinner⟩
        rw [List.map_map, List.map_cons]
        exact congrArg _ hkinds
      all_goals simp [NodeKind.label]
    · exact proper_of_isFree (k := .error) trivial _ _ _
  · exact List.forall_mem_cons.mpr ⟨sound_leaf text (k := .token '"') trivial _ _, hsound⟩

theorem kind_string (s : Cursor) :
    (string s).1.kind = .string ∨ (string s).1.kind = .error := by
  rw [string_eq]
  dsimp only [Tree.kind]
  split
  · exact .inl rfl
  · exact .inr rfl

/-! ## Keys and scalars -/

theorem label_mem {k j : NodeKind} {ks : List String} (h : k = j ∨ k = .error)
    (hj : j.label ∈ ks) (herror : "ERROR" ∈ ks) : k.label ∈ ks := by
  rcases h with rfl | rfl
  · exact hj
  · exact herror

theorem fits_string (text : List Char) {ks : List String} (s : Cursor) (h : "string" ∈ ks)
    (herror : "ERROR" ∈ ks) : Fits text ks (string s).1 :=
  ⟨sound_string text s, label_mem (kind_string s) h herror⟩

theorem fits_number {text : List Char} {ks : List String} {s : Cursor}
    (hs : (Cursor.start text).Reaches s) (h : "number" ∈ ks) (herror : "ERROR" ∈ ks) :
    Fits text ks (number s).1 :=
  ⟨sound_number hs, label_mem (kind_number s) h herror⟩

theorem fits_key {text : List Char} {s : Cursor} (hs : (Cursor.start text).Reaches s) :
    Fits text keyKinds (key s).1 := by
  unfold key
  split
  · exact fits_string text s (by decide) (by decide)
  · exact fits_number hs (by decide) (by decide)

theorem fits_scalar {text : List Char} {s : Cursor} (hs : (Cursor.start text).Reaches s) :
    Fits text valueKinds (scalar s).1 := by
  have herror : "ERROR" ∈ valueKinds := by decide
  unfold scalar
  split
  · split
    · exact fits_string text s (by decide) herror
    split
    · exact fits_number hs (by decide) herror
    split
    · exact fits_word text s
    · exact fits_errorUntil text herror _ s
  · exact fits_errorUntil text herror _ s

end Json

end NodeAtlas
