import NodeAtlas.Proofs.Json.Depth

/-!
A reader that counts the containers it is inside. The counter goes up when a container is opened and
down when it is left, and a container that would raise it beyond `maxNesting` is cut off. It reads
what the reader with room for `maxNesting` levels reads, and hands the counter back as it was.
-/

namespace NodeAtlas.Json

open Text

namespace Counted

/-- Where the reader stands and how many containers it is inside. -/
structure State where
  cursor : Cursor
  depth : Nat

/-- Reading that leaves the counter alone. -/
def plain (f : Cursor → Tree × Cursor) (s : State) : Tree × State :=
  ((f s.cursor).1, ⟨(f s.cursor).2, s.depth⟩)

structure Round where
  nodes : List Tree
  state : State
  last : Bool

def round (shape : Shape) (item : State → Tree × State) (s : State) : Round :=
  let (gap, t) := trivia s.cursor
  match t.rest with
  | [] => ⟨gap, ⟨t, s.depth⟩, true⟩
  | c :: _ =>
    if c = shape.closing then ⟨gap ++ [token c t], ⟨t.next, s.depth⟩, true⟩
    else if c = ',' then
      let (e, u) := errorUntil (· ≠ ',') t
      ⟨gap ++ [e], ⟨u, s.depth⟩, false⟩
    else if shape.startsItem c then
      let (i, u) := item ⟨t, s.depth⟩
      let (gap', v) := trivia u.cursor
      let (sep, w) := separator shape.closing v
      ⟨gap ++ i :: gap' ++ sep, ⟨w, u.depth⟩, false⟩
    else
      let (e, u) := errorUntil shape.resumes t
      ⟨gap ++ [e], ⟨u, s.depth⟩, false⟩

def items (shape : Shape) (item : State → Tree × State) (s : State) : List Tree × State :=
  let r := round shape item s
  if _h : r.last = false ∧ r.state.cursor.rest.length < s.cursor.rest.length then
    let (more, t) := items shape item r.state
    (r.nodes ++ more, t)
  else (r.nodes, r.state)
termination_by s.cursor.rest.length
decreasing_by exact _h.2

/-- The counter is one higher while the items are read. -/
def container (shape : Shape) (item : State → Tree × State) (s : State) : Tree × State :=
  let (nodes, t) := items shape item ⟨s.cursor.next, s.depth + 1⟩
  (.node shape.kind s.cursor.offset t.cursor.offset (token shape.opening s.cursor :: nodes),
    ⟨t.cursor, t.depth - 1⟩)

def pair (value : State → Tree × State) (s : State) : Tree × State :=
  let (k, t) := key s.cursor
  let (gap, u) := trivia t
  if u.rest.head? = some ':' then
    let (gap', v) := trivia u.next
    let front := k :: gap ++ token ':' u :: gap'
    match v.rest with
    | c :: _ =>
      if startsValue c then
        let (x, w) := value ⟨v, s.depth⟩
        (.node .pair s.cursor.offset w.cursor.offset (front ++ [x]), w)
      else (.node .error s.cursor.offset v.offset front, ⟨v, s.depth⟩)
    | [] => (.node .error s.cursor.offset v.offset front, ⟨v, s.depth⟩)
  else (.node .error s.cursor.offset u.offset (k :: gap), ⟨u, s.depth⟩)

/-- The test on the depth of an inner value makes the recursion end. It never fails, see
`value_eq`. -/
def value (s : State) : Tree × State :=
  if _h : s.depth < maxNesting then
    let inner := fun t => if _h' : s.depth < t.depth then value t else plain tooDeep t
    if s.cursor.rest.head? = some '\x7b' then container .object (pair inner) s
    else if s.cursor.rest.head? = some '[' then container .array inner s
    else plain scalar s
  else if s.cursor.rest.head? = some '\x7b' || s.cursor.rest.head? = some '[' then plain tooDeep s
  else plain scalar s
termination_by maxNesting - s.depth

def object : State → Tree × State := container .object (pair value)

def array : State → Tree × State := container .array value

def documentItems (s : State) : List Tree × State :=
  let (gap, t) := trivia s.cursor
  match t.rest with
  | [] => (gap, ⟨t, s.depth⟩)
  | c :: _ =>
    let (x, u) := if startsValue c then value ⟨t, s.depth⟩
      else plain (errorUntil fun c => isGap c || startsValue c) ⟨t, s.depth⟩
    if _h : u.cursor.rest.length < s.cursor.rest.length then
      let (more, v) := documentItems u
      (gap ++ x :: more, v)
    else (gap ++ [x], u)
termination_by s.cursor.rest.length

/-- Outside all containers the counter is zero. -/
def read (text : List Char) : Tree × State :=
  let (nodes, t) := documentItems ⟨⟨0, text⟩, 0⟩
  (.node .document 0 (byteLength text) nodes, t)

/-- From a depth on, a reader reads what a reader without a counter reads, and leaves the counter as
it is. -/
def Follows (depth : Nat) (item : State → Tree × State) (item' : Cursor → Tree × Cursor) : Prop :=
  ∀ s, item ⟨s, depth⟩ = plain item' ⟨s, depth⟩

section Follows

variable {depth : Nat} {item : State → Tree × State} {item' : Cursor → Tree × Cursor}
  (h : Follows depth item item')
include h

theorem Follows.round (shape : Shape) (s : Cursor) :
    Counted.round shape item ⟨s, depth⟩ =
      ⟨(Json.round shape item' s).nodes, ⟨(Json.round shape item' s).cursor, depth⟩,
        (Json.round shape item' s).last⟩ := by
  cases hrest : (trivia s).2.rest with
  | nil => simp only [Counted.round, Json.round, hrest]
  | cons c rest =>
    simp only [Counted.round, Json.round, hrest, h (trivia s).2, plain]
    split_ifs <;> rfl

theorem Follows.items (shape : Shape) (s : Cursor) :
    Counted.items shape item ⟨s, depth⟩ =
      ((Json.items shape item' s).1, ⟨(Json.items shape item' s).2, depth⟩) := by
  fun_induction Json.items shape item' s with
  | case1 s r hr more t hitems ih =>
    rw [Counted.items, h.round]
    rw [hitems] at ih
    simp [r, hr, ih]
  | case2 s r hr =>
    rw [Counted.items, h.round, dif_neg hr]

theorem Follows.pair : Follows depth (Counted.pair item) (Json.pair item') := by
  intro s
  cases hrest : (trivia (trivia (key s).2).2.next).2.rest with
  | nil =>
    simp only [Counted.pair, Json.pair, plain, hrest]
    split_ifs <;> rfl
  | cons c rest =>
    simp only [Counted.pair, Json.pair, plain, hrest, h (trivia (trivia (key s).2).2.next).2]
    split_ifs <;> rfl

end Follows

/-- The items of a container are read one level further in. -/
theorem Follows.container {depth : Nat} {item : State → Tree × State}
    {item' : Cursor → Tree × Cursor} (h : Follows (depth + 1) item item') (shape : Shape) :
    Follows depth (Counted.container shape item) (Json.container shape item') := by
  intro s
  rw [Counted.container, h.items]
  rfl

/-- The reader goes on as one with room for the levels that the counter leaves. -/
theorem follows_value (depth : Nat) : Follows depth value (Json.value (maxNesting - depth)) := by
  induction hroom : maxNesting - depth generalizing depth with
  | zero =>
    intro s
    have hdepth : ¬ depth < maxNesting := by omega
    rw [value, dif_neg hdepth]
    unfold plain Json.value
    split_ifs <;> rfl
  | succ room ih =>
    intro s
    have hdepth : depth < maxNesting := by omega
    have hinner : Follows (depth + 1)
        (fun t => if depth < t.depth then value t else plain tooDeep t) (Json.value room) := by
      intro t
      dsimp only
      rw [if_pos (Nat.lt_succ_self depth)]
      exact ih (depth + 1) (by omega) t
    rw [value, dif_pos hdepth]
    unfold plain Json.value
    dsimp only
    split_ifs
    · exact hinner.pair.container .object s
    · exact hinner.container .array s
    · rfl

theorem follows_object (depth : Nat) : Follows depth object
    (Json.container .object (Json.pair (Json.value (maxNesting - (depth + 1))))) :=
  (follows_value (depth + 1)).pair.container .object

theorem follows_array (depth : Nat) : Follows depth array
    (Json.container .array (Json.value (maxNesting - (depth + 1)))) :=
  (follows_value (depth + 1)).container .array

theorem Follows.depth_eq {item : State → Tree × State} {item' : Cursor → Tree × Cursor} {s : State}
    (h : Follows s.depth item item') : (item s).2.depth = s.depth := by
  rw [h s.cursor]
  rfl

/-- How a value is read, without the test on the depth of inner values. -/
theorem value_eq (s : State) : value s =
    if maxNesting ≤ s.depth ∧
        (s.cursor.rest.head? = some '\x7b' ∨ s.cursor.rest.head? = some '[') then plain tooDeep s
    else if s.cursor.rest.head? = some '\x7b' then object s
    else if s.cursor.rest.head? = some '[' then array s
    else plain scalar s := by
  obtain ⟨s, depth⟩ := s
  rw [follows_value depth s, follows_object depth s, follows_array depth s]
  by_cases hdepth : maxNesting ≤ depth
  · have hroom : maxNesting - depth = 0 := Nat.sub_eq_zero_of_le hdepth
    by_cases hbracket : s.rest.head? = some '\x7b' ∨ s.rest.head? = some '['
    · rw [if_pos ⟨hdepth, hbracket⟩, hroom]
      simp [plain, Json.value, hbracket]
    · obtain ⟨hbrace, hbracket⟩ := not_or.mp hbracket
      simp [plain, Json.value, hroom, hbrace, hbracket]
  · have hroom : maxNesting - depth = maxNesting - (depth + 1) + 1 := by omega
    rw [if_neg fun h => hdepth h.1, hroom]
    simp only [plain, Json.value]
    split_ifs <;> rfl

/-! ## Documents -/

theorem documentItem_eq {s t : Cursor} {c : Char} {x : Tree}
    (hx : (if _ : startsValue c = true then Json.value maxNesting s
      else errorUntil (fun c => isGap c || startsValue c) s) = (x, t)) :
    (if startsValue c = true then value ⟨s, 0⟩
      else plain (errorUntil fun c => isGap c || startsValue c) ⟨s, 0⟩) = (x, ⟨t, 0⟩) := by
  split at hx
  · next hstart =>
    rw [if_pos hstart, follows_value 0 s]
    simp only [plain, Nat.sub_zero, hx]
  · next hstart =>
    rw [if_neg hstart]
    simp only [plain, hx]

theorem exists_documentItems_eq (s : Cursor) :
    ∃ t, documentItems ⟨s, 0⟩ = (Json.documentItems s, ⟨t, 0⟩) := by
  fun_induction Json.documentItems s with
  | case1 s gap t htrivia hrest =>
    refine ⟨t, ?_⟩
    rw [documentItems]
    simp only [htrivia, hrest]
  | case2 s gap t htrivia c rest hrest x u hx hlt ih =>
    obtain ⟨v, hv⟩ := ih
    refine ⟨v, ?_⟩
    rw [documentItems]
    simp only [htrivia, hrest, documentItem_eq hx, hlt, hv, dite_true]
  | case3 s gap t htrivia c rest hrest x u hx hlt =>
    refine ⟨u, ?_⟩
    rw [documentItems]
    simp only [htrivia, hrest, documentItem_eq hx, hlt, dite_false]

/-- Counting changes nothing in what is read, and at the end the counter is back at zero. -/
theorem read_eq (text : List Char) :
    (read text).1 = Json.read text ∧ (read text).2.depth = 0 := by
  obtain ⟨t, ht⟩ := exists_documentItems_eq ⟨0, text⟩
  rw [read, ht]
  exact ⟨rfl, rfl⟩

end Counted

/-- However many brackets a text opens and leaves open, no path down its tree has more than 256
containers, no node is more than 514 levels down, and each object, array and value hands the counter
back as it was. A value that opens a container is cut off exactly when the counter is at the limit. -/
theorem nesting_parse (text : List Char) :
    (∀ path, (parse text).IsPath (0 :: path) → (parse text).containers (0 :: path) ≤ 256) ∧
    (parse text).preorder.map Prod.fst = List.range (parse text).size ∧
    (∀ e ∈ (parse text).preorder, e.2 ≤ 514) ∧
    parse text = (Counted.read text).1.place none ⟨text, #[]⟩ ∧ (Counted.read text).2.depth = 0 ∧
    ∀ s, ((Counted.object s).2.depth = s.depth ∧ (Counted.array s).2.depth = s.depth ∧
        (Counted.value s).2.depth = s.depth) ∧
      Counted.value s =
        if maxNesting ≤ s.depth ∧
            (s.cursor.rest.head? = some '\x7b' ∨ s.cursor.rest.head? = some '[') then
          Counted.plain tooDeep s
        else if s.cursor.rest.head? = some '\x7b' then Counted.object s
        else if s.cursor.rest.head? = some '[' then Counted.array s
        else Counted.plain scalar s := by
  have hold : (read text).Holds (parse text) none 0 := Tree.holds_place _ _
  have hsize : (parse text).size = (read text).count := Tree.size_place _ _
  have hshallow := shallow_read text
  obtain ⟨hread, hzero⟩ := Counted.read_eq text
  refine ⟨fun path hpath => hshallow.containers_le hold hpath, ?_, hshallow.depth_le hold, ?_, hzero,
    fun s => ⟨⟨(Counted.follows_object _).depth_eq, (Counted.follows_array _).depth_eq,
      (Counted.follows_value _).depth_eq⟩, Counted.value_eq s⟩⟩
  · rw [hsize]
    exact Tree.map_preorder_place _ _
  · rw [hread]
    rfl

end NodeAtlas.Json
