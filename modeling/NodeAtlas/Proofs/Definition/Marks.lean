import Mathlib.Data.List.Induction
import NodeAtlas.Definition.Assembly

/-!
Which group is open at a token. It depends on the tokens before it alone: the group of the last mark
when that mark opens one.
-/

namespace NodeAtlas.Definition

/-- What the tokens give, each of them together with the tokens before it. -/
def gatherAfter {α : Type} (f : List Located → Located → Option α) (before : List Located) :
    List Located → List α
  | [] => []
  | l :: rest => (f before l).toList ++ gatherAfter f (before ++ [l]) rest

def gather {α : Type} (f : List Located → Located → Option α) (ts : List Located) : List α :=
  gatherAfter f [] ts

section Gather

variable {α : Type} (f : List Located → Located → Option α)

theorem gatherAfter_concat (before ts : List Located) (l : Located) :
    gatherAfter f before (ts ++ [l]) =
      gatherAfter f before ts ++ (f (before ++ ts) l).toList := by
  induction ts generalizing before with
  | nil => simp [gatherAfter]
  | cons t ts ih => simp [gatherAfter, ih]

theorem gather_concat (ts : List Located) (l : Located) :
    gather f (ts ++ [l]) = gather f ts ++ (f ts l).toList := by
  exact gatherAfter_concat f [] ts l

/-- The last token that gives something is followed by none that does. -/
theorem getLast?_gather_eq_some_iff {ts : List Located} {e : Nat × α} :
    (gather (fun before l => (f before l).map (before.length, ·)) ts).getLast? = some e ↔
      ∃ before l after, ts = before ++ l :: after ∧ e.1 = before.length ∧
        f before l = some e.2 ∧
        ∀ mid x rest, after = mid ++ x :: rest → f (before ++ l :: mid) x = none := by
  constructor
  · intro h
    induction ts using List.reverseRecOn with
    | nil => cases h
    | append_singleton ts l ih =>
      rw [gather_concat] at h
      cases hl : f ts l with
      | none =>
        rw [hl] at h
        obtain ⟨before, k, after, rfl, hlen, hk, hafter⟩ := ih (by simpa using h)
        refine ⟨before, k, after ++ [l], by simp, hlen, hk, ?_⟩
        intro mid x rest heq
        -- The token that gives nothing is the new one or an earlier one.
        rcases List.eq_nil_or_concat rest with rfl | ⟨front, y, rfl⟩
        · obtain ⟨rfl, hx⟩ := List.append_inj' heq rfl
          cases hx
          exact hl
        · have hsplit : after ++ [l] = (mid ++ x :: front) ++ [y] := by simpa using heq
          exact hafter mid x front (List.append_inj_left' hsplit rfl)
      | some given =>
        rw [hl] at h
        obtain rfl : (ts.length, given) = e := by simpa using h
        exact ⟨ts, l, [], rfl, rfl, hl, by simp⟩
  · rintro ⟨before, k, after, rfl, hlen, hk, hafter⟩
    induction after using List.reverseRecOn with
    | nil =>
      rw [gather_concat, hk, ← hlen]
      simp
    | append_singleton after l ih =>
      have hl := hafter after l [] rfl
      have hlast := ih fun mid x rest heq => hafter mid x (rest ++ [l]) (by rw [heq]; simp)
      have hsplit : before ++ k :: (after ++ [l]) = (before ++ k :: after) ++ [l] := by simp
      rw [hsplit, gather_concat, hl]
      simpa using hlast

end Gather

/-- What a comment does to the groups. -/
inductive Mark where
  | opening (g : Group)
  | closing
  deriving DecidableEq, Repr

def Located.isFileBlock (l : Located) : Bool :=
  match l.token with
  | .docBlock text => Block.isFileBlock text
  | _ => false

/-- The mark of a token that comes after others. The file block, which is the first with a file tag,
has none. -/
def mark? (before : List Located) (l : Located) : Option Mark :=
  match l.token with
  | .docBlock text =>
    if Block.isFileBlock text && !before.any Located.isFileBlock then none
    else
      match Block.firstGroup? text with
      | some (name, title) => some (.opening (Block.group name title text l.position))
      | none => if Assembly.isClosingMark text then some .closing else none
  | .docLine text => if Assembly.isClosingMark text then some .closing else none
  | _ => none

/-- The marks and the numbers of their tokens. -/
def marks (ts : List Located) : List (Nat × Mark) :=
  gather (fun before l => (mark? before l).map (before.length, ·)) ts

/-- The groups that are opened, each with the number of its token. -/
def openings (ts : List Located) : List (Nat × Group) :=
  (marks ts).filterMap fun m =>
    match m.2 with
    | .opening g => some (m.1, g)
    | .closing => none

/-- The group that is open after some tokens. -/
def open? (ts : List Located) : Option (Nat × Group) :=
  match (marks ts).getLast? with
  | some (i, .opening g) => some (i, g)
  | _ => none

/-- The number of the token that opened the open group. -/
def slot (ts : List Located) : Option Nat := (open? ts).map Prod.fst

/-- The open groups at the closing marks. -/
def closedSlots (ts : List Located) : List Nat :=
  gather (fun before l => if mark? before l = some .closing then slot before else none) ts

/-- The row of a token in a group, without its brief. -/
def row? (group : Option String) (l : Located) : Option Row :=
  match l.token with
  | .row [raw, semanticType, nameExtraction, nativeExtraction, flags] =>
    (Literal.decode? raw).map fun rawType =>
      ⟨.ofList rawType, .ofList semanticType, .ofList nameExtraction, .ofList nativeExtraction,
        .ofList flags, none, group, l.position⟩
  | _ => none

/-- Not five arguments make no row. -/
theorem row?_of_arguments {group : Option String} {p : Position} {args : List (List Char)}
    (h : ∀ raw semanticType nameExtraction nativeExtraction flags,
      args = [raw, semanticType, nameExtraction, nativeExtraction, flags] → False) :
    row? group ⟨p, .row args⟩ = none := by
  unfold row?
  split
  · next heq =>
    cases heq
    exact (h _ _ _ _ _ rfl).elim
  · rfl

/-- The rows of the tokens at which a group is open, or none. -/
def rowsIn (s : Option Nat) (ts : List Located) : List Row :=
  gather (fun before l =>
    if slot before = s then row? ((open? before).map (·.2.name)) l else none) ts

def Located.isInvocation (l : Located) : Bool :=
  match l.token with
  | .row _ | .malformed _ => true
  | _ => false

/-- Whether a token should give a row but does not. -/
def Located.fails (l : Located) : Bool := l.isInvocation && (row? none l).isNone

/-! ## One more token -/

theorem marks_concat (ts : List Located) (l : Located) :
    marks (ts ++ [l]) = marks ts ++ ((mark? ts l).map (ts.length, ·)).toList :=
  gather_concat _ ts l

section NoMark

variable {ts : List Located} {l : Located} (h : mark? ts l = none)

include h

theorem marks_of_none : marks (ts ++ [l]) = marks ts := by
  simp [marks_concat, h]

theorem openings_of_none : openings (ts ++ [l]) = openings ts := by
  rw [openings, marks_of_none h, openings]

theorem open?_of_none : open? (ts ++ [l]) = open? ts := by
  rw [open?, marks_of_none h, open?]

end NoMark

section Opening

variable {ts : List Located} {l : Located} {g : Group} (h : mark? ts l = some (.opening g))

include h

theorem openings_of_opening : openings (ts ++ [l]) = openings ts ++ [(ts.length, g)] := by
  simp [openings, marks_concat, h]

theorem open?_of_opening : open? (ts ++ [l]) = some (ts.length, g) := by
  simp [open?, marks_concat, h]

end Opening

section Closing

variable {ts : List Located} {l : Located} (h : mark? ts l = some .closing)

include h

theorem openings_of_closing : openings (ts ++ [l]) = openings ts := by
  simp [openings, marks_concat, h]

theorem open?_of_closing : open? (ts ++ [l]) = none := by
  simp [open?, marks_concat, h]

end Closing

theorem closedSlots_concat (ts : List Located) (l : Located) :
    closedSlots (ts ++ [l]) =
      closedSlots ts ++ (if mark? ts l = some .closing then slot ts else none).toList :=
  gather_concat _ ts l

theorem rowsIn_concat (s : Option Nat) (ts : List Located) (l : Located) :
    rowsIn s (ts ++ [l]) = rowsIn s ts ++
      (if slot ts = s then row? ((open? ts).map (·.2.name)) l else none).toList :=
  gather_concat _ ts l

theorem length_of_mem_openings {ts : List Located} {o : Nat × Group} (h : o ∈ openings ts) :
    o.1 < ts.length := by
  induction ts using List.reverseRecOn with
  | nil => cases h
  | append_singleton ts l ih =>
    rw [List.length_append]
    cases hm : mark? ts l with
    | none => exact Nat.lt_add_right 1 (ih (openings_of_none hm ▸ h))
    | some m =>
      cases m with
      | closing => exact Nat.lt_add_right 1 (ih (openings_of_closing hm ▸ h))
      | opening g =>
        rw [openings_of_opening hm, List.mem_append, List.mem_singleton] at h
        rcases h with h | rfl
        · exact Nat.lt_add_right 1 (ih h)
        · exact Nat.lt_succ_self ts.length

/-- The openings before the open group. -/
def past (ts : List Located) : List (Nat × Group) := (openings ts).filter (slot ts ≠ some ·.1)

theorem past_of_opening {ts : List Located} {l : Located} {g : Group}
    (h : mark? ts l = some (.opening g)) : past (ts ++ [l]) = openings ts := by
  have hslot : slot (ts ++ [l]) = some ts.length := by rw [slot, open?_of_opening h]; rfl
  have hearlier : (openings ts).filter (some ts.length ≠ some ·.1) = openings ts := by
    apply List.filter_eq_self.mpr
    intro o ho
    have hlt := length_of_mem_openings ho
    simp only [ne_eq, Option.some.injEq, decide_not, Bool.not_eq_true', decide_eq_false_iff_not]
    omega
  rw [past, hslot, openings_of_opening h, List.filter_append, hearlier]
  simp

theorem past_of_none {ts : List Located} {l : Located} (h : mark? ts l = none) :
    past (ts ++ [l]) = past ts := by
  rw [past, slot, openings_of_none h, open?_of_none h, ← slot, ← past]

theorem past_of_open?_eq_none {ts : List Located} (h : open? ts = none) :
    past ts = openings ts := by
  have hslot : slot ts = none := by rw [slot, h]; rfl
  rw [past, hslot]
  exact List.filter_eq_self.mpr fun _ _ => rfl

/-- The open group is the last one that was opened. -/
theorem openings_eq (ts : List Located) : openings ts = past ts ++ (open? ts).toList := by
  induction ts using List.reverseRecOn with
  | nil => rfl
  | append_singleton ts l ih =>
    cases hm : mark? ts l with
    | none =>
      rw [openings_of_none hm, past_of_none hm, open?_of_none hm]
      exact ih
    | some m =>
      cases m with
      | closing =>
        rw [past_of_open?_eq_none (open?_of_closing hm), open?_of_closing hm]
        simp
      | opening g =>
        rw [past_of_opening hm, openings_of_opening hm, open?_of_opening hm]
        rfl

theorem past_of_closing {ts : List Located} {l : Located} (h : mark? ts l = some .closing) :
    past (ts ++ [l]) = openings ts := by
  rw [past_of_open?_eq_none (open?_of_closing h), openings_of_closing h]

theorem mem_openings_of_open? {ts : List Located} {o : Nat × Group} (h : open? ts = some o) :
    o ∈ openings ts := by
  rw [openings_eq, h]
  simp

theorem slot_lt_length {ts : List Located} {i : Nat} (h : slot ts = some i) : i < ts.length := by
  obtain ⟨o, ho, rfl⟩ := Option.map_eq_some_iff.mp h
  exact length_of_mem_openings (mem_openings_of_open? ho)

theorem rowsIn_eq_nil {ts : List Located} {i : Nat} (h : ts.length ≤ i) :
    rowsIn (some i) ts = [] := by
  induction ts using List.reverseRecOn with
  | nil => rfl
  | append_singleton ts l ih =>
    rw [List.length_append, List.length_singleton] at h
    have hslot : slot ts ≠ some i := by
      intro hs
      have hlt := slot_lt_length hs
      omega
    rw [rowsIn_concat, ih (by omega), if_neg hslot]
    rfl

theorem lt_length_of_mem_closedSlots {ts : List Located} {i : Nat} (h : i ∈ closedSlots ts) :
    i < ts.length := by
  induction ts using List.reverseRecOn with
  | nil => cases h
  | append_singleton ts l ih =>
    rw [List.length_append]
    rw [closedSlots_concat, List.mem_append, Option.mem_toList] at h
    rcases h with h | h
    · exact Nat.lt_add_right 1 (ih h)
    · split at h
      · exact Nat.lt_add_right 1 (slot_lt_length h)
      · cases h

/-- The open group has not been closed. -/
theorem slot_not_mem_closedSlots {ts : List Located} {i : Nat} (h : slot ts = some i) :
    i ∉ closedSlots ts := by
  induction ts using List.reverseRecOn with
  | nil => cases h
  | append_singleton ts l ih =>
    rw [closedSlots_concat]
    cases hm : mark? ts l with
    | none =>
      rw [slot, open?_of_none hm] at h
      simpa using ih h
    | some m =>
      cases m with
      | closing =>
        rw [slot, open?_of_closing hm] at h
        cases h
      | opening g =>
        rw [slot, open?_of_opening hm] at h
        cases h
        simpa using fun hmem => Nat.lt_irrefl _ (lt_length_of_mem_closedSlots hmem)

/-- The groups that no closing mark found open. -/
def unclosed (ts : List Located) : List (Nat × Group) :=
  (openings ts).filter (·.1 ∉ closedSlots ts)

/-- The unclosed groups that are not open any more. -/
def abandoned (ts : List Located) : List (Nat × Group) :=
  (past ts).filter (·.1 ∉ closedSlots ts)

theorem unclosed_eq (ts : List Located) : unclosed ts = abandoned ts ++ (open? ts).toList := by
  rw [unclosed, openings_eq, List.filter_append, ← abandoned]
  cases ho : open? ts with
  | none => rfl
  | some o =>
    have hslot : slot ts = some o.1 := by rw [slot, ho]; rfl
    simp [slot_not_mem_closedSlots hslot]

theorem abandoned_of_none {ts : List Located} {l : Located} (h : mark? ts l = none) :
    abandoned (ts ++ [l]) = abandoned ts := by
  have hnot : mark? ts l ≠ some .closing := by simp [h]
  rw [abandoned, past_of_none h, closedSlots_concat, if_neg hnot]
  simp [abandoned]

theorem abandoned_of_opening {ts : List Located} {l : Located} {g : Group}
    (h : mark? ts l = some (.opening g)) : abandoned (ts ++ [l]) = unclosed ts := by
  have hnot : mark? ts l ≠ some .closing := by simp [h]
  rw [abandoned, past_of_opening h, closedSlots_concat, if_neg hnot]
  simp [unclosed]

theorem abandoned_of_closing {ts : List Located} {l : Located} (h : mark? ts l = some .closing) :
    abandoned (ts ++ [l]) = abandoned ts := by
  have hpast : (past ts).filter (·.1 ∉ closedSlots ts ++ (slot ts).toList) = abandoned ts := by
    apply List.filter_congr
    intro o ho
    have hslot : slot ts ≠ some o.1 := by simpa [past] using (List.mem_filter.mp ho).2
    simp [hslot]
  have hopen : (open? ts).toList.filter (·.1 ∉ closedSlots ts ++ (slot ts).toList) = [] := by
    cases ho : open? ts with
    | none => rfl
    | some o => simp [slot, ho]
  rw [abandoned, past_of_closing h, closedSlots_concat, if_pos h, openings_eq, List.filter_append,
    hpast, hopen, List.append_nil]

/-- A group is open when its mark is the last one: nothing after it opens or closes a group. -/
theorem open?_eq_some_iff {ts : List Located} {o : Nat × Group} :
    open? ts = some o ↔ ∃ before l after, ts = before ++ l :: after ∧ o.1 = before.length ∧
      mark? before l = some (.opening o.2) ∧
      ∀ mid x rest, after = mid ++ x :: rest → mark? (before ++ l :: mid) x = none := by
  have hlast : open? ts = some o ↔ (marks ts).getLast? = some (o.1, .opening o.2) := by
    unfold open?
    split
    · next h => simp [h, Prod.ext_iff]
    · next h => simpa using fun heq => h o.1 o.2 heq
  rw [hlast]
  exact getLast?_gather_eq_some_iff mark?

end NodeAtlas.Definition
