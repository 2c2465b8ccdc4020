import Mathlib.Data.List.Infix
import Mathlib.Data.List.TakeWhile
import NodeAtlas.Proofs.Definition.Filing
import NodeAtlas.Proofs.Text.Search

/-!
Which brief a row has. It depends on the tokens before the row alone: on the last tag, when nothing
after it clears, and on the doc lines that go on from it.
-/

namespace NodeAtlas.Definition

/-! ## The brief that waits -/

/-- What a token does to the brief that waits. -/
inductive BriefEvent where
  | tag (b : PendingBrief)
  | clearing

/-- Whether a token is the file block. -/
def isHeading (before : List Located) (l : Located) : Bool :=
  l.isFileBlock && !before.any Located.isFileBlock

/-- The brief of a comment with a tag, and the last line of its text. -/
def Located.tag? (l : Located) : Option PendingBrief :=
  match l.token with
  | .docBlock text =>
    (Block.brief? text).map fun b => ⟨b, l.position.line + ((Text.lines text).length - 1)⟩
  | .docLine text =>
    (Text.cut? "@brief".toList text).map fun p => ⟨Text.trim p.2, l.position.line⟩
  | _ => none

/-- Invocations of rows clear, good or bad, and so do the marks of groups. -/
def briefEvent? (before : List Located) (l : Located) : Option BriefEvent :=
  if l.isInvocation || (mark? before l).isSome then some .clearing
  else if isHeading before l then none
  else l.tag?.map .tag

/-- The text of a doc line that a brief can go on with. -/
def Located.continuation? (l : Located) : Option (List Char) :=
  match l.token with
  | .docLine text =>
    if text ≠ [] ∧ text.head? ≠ some '@' ∧ ¬ "@brief".toList <:+: text ∧ ¬ ['@', '\x7d'] <:+: text
    then some text else none
  | _ => none

/-- A brief goes on with the doc line on the line right after its last line. -/
def PendingBrief.extend (b : PendingBrief) (l : Located) : PendingBrief :=
  match l.continuation? with
  | some text => if b.line + 1 = l.position.line then ⟨b.text ++ ' ' :: text, l.position.line⟩ else b
  | none => b

def briefEvents (ts : List Located) : List (Nat × BriefEvent) :=
  gather (fun before l => (briefEvent? before l).map (before.length, ·)) ts

/-- The last tag after some tokens and the number of its token, unless something after it clears. -/
def lastTag? (ts : List Located) : Option (Nat × PendingBrief) :=
  match (briefEvents ts).getLast? with
  | some (i, .tag b) => some (i, b)
  | _ => none

/-- The brief that waits after some tokens. -/
def pending? (ts : List Located) : Option PendingBrief :=
  (lastTag? ts).map fun tag => (ts.drop (tag.1 + 1)).foldl PendingBrief.extend tag.2

def Row.withBrief (r : Row) (b : Option PendingBrief) : Row :=
  { r with brief := b.map (String.ofList ·.text) }

/-- The row of a token that comes after others, with the brief that waits for it. -/
def briefedRow? (before : List Located) (l : Located) : Option Row :=
  (row? ((open? before).map (·.2.name)) l).map (·.withBrief (pending? before))

/-- The rows of the tokens at which a group is open, or none. -/
def briefedRows (s : Option Nat) (ts : List Located) : List Row :=
  gather (fun before l => if slot before = s then briefedRow? before l else none) ts

/-- The numbers of the tags that rows have their briefs from. -/
def tagNumbers (ts : List Located) : List Nat :=
  gather (fun before l => (briefedRow? before l).bind fun _ => (lastTag? before).map Prod.fst) ts

/-! ## One more token -/

theorem lastTag?_eq_some_iff {ts : List Located} {tag : Nat × PendingBrief} :
    lastTag? ts = some tag ↔ ∃ before l after, ts = before ++ l :: after ∧
      tag.1 = before.length ∧ briefEvent? before l = some (.tag tag.2) ∧
      ∀ mid x rest, after = mid ++ x :: rest → briefEvent? (before ++ l :: mid) x = none := by
  have hlast : lastTag? ts = some tag ↔ (briefEvents ts).getLast? = some (tag.1, .tag tag.2) := by
    unfold lastTag?
    split
    · next h => simp [h, Prod.ext_iff]
    · next h => simpa using fun heq => h tag.1 tag.2 heq
  rw [hlast]
  exact getLast?_gather_eq_some_iff briefEvent?

theorem lt_length_of_lastTag? {ts : List Located} {tag : Nat × PendingBrief}
    (h : lastTag? ts = some tag) : tag.1 < ts.length := by
  obtain ⟨before, l, after, rfl, hlen, -⟩ := lastTag?_eq_some_iff.mp h
  simp [hlen]

section Event

variable {ts : List Located} {l : Located}

theorem briefEvents_concat : briefEvents (ts ++ [l]) =
    briefEvents ts ++ ((briefEvent? ts l).map (ts.length, ·)).toList :=
  gather_concat _ ts l

theorem lastTag?_of_none (h : briefEvent? ts l = none) : lastTag? (ts ++ [l]) = lastTag? ts := by
  rw [lastTag?, briefEvents_concat, h]
  simp [lastTag?]

theorem lastTag?_of_tag {b : PendingBrief} (h : briefEvent? ts l = some (.tag b)) :
    lastTag? (ts ++ [l]) = some (ts.length, b) := by
  simp [lastTag?, briefEvents_concat, h]

theorem lastTag?_of_clearing (h : briefEvent? ts l = some .clearing) :
    lastTag? (ts ++ [l]) = none := by
  simp [lastTag?, briefEvents_concat, h]

theorem pending?_of_none (h : briefEvent? ts l = none) :
    pending? (ts ++ [l]) = (pending? ts).map (·.extend l) := by
  rw [pending?, lastTag?_of_none h, pending?, Option.map_map]
  apply Option.map_congr
  intro tag htag
  have hlt := lt_length_of_lastTag? htag
  rw [Function.comp_apply, List.drop_append_of_le_length hlt, List.foldl_append]
  rfl

theorem pending?_of_tag {b : PendingBrief} (h : briefEvent? ts l = some (.tag b)) :
    pending? (ts ++ [l]) = some b := by
  simp [pending?, lastTag?_of_tag h]

theorem pending?_of_clearing (h : briefEvent? ts l = some .clearing) :
    pending? (ts ++ [l]) = none := by
  rw [pending?, lastTag?_of_clearing h]
  rfl

end Event

theorem briefedRows_concat (s : Option Nat) (ts : List Located) (l : Located) :
    briefedRows s (ts ++ [l]) =
      briefedRows s ts ++ (if slot ts = s then briefedRow? ts l else none).toList :=
  gather_concat _ ts l

theorem briefedRow?_eq_none {ts : List Located} {l : Located} (h : row? none l = none) :
    briefedRow? ts l = none := by
  rw [briefedRow?, (Assembly.row?_eq_none_iff _).mpr h]
  rfl

theorem briefedRows_of_noRow {ts : List Located} {l : Located} (h : row? none l = none)
    (s : Option Nat) : briefedRows s (ts ++ [l]) = briefedRows s ts := by
  rw [briefedRows_concat, briefedRow?_eq_none h]
  simp

theorem briefedRows_eq_nil {ts : List Located} {i : Nat} (h : ts.length ≤ i) :
    briefedRows (some i) ts = [] := by
  induction ts using List.reverseRecOn with
  | nil => rfl
  | append_singleton ts l ih =>
    rw [List.length_append, List.length_singleton] at h
    have hslot : slot ts ≠ some i := by
      intro hs
      have hlt := slot_lt_length hs
      omega
    rw [briefedRows_concat, ih (by omega), if_neg hslot]
    rfl

/-! ## No tag serves two rows -/

theorem tagNumbers_concat (ts : List Located) (l : Located) : tagNumbers (ts ++ [l]) =
    tagNumbers ts ++ ((briefedRow? ts l).bind fun _ => (lastTag? ts).map Prod.fst).toList :=
  gather_concat _ ts l

theorem isInvocation_of_briefedRow? {ts : List Located} {l : Located} {r : Row}
    (h : briefedRow? ts l = some r) : l.isInvocation = true := by
  by_contra hl
  rw [briefedRow?_eq_none (Assembly.row?_of_comment (by simpa using hl))] at h
  cases h

theorem briefEvent?_of_isInvocation {ts : List Located} {l : Located}
    (h : l.isInvocation = true) : briefEvent? ts l = some .clearing := by
  simp [briefEvent?, h]

theorem briefEvent?_of_briefedRow? {ts : List Located} {l : Located} {r : Row}
    (h : briefedRow? ts l = some r) : briefEvent? ts l = some .clearing :=
  briefEvent?_of_isInvocation (isInvocation_of_briefedRow? h)

/-- The tags of rows come in order, and the tag that waits comes after them all. -/
theorem tagNumbers_ordered (ts : List Located) : (tagNumbers ts).Pairwise (· < ·) ∧
    (∀ i ∈ tagNumbers ts, i < ts.length) ∧
      ∀ i ∈ tagNumbers ts, ∀ tag ∈ lastTag? ts, i < tag.1 := by
  induction ts using List.reverseRecOn with
  | nil =>
    exact ⟨.nil, by simp [tagNumbers, gather, gatherAfter],
      by simp [lastTag?, briefEvents, gather, gatherAfter]⟩
  | append_singleton ts l ih =>
    obtain ⟨hpairwise, hbound, hwaiting⟩ := ih
    have hlonger (i : Nat) (hi : i ∈ tagNumbers ts) : i < (ts ++ [l]).length :=
      Nat.lt_trans (hbound i hi) (by simp)
    rw [tagNumbers_concat]
    cases hrow : briefedRow? ts l with
    | none =>
      rw [Option.bind_none, Option.toList_none, List.append_nil]
      refine ⟨hpairwise, hlonger, ?_⟩
      intro i hi tag htag
      cases hevent : briefEvent? ts l with
      | none => exact hwaiting i hi tag (lastTag?_of_none hevent ▸ htag)
      | some e =>
        cases e with
        | clearing =>
          rw [lastTag?_of_clearing hevent] at htag
          cases htag
        | tag b =>
          rw [lastTag?_of_tag hevent] at htag
          cases htag
          exact hbound i hi
    | some r =>
      rw [Option.bind_some, lastTag?_of_clearing (briefEvent?_of_briefedRow? hrow)]
      cases htag : lastTag? ts with
      | none => simpa using ⟨hpairwise, fun i hi => by simpa using hlonger i hi⟩
      | some tag =>
        have hlt : tag.1 < (ts ++ [l]).length := Nat.lt_trans (lt_length_of_lastTag? htag) (by simp)
        refine ⟨?_, ?_, by simp⟩
        · simpa [List.pairwise_append] using ⟨hpairwise, fun i hi => hwaiting i hi tag htag⟩
        · intro i hi
          rcases List.mem_append.mp hi with hi | hi
          · exact hlonger i hi
          · rwa [show i = tag.1 by simpa using hi]

/-! ## What a token does -/

/-- The ways in which a token changes an assembly. -/
inductive Adds (ts : List Located) (a : Assembly) (l : Located) : Assembly → Prop where
  | heading {h : Heading} (hl : isHeading ts l = true) : Adds ts a l { a with heading := some h }
  | opening {g : Group} (hm : mark? ts l = some (.opening g)) (hg : g.rows = []) :
      Adds ts a l (a.openGroup g)
  | closing (hm : mark? ts l = some .closing) : Adds ts a l a.closeGroup
  | tag {b : PendingBrief} (he : briefEvent? ts l = some (.tag b)) :
      Adds ts a l { a with brief := some b }
  | text (he : briefEvent? ts l = none) :
      Adds ts a l { a with brief := a.brief.map (·.extend l) }
  | row {r : Row} (hr : row? (a.current.map (·.name)) l = some r) :
      Adds ts a l (Assembly.addRow { a with brief := none } (r.withBrief a.brief))
  | failure {f : Finding} (hl : l.isInvocation = true) (hr : row? none l = none) :
      Adds ts a l (Assembly.report { a with brief := none } l.position f)

/-- The file block is a block. -/
theorem exists_of_isHeading {ts : List Located} {l : Located} (h : isHeading ts l = true) :
    ∃ p text, l = ⟨p, .docBlock text⟩ := by
  obtain ⟨p, t⟩ := l
  cases t with
  | docBlock text => exact ⟨p, text, rfl⟩
  | _ => cases h

theorem mark?_of_isHeading {ts : List Located} {l : Located} (h : isHeading ts l = true) :
    mark? ts l = none := by
  obtain ⟨p, text, rfl⟩ := exists_of_isHeading h
  exact if_pos h

theorem briefEvent?_of_isHeading {ts : List Located} {l : Located} (h : isHeading ts l = true) :
    briefEvent? ts l = none := by
  have hmark := mark?_of_isHeading h
  obtain ⟨p, text, rfl⟩ := exists_of_isHeading h
  simp [briefEvent?, Located.isInvocation, hmark, h]

theorem briefEvent?_of_mark? {ts : List Located} {l : Located} {m : Mark}
    (h : mark? ts l = some m) : briefEvent? ts l = some .clearing := by
  simp [briefEvent?, h]

theorem mark?_of_isInvocation {ts : List Located} {l : Located} (h : l.isInvocation = true) :
    mark? ts l = none := by
  obtain ⟨p, t⟩ := l
  cases t with
  | row args => rfl
  | malformed text => rfl
  | _ => cases h

/-- A mark is a comment. -/
theorem isInvocation_of_mark? {ts : List Located} {l : Located} {m : Mark}
    (h : mark? ts l = some m) : l.isInvocation = false := by
  by_contra hl
  rw [mark?_of_isInvocation (by simpa using hl)] at h
  cases h

/-- What does not clear is a comment without a mark. -/
theorem of_briefEvent?_ne {ts : List Located} {l : Located}
    (h : briefEvent? ts l ≠ some .clearing) : l.isInvocation = false ∧ mark? ts l = none := by
  unfold briefEvent? at h
  split at h
  · exact absurd rfl h
  · next hnot => simpa using hnot

section DocLine

variable {p : Position} {text : List Char}

theorem extend_docLine (hbrief : ¬ "@brief".toList <:+: text) (hmark : ¬ ['@', '\x7d'] <:+: text)
    (b : PendingBrief) : b.extend ⟨p, .docLine text⟩ =
      if text ≠ [] && text.head? ≠ some '@' then Assembly.continueBrief b p text else b := by
  have hcontinuation : Located.continuation? ⟨p, .docLine text⟩ =
      if text ≠ [] && text.head? ≠ some '@' then some text else none := by
    simp only [Located.continuation?, hbrief, hmark, not_false_eq_true, and_true, Bool.and_eq_true,
      decide_eq_true_eq]
  rw [PendingBrief.extend, hcontinuation]
  by_cases hplain : (text ≠ [] && text.head? ≠ some '@') = true
  · simp only [if_pos hplain, Assembly.continueBrief]
  · simp only [if_neg hplain]

theorem adds_docLine (ts : List Located) (a : Assembly) :
    Adds ts a ⟨p, .docLine text⟩ (a.docLine p text) := by
  unfold Assembly.docLine
  split
  · next hclosing => exact .closing (by simp [mark?, hclosing])
  · next hclosing =>
    have hevent : briefEvent? ts ⟨p, .docLine text⟩ =
        (Located.tag? ⟨p, .docLine text⟩).map .tag := by
      simp [briefEvent?, mark?, hclosing, Located.isInvocation, isHeading, Located.isFileBlock]
    simp only [Located.tag?] at hevent
    split
    · next rest hcut =>
      rw [hcut] at hevent
      exact .tag hevent
    · next hcut =>
      rw [hcut] at hevent
      have hmark : ¬ ['@', '\x7d'] <:+: text := by
        rwa [Assembly.isClosingMark, Text.occursIn_iff] at hclosing
      have htext := Adds.text (a := a) hevent
      simp only [extend_docLine (Text.cut?_eq_none_iff.mp hcut) hmark] at htext
      split
      · next hplain => simpa only [if_pos hplain] using htext
      · next hplain => simpa only [if_neg hplain, Option.map_id'] using htext

end DocLine

theorem extend_docBlock (b : PendingBrief) (p : Position) (text : List Char) :
    b.extend ⟨p, .docBlock text⟩ = b :=
  rfl

theorem adds_docBlock {ts : List Located} {a : Assembly} (hs : Assembly.SeesHeading ts a)
    (p : Position) (text : List Char) :
    Adds ts a ⟨p, .docBlock text⟩ (a.docBlock p text) := by
  have hfirst : (a.heading.isNone && Block.isFileBlock text) =
      isHeading ts ⟨p, .docBlock text⟩ := by
    rw [isHeading, ← hs, Option.not_isSome, Bool.and_comm]
    rfl
  unfold Assembly.docBlock
  -- From here the cases are those of the mark and of the tag.
  rw [hfirst]
  split
  · next hfile => exact .heading hfile
  · next hfile =>
    split
    · next name title hgroup =>
      have hmark : mark? ts ⟨p, .docBlock text⟩ =
          some (.opening (Block.group name title text p)) := by
        simp only [mark?, hgroup]
        exact if_neg hfile
      exact .opening hmark rfl
    · next hgroup =>
      have hmark : mark? ts ⟨p, .docBlock text⟩ =
          if Assembly.isClosingMark text then some .closing else none := by
        simp only [mark?, hgroup]
        exact if_neg hfile
      split
      · next hclosing => exact .closing (hmark.trans (if_pos hclosing))
      · next hclosing =>
        have hnone := hmark.trans (if_neg hclosing)
        have hevent : briefEvent? ts ⟨p, .docBlock text⟩ =
            (Located.tag? ⟨p, .docBlock text⟩).map .tag := by
          simp [briefEvent?, hnone, Located.isInvocation, hfile]
        simp only [Located.tag?] at hevent
        split
        · next b hb =>
          rw [hb] at hevent
          exact .tag hevent
        · next hb =>
          rw [hb] at hevent
          simpa only [extend_docBlock, Option.map_id'] using Adds.text (a := a) hevent

theorem adds_row (ts : List Located) (a : Assembly) (p : Position) (args : List (List Char)) :
    Adds ts a ⟨p, .row args⟩ (a.row p args) := by
  unfold Assembly.row
  split
  · next raw semanticType nameExtraction nativeExtraction flags =>
    split
    · next rawType hraw =>
      have hr : row? (a.current.map (·.name))
          ⟨p, .row [raw, semanticType, nameExtraction, nativeExtraction, flags]⟩ =
            some ⟨.ofList rawType, .ofList semanticType, .ofList nameExtraction,
              .ofList nativeExtraction, .ofList flags, none, a.current.map (·.name), p⟩ := by
        simp [row?, hraw]
      exact .row hr
    · next hraw => exact .failure rfl (by simp [row?, hraw])
  · next hargs => exact .failure rfl (row?_of_arguments hargs)

theorem adds_add {ts : List Located} {a : Assembly} (hs : Assembly.SeesHeading ts a)
    (l : Located) : Adds ts a l (a.add l) := by
  obtain ⟨p, t⟩ := l
  cases t with
  | docBlock text => exact adds_docBlock hs p text
  | docLine text => exact adds_docLine ts a
  | row args => exact adds_row ts a p args
  | malformed text => exact .failure rfl rfl

/-! ## What is kept -/

/-- The brief and the rows of an assembly after some tokens. -/
structure Briefs (ts : List Located) (a : Assembly) : Prop where
  brief : a.brief = pending? ts
  groups : (a.closed ++ a.current.toList).map Group.rows =
    (openings ts).map fun o => briefedRows (some o.1) ts
  ungrouped : a.ungrouped = briefedRows none ts

theorem brief_addRow (a : Assembly) (r : Row) : (a.addRow r).brief = a.brief := by
  unfold Assembly.addRow
  split <;> rfl

theorem isInvocation_of_row? {group : Option String} {l : Located} {r : Row}
    (h : row? group l = some r) : l.isInvocation = true := by
  by_contra hnot
  rw [(Assembly.row?_eq_none_iff _).mpr (Assembly.row?_of_comment (by simpa using hnot))] at h
  cases h

theorem Adds.brief {ts : List Located} {a b : Assembly} {l : Located} (h : Adds ts a l b)
    (ha : a.brief = pending? ts) : b.brief = pending? (ts ++ [l]) := by
  have hclearing (hl : l.isInvocation = true) : pending? (ts ++ [l]) = none :=
    pending?_of_clearing (briefEvent?_of_isInvocation hl)
  cases h with
  | heading hl =>
    rw [pending?_of_none (briefEvent?_of_isHeading hl), ← ha]
    obtain ⟨p, text, rfl⟩ := exists_of_isHeading hl
    simp only [extend_docBlock, Option.map_id']
  | opening hm hg => exact (pending?_of_clearing (briefEvent?_of_mark? hm)).symm
  | closing hm => exact (pending?_of_clearing (briefEvent?_of_mark? hm)).symm
  | tag he => exact (pending?_of_tag he).symm
  | text he => rw [pending?_of_none he, ← ha]
  | row hr => rw [brief_addRow, hclearing (isInvocation_of_row? hr)]
  | failure hl hr => exact (hclearing hl).symm

section Step

variable {ts : List Located} {a b : Assembly} {l : Located} (h : Briefs ts a)

include h

/-- What gives no row and opens no group leaves the rows as they are. -/
theorem Briefs.of_same (hbrief : b.brief = pending? (ts ++ [l])) (hrow : row? none l = none)
    (hgroups : b.closed ++ b.current.toList = a.closed ++ a.current.toList)
    (hungrouped : b.ungrouped = a.ungrouped) (hopenings : openings (ts ++ [l]) = openings ts) :
    Briefs (ts ++ [l]) b := by
  have hrows (s : Option Nat) : briefedRows s (ts ++ [l]) = briefedRows s ts :=
    briefedRows_of_noRow hrow s
  constructor
  · exact hbrief
  · rw [hgroups, hopenings, h.groups]
    simp only [hrows]
  · rw [hungrouped, hrows, h.ungrouped]

theorem Briefs.of_opening {g : Group} (hm : mark? ts l = some (.opening g)) (hg : g.rows = []) :
    Briefs (ts ++ [l]) (a.openGroup g) := by
  have hrows (s : Option Nat) : briefedRows s (ts ++ [l]) = briefedRows s ts :=
    briefedRows_of_noRow (Assembly.row?_of_comment (isInvocation_of_mark? hm)) s
  have hnew : briefedRows (some ts.length) ts = [] := briefedRows_eq_nil (Nat.le_refl _)
  have hclosed : (a.openGroup g).closed = a.closed ++ a.current.toList := a.closed_abandonGroup
  have hcurrent : (a.openGroup g).current = some g := rfl
  constructor
  · exact (pending?_of_clearing (briefEvent?_of_mark? hm)).symm
  · rw [hclosed, hcurrent, openings_of_opening hm, List.map_append, h.groups]
    simp [hrows, hg, hnew]
  · rw [hrows, ← h.ungrouped]
    exact a.ungrouped_abandonGroup

/-- A row goes to the group that is open, or to the rows outside groups. -/
theorem Briefs.of_row (hf : Assembly.Files ts a) {r : Row} (hr : briefedRow? ts l = some r) :
    Briefs (ts ++ [l]) (Assembly.addRow { a with brief := none } r) := by
  have hm : mark? ts l = none := mark?_of_isInvocation (isInvocation_of_briefedRow? hr)
  have hrows (s : Option Nat) : briefedRows s (ts ++ [l]) =
      briefedRows s ts ++ if slot ts = s then [r] else [] := by
    rw [briefedRows_concat, hr]
    split <;> rfl
  have hpast : (past ts).map (fun o => briefedRows (some o.1) (ts ++ [l])) =
      (past ts).map fun o => briefedRows (some o.1) ts := by
    -- A past group gets no more rows.
    apply List.map_congr_left
    intro o ho
    have hslot : slot ts ≠ some o.1 := by simpa [past] using (List.mem_filter.mp ho).2
    rw [hrows, if_neg hslot, List.append_nil]
  have hbrief : (Assembly.addRow { a with brief := none } r).brief = pending? (ts ++ [l]) := by
    rw [brief_addRow, pending?_of_clearing (briefEvent?_of_briefedRow? hr)]
  have hgroups := h.groups
  have hcurrent := hf.current
  rw [openings_eq, List.map_append, List.map_append] at hgroups
  cases hopen : open? ts with
  | none =>
    have hc : a.current = none := by simpa [hopen] using hcurrent
    have hslot : slot ts = none := by rw [slot, hopen]; rfl
    refine ⟨hbrief, ?_, ?_⟩
    · rw [openings_of_none hm, openings_eq, hopen]
      simpa [Assembly.addRow, hc, hpast, hopen] using hgroups
    · simp [Assembly.addRow, hc, hrows, hslot, h.ungrouped]
  | some o =>
    rw [hopen] at hcurrent hgroups
    obtain ⟨g, hc, -⟩ := Option.map_eq_some_iff.mp hcurrent
    have hslot : slot ts = some o.1 := by rw [slot, hopen]; rfl
    rw [hc] at hgroups
    obtain ⟨hclosed, hlast⟩ := List.append_inj' hgroups rfl
    have hg : g.rows = briefedRows (some o.1) ts := by simpa using hlast
    refine ⟨hbrief, ?_, ?_⟩
    · rw [openings_of_none hm, openings_eq, hopen, List.map_append, List.map_append, hpast,
        ← hclosed]
      simp [Assembly.addRow, hc, hrows, hslot, hg]
    · simp [Assembly.addRow, hc, hrows, hslot, h.ungrouped]

theorem Briefs.add (hf : Assembly.Files ts a) (hs : Assembly.SeesHeading ts a) (l : Located) :
    Briefs (ts ++ [l]) (a.add l) := by
  have hadds := adds_add hs l
  have hbrief := hadds.brief h.brief
  generalize a.add l = b at hadds hbrief
  cases hadds with
  | heading hl =>
    have hrow : row? none l = none := by
      obtain ⟨p, text, rfl⟩ := exists_of_isHeading hl
      rfl
    exact h.of_same hbrief hrow rfl rfl (openings_of_none (mark?_of_isHeading hl))
  | opening hm hg => exact h.of_opening hm hg
  | closing hm =>
    have hrow := Assembly.row?_of_comment (isInvocation_of_mark? hm)
    exact h.of_same hbrief hrow (by simp [Assembly.closeGroup]) rfl (openings_of_closing hm)
  | tag he =>
    have hevent : briefEvent? ts l ≠ some .clearing := by simp [he]
    obtain ⟨hl, hm⟩ := of_briefEvent?_ne hevent
    exact h.of_same hbrief (Assembly.row?_of_comment hl) rfl rfl (openings_of_none hm)
  | text he =>
    have hevent : briefEvent? ts l ≠ some .clearing := by simp [he]
    obtain ⟨hl, hm⟩ := of_briefEvent?_ne hevent
    exact h.of_same hbrief (Assembly.row?_of_comment hl) rfl rfl (openings_of_none hm)
  | row hr =>
    apply h.of_row hf
    rw [briefedRow?, hf.name, hr, ← h.brief]
    rfl
  | failure hl hr =>
    exact h.of_same hbrief hr rfl rfl (openings_of_none (mark?_of_isInvocation hl))

end Step

theorem briefs_foldl (ts : List Located) : Briefs ts (ts.foldl Assembly.add {}) := by
  induction ts using List.reverseRecOn with
  | nil => exact ⟨rfl, rfl, rfl⟩
  | append_singleton ts l ih =>
    obtain ⟨hf, hs⟩ := Assembly.files_foldl ts
    rw [List.foldl_append, List.foldl_cons, List.foldl_nil]
    exact ih.add hf hs l

/-! ## Documents -/

/-- Groups are what they are without briefs and the rows that they have. -/
theorem eq_of_map_plain {gs : List Group} {os : List (Nat × Group)} {ts : List Located}
    {rows : Nat × Group → List Row} (hplain : gs.map Group.plain = os.map (filled ts))
    (hrows : gs.map Group.rows = os.map rows) :
    gs = os.map fun o => { o.2 with rows := rows o } := by
  induction gs generalizing os with
  | nil =>
    cases os with
    | nil => rfl
    | cons o os => cases hplain
  | cons g gs ih =>
    cases os with
    | nil => cases hplain
    | cons o os =>
      obtain ⟨hg, hgs⟩ := List.cons.inj hplain
      obtain ⟨hgrows, hgsrows⟩ := List.cons.inj hrows
      have hfirst : g = { o.2 with rows := rows o } := by
        rw [← hgrows]
        exact congrArg (fun plain : Group => { plain with rows := g.rows }) hg
      rw [List.map_cons, ← ih hgs hgsrows, ← hfirst]

/-- Whether a comment has a brief tag. -/
def Located.HasBriefTag (l : Located) : Prop :=
  match l.token with
  | .docBlock text => ∃ line ∈ Text.lines text, "@brief".toList <:+: line
  | .docLine text => "@brief".toList <:+: text
  | _ => False

theorem Block.isSome_brief?_iff {text : List Char} :
    (Block.brief? text).isSome = true ↔ ∃ line ∈ Text.lines text, "@brief".toList <:+: line := by
  unfold Block.brief?
  split
  · next h =>
    simpa [Text.occursIn_eq_false_iff] using List.dropWhile_eq_nil_iff.mp h
  · next line rest h =>
    have hmem : line ∈ Text.lines text := (List.dropWhile_sublist _).subset (h ▸ List.mem_cons_self)
    have hline := List.head?_dropWhile_not (fun l => !Text.occursIn "@brief".toList l)
      (Text.lines text)
    rw [h] at hline
    simpa using ⟨line, hmem, Text.occursIn_iff.mp (by simpa using hline)⟩

theorem Located.isSome_tag?_iff {l : Located} : l.tag?.isSome = true ↔ l.HasBriefTag := by
  obtain ⟨p, t⟩ := l
  cases t with
  | docBlock text => exact (Option.isSome_map ..).symm ▸ Block.isSome_brief?_iff
  | docLine text => exact (Option.isSome_map ..).symm ▸ Text.occursIn_iff
  | row args => simp [tag?, HasBriefTag]
  | malformed text => simp [tag?, HasBriefTag]

/-- Where the rows of a document have their briefs from. -/
structure Briefed (ts : List Located) (d : Document) : Prop where
  /-- Every row has the brief that waits at its token. -/
  groups : d.groups = (openings ts).map fun o => { o.2 with rows := briefedRows (some o.1) ts }
  ungrouped : d.ungrouped = briefedRows none ts
  tagged : ∀ l : Located, l.tag?.isSome = true ↔ l.HasBriefTag
  /-- A brief begins at a tag after which nothing is a tag or clears. -/
  last : ∀ before tag, lastTag? before = some tag ↔ ∃ front l after, before = front ++ l :: after ∧
    tag.1 = front.length ∧ briefEvent? front l = some (.tag tag.2) ∧
    ∀ mid x rest, after = mid ++ x :: rest → briefEvent? (front ++ l :: mid) x = none
  /-- No two rows have their briefs from one tag. -/
  once : (tagNumbers ts).Pairwise (· < ·)

/-- A brief belongs to the next invocation of a row, and to no other. -/
theorem briefed_assemble (path : String) (ts : List Located) :
    Briefed ts (assemble path ts).document := by
  have hf := (Assembly.files_foldl ts).1
  have hb := briefs_foldl ts
  have hgroups : (assemble path ts).document.groups =
      (ts.foldl Assembly.add {}).closed ++ (ts.foldl Assembly.add {}).current.toList :=
    Assembly.closed_abandonGroup _
  exact {
    groups := hgroups.trans (eq_of_map_plain hf.groups hb.groups)
    ungrouped := (Assembly.ungrouped_abandonGroup _).trans hb.ungrouped
    tagged := fun _ => Located.isSome_tag?_iff
    last := fun _ _ => lastTag?_eq_some_iff
    once := (tagNumbers_ordered ts).1 }

end NodeAtlas.Definition
