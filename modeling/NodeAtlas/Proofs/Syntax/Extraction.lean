import NodeAtlas.Proofs.Syntax.Names
import NodeAtlas.Proofs.Text.Trim

/-!
Finding a name never fails. The strategies are read once more with all that could go wrong: a node
that is looked up may not be there, an offset may cut a character, and a recursion may need more steps
than there are. In an arena none of this happens, and the names are the same.
-/

namespace NodeAtlas.SyntaxTree

open Text

/-! ## Look-ups -/

section LookUps

variable (t : SyntaxTree)

/-- The text of a node, which has to be there. -/
def text? (id : Nat) : Option (List Char) :=
  (t.node? id).map fun n => (slice? t.text n.start n.stop).getD []

/-- The first of some nodes that passes a test. They have to be there up to this one. -/
def search? (accepts : SyntaxNode → Bool) (ids : List Nat) : Option (Option Nat) :=
  ids.findM? fun id => (t.node? id).map accepts

def child? (kinds : List String) (id : Nat) : Option (Option Nat) := do
  let n ← t.node? id
  t.search? (kinds.contains ·.kind) n.children

def childText? (kinds : List String) (id : Nat) : Option (List Char) := do
  match ← t.child? kinds id with
  | some c => t.text? c
  | none => some []

def firstChild? (id : Nat) : Option (List Char) := do
  let n ← t.node? id
  match n.children with
  | c :: _ => t.text? c
  | [] => some []

def identifierName? (id : Nat) : Option (List Char) := do
  match ← t.childText? ["identifier"] id with
  | [] => t.childText? ["qualified_identifier"] id
  | name => some name

def propertyName? (propertyKinds : List String) (id : Nat) : Option (List Char) := do
  match ← t.child? propertyKinds id with
  | some c => do
    let n ← t.node? c
    let text ← t.text? c
    some (if n.kind = "string" then unquote text else text)
  | none => some []

def assignmentTarget? (id : Nat) : Option (List Char) := do
  let n ← t.node? id
  match n.parent with
  | none => some []
  | some p => do
    let m ← t.node? p
    if m.kind = "binary_operator" || occursIn "declarator".toList m.kind.toList then
      match m.children with
      | first :: _ => do
        let f ← t.node? first
        if f.kind = "identifier" then t.text? first else some []
      | [] => some []
    else some []

def lastSegment? (id : Nat) : Option (List Char) := do
  let n ← t.node? id
  match ← t.search? (·.kind = "identifier") n.children.reverse with
  | some c => t.text? c
  | none => t.text? id

def firstName? (kinds : List String) (nameOf : Nat → Option (List Char)) (id : Nat) :
    Option (Option (List Char)) :=
  kinds.findSomeM? fun k => do
    match ← t.child? [k] id with
    | none => some none
    | some c =>
      match ← nameOf c with
      | [] => some none
      | name => some (some name)

/-- The qualified name by a recursion that has to end after so many steps. -/
def qualifiedName? : Nat → Nat → Option (List Char)
  | 0, _ => none
  | steps + 1, id => do
    match ← qualifiedKinds.findSomeM? fun k => t.child? [k] id with
    | some q => t.lastSegment? q
    | none =>
      match ← t.firstName? qualifiedContainers (qualifiedName? steps) id with
      | some name => some name
      | none => t.childText? ["identifier"] id

def callTarget? (id : Nat) : Option (List Char) := do
  let n ← t.node? id
  match ← t.search? (·.named) n.children with
  | none => some []
  | some callee => do
    let m ← t.node? callee
    if m.kind = "identifier" then t.text? callee
    else
      let last ← if memberKinds.contains m.kind then t.search? (·.named) m.children.reverse
        else some none
      match last with
      | some c => t.text? c
      | none => t.childText? ["identifier"] id

end LookUps

/-! ## Offsets -/

/-- The offset of the first character that passes a test. -/
def offset? (p : Char → Bool) (s : List Char) : Option Nat :=
  if s.any p then some (byteLength (s.takeWhile fun c => !p c)) else none

/-- The offset of the last character that passes a test. -/
def lastOffset? (p : Char → Bool) (s : List Char) : Option Nat :=
  match s.reverse.dropWhile fun c => !p c with
  | [] => none
  | _ :: front => some (byteLength front.reverse)

/-- Where the name at the end of a text starts: behind the last boundary. -/
def startOfName? (before : List Char) : Option Nat :=
  match lastOffset? isNameBoundary before with
  | none => some 0
  | some i => do
    let rest ← slice? before i (byteLength before)
    some (i + (rest.head?.map Char.utf8Size).getD 1)

/-- The name before the first opening parenthesis, cut out by offsets. -/
def nameBeforeParen? (s : List Char) : Option (List Char) :=
  match offset? (· = '(') s with
  | none => some []
  | some paren => do
    let front ← slice? s 0 paren
    let before := trimEnd front
    let start ← startOfName? before
    let rest ← slice? before start (byteLength before)
    match trim rest with
    | c :: more => some (if isAlphabetic c || c = '_' || c = '~' then c :: more else [])
    | [] => some []

section Strategies

variable (t : SyntaxTree)

def declaratorName? (steps id : Nat) : Option (List Char) := do
  match ← t.firstName? declaratorKinds (t.qualifiedName? steps) id with
  | some name => some name
  | none =>
    match ← t.childText? ["identifier"] id with
    | [] => do
      let text ← t.text? id
      nameBeforeParen? text
    | name => some name

/-- The name of a node by look-ups, cuts and recursions that may fail. -/
def extractName? (steps : Nat) (propertyKinds : List String) (id : Nat) :
    NameStrategy → Option (List Char)
  | .none | .custom => some []
  | .nodeText => t.text? id
  | .firstChild => t.firstChild? id
  | .findIdentifier => t.identifierName? id
  | .findProperty => t.propertyName? propertyKinds id
  | .findAssignmentTarget => t.assignmentTarget? id
  | .findQualifiedIdentifier => t.qualifiedName? steps id
  | .findInDeclarator => t.declaratorName? steps id
  | .findCallTarget => t.callTarget? id

end Strategies

/-! ## Nothing fails -/

theorem findM?_eq {α : Type} {test? : α → Option Bool} {test : α → Bool} {as : List α}
    (h : ∀ a ∈ as, test? a = some (test a)) : as.findM? test? = some (as.find? test) := by
  induction as with
  | nil => rfl
  | cons a as ih =>
    obtain ⟨ha, has⟩ := List.forall_mem_cons.mp h
    rw [List.findM?, ha, List.find?_cons]
    cases htest : test a with
    | true => rfl
    | false => exact ih has

theorem findSomeM?_eq {α β : Type} {f? : α → Option (Option β)} {f : α → Option β} {as : List α}
    (h : ∀ a ∈ as, f? a = some (f a)) : as.findSomeM? f? = some (as.findSome? f) := by
  induction as with
  | nil => rfl
  | cons a as ih =>
    obtain ⟨ha, has⟩ := List.forall_mem_cons.mp h
    rw [List.findSomeM?_cons, ha, List.findSome?_cons]
    cases hf : f a with
    | some b => rfl
    | none => exact ih has

section Total

variable {t : SyntaxTree}

theorem text?_eq {id : Nat} (hid : id < t.size) : t.text? id = some (t.textOf id) := by
  obtain ⟨n, hn⟩ := exists_node? hid
  rw [text?, textOf, hn]
  rfl

theorem search?_eq {accepts : SyntaxNode → Bool} {test : Nat → Bool} {ids : List Nat}
    (hids : ∀ c ∈ ids, c < t.size) (htest : ∀ c n, t.node? c = some n → accepts n = test c) :
    t.search? accepts ids = some (ids.find? test) := by
  refine findM?_eq fun c hc => ?_
  obtain ⟨n, hn⟩ := exists_node? (hids c hc)
  rw [hn, Option.map_some, htest c n hn]

theorem kind_eq {id : Nat} {n : SyntaxNode} (hn : t.node? id = some n) : t.kind id = n.kind := by
  rw [SyntaxTree.kind, hn]
  rfl

theorem named_eq {id : Nat} {n : SyntaxNode} (hn : t.node? id = some n) :
    t.named id = n.named := by
  rw [SyntaxTree.named, hn]
  rfl

theorem children_eq {id : Nat} {n : SyntaxNode} (hn : t.node? id = some n) :
    t.children id = n.children := by
  rw [SyntaxTree.children, hn]
  rfl

variable (h : t.IsArena)
include h

theorem lt_size_of_mem {id c : Nat} (hc : c ∈ t.children id) : c < t.size :=
  lt_size_of_parent (h.mem_children.mp hc)

theorem lt_size_of_mem_node {id c : Nat} {n : SyntaxNode} (hn : t.node? id = some n)
    (hc : c ∈ n.children) : c < t.size :=
  lt_size_of_mem h (children_eq hn ▸ hc)

theorem lt_size_of_findChild? {kinds : List String} {id c : Nat}
    (hc : t.findChild? kinds id = some c) : c < t.size :=
  lt_size_of_mem h (List.mem_of_find?_eq_some hc)

theorem child?_eq (kinds : List String) {id : Nat} (hid : id < t.size) :
    t.child? kinds id = some (t.findChild? kinds id) := by
  obtain ⟨n, hn⟩ := exists_node? hid
  rw [child?, findChild?, hn, children_eq hn]
  refine search?_eq (fun c hc => lt_size_of_mem_node h hn hc) fun c m hm => ?_
  rw [kind_eq hm]

theorem childText?_eq (kinds : List String) {id : Nat} (hid : id < t.size) :
    t.childText? kinds id = some (t.childText kinds id) := by
  rw [childText?, child?_eq h kinds hid, childText]
  cases hc : t.findChild? kinds id with
  | none => rfl
  | some c => exact text?_eq (lt_size_of_findChild? h hc)

theorem firstChild?_eq {id : Nat} (hid : id < t.size) :
    t.firstChild? id = some (((t.children id).head?.map t.textOf).getD []) := by
  obtain ⟨n, hn⟩ := exists_node? hid
  rw [firstChild?, hn, children_eq hn, Option.bind_eq_bind, Option.bind_some]
  cases hcs : n.children with
  | nil => rfl
  | cons c cs => exact text?_eq (lt_size_of_mem_node h hn (hcs ▸ List.mem_cons_self))

theorem identifierName?_eq {id : Nat} (hid : id < t.size) :
    t.identifierName? id = some (t.identifierName id) := by
  rw [identifierName?, childText?_eq h _ hid, identifierName]
  cases t.childText ["identifier"] id with
  | nil => exact childText?_eq h _ hid
  | cons c name => rfl

theorem propertyName?_eq (propertyKinds : List String) {id : Nat} (hid : id < t.size) :
    t.propertyName? propertyKinds id = some (t.propertyName propertyKinds id) := by
  rw [propertyName?, child?_eq h _ hid, propertyName]
  cases hc : t.findChild? propertyKinds id with
  | none => rfl
  | some c =>
    have hlt := lt_size_of_findChild? h hc
    obtain ⟨n, hn⟩ := exists_node? hlt
    simp only [Option.bind_eq_bind, Option.bind_some, hn, text?_eq hlt, kind_eq hn]

theorem assignmentTarget?_eq {id : Nat} (hid : id < t.size) :
    t.assignmentTarget? id = some (t.assignmentTarget id) := by
  obtain ⟨n, hn⟩ := exists_node? hid
  have hparent : t.parent id = n.parent := by rw [SyntaxTree.parent, hn, Option.bind_some]
  rw [assignmentTarget?, assignmentTarget, hn, hparent, Option.bind_eq_bind, Option.bind_some]
  cases hp : n.parent with
  | none => rfl
  | some p =>
    obtain ⟨m, hm⟩ := exists_node? (Nat.lt_trans (h.lt (hparent.trans hp)) hid)
    simp only [Option.bind_some, hm, kind_eq hm, children_eq hm]
    split
    · cases hcs : m.children with
      | nil => rfl
      | cons c cs =>
        have hlt : c < t.size := lt_size_of_mem_node h hm (hcs ▸ List.mem_cons_self)
        obtain ⟨f, hf⟩ := exists_node? hlt
        simp only [hf, Option.bind_some, kind_eq hf, text?_eq hlt]
        split <;> rfl
    · rfl

theorem lastSegment?_eq {id : Nat} (hid : id < t.size) :
    t.lastSegment? id = some (t.lastSegment id) := by
  obtain ⟨n, hn⟩ := exists_node? hid
  have hmem {c : Nat} (hc : c ∈ n.children.reverse) : c < t.size :=
    lt_size_of_mem_node h hn (List.mem_reverse.mp hc)
  have hsearch : t.search? (·.kind = "identifier") n.children.reverse =
      some (n.children.reverse.find? fun c => t.kind c = "identifier") :=
    search?_eq (fun c hc => hmem hc) fun c m hm => by rw [kind_eq hm]
  rw [lastSegment?, lastSegment, hn, children_eq hn, Option.bind_eq_bind, Option.bind_some, hsearch]
  cases hc : n.children.reverse.find? fun c => t.kind c = "identifier" with
  | none => exact text?_eq hid
  | some c => exact text?_eq (hmem (List.mem_of_find?_eq_some hc))

theorem firstName?_eq {kinds : List String} {nameOf? : Nat → Option (List Char)}
    {nameOf : Nat → List Char} {id : Nat} (hid : id < t.size)
    (hname : ∀ c ∈ t.children id, nameOf? c = some (nameOf c)) :
    t.firstName? kinds nameOf? id = some (t.firstName kinds nameOf id) := by
  refine findSomeM?_eq fun k _ => ?_
  rw [child?_eq h [k] hid]
  cases hc : t.findChild? [k] id with
  | none => rfl
  | some c =>
    simp only [Option.bind_eq_bind, Option.bind_some,
      hname c (List.mem_of_find?_eq_some hc)]
    cases nameOf c with
    | nil => rfl
    | cons d name => rfl

/-- The recursion goes to later nodes only, so it ends in as many steps as there are nodes left. -/
theorem qualifiedName?_eq {steps depth id : Nat} (hid : id < t.size) (hsteps : t.size - id ≤ steps)
    (hdepth : t.size - id ≤ depth) :
    t.qualifiedName? steps id = some (t.qualifiedNameWithin depth id) := by
  induction steps generalizing depth id with
  | zero => omega
  | succ steps ih =>
    obtain ⟨depth, rfl⟩ : ∃ d, depth = d + 1 := Nat.exists_eq_succ_of_ne_zero (by omega)
    have hqualified : (qualifiedKinds.findSomeM? fun k => t.child? [k] id) =
        some (qualifiedKinds.findSome? fun k => t.findChild? [k] id) :=
      findSomeM?_eq fun k _ => child?_eq h [k] hid
    have hinner : t.firstName? qualifiedContainers (t.qualifiedName? steps) id =
        some (t.firstName qualifiedContainers (t.qualifiedNameWithin depth) id) := by
      refine firstName?_eq h hid fun c hc => ?_
      have hlt := h.lt (h.mem_children.mp hc)
      exact ih (lt_size_of_mem h hc) (by omega) (by omega)
    rw [qualifiedName?, hqualified, qualifiedNameWithin_succ]
    cases hq : qualifiedKinds.findSome? fun k => t.findChild? [k] id with
    | some q =>
      obtain ⟨k, -, hk⟩ := List.exists_of_findSome?_eq_some hq
      exact lastSegment?_eq h (lt_size_of_findChild? h hk)
    | none =>
      simp only [Option.bind_eq_bind, Option.bind_some, hinner]
      cases t.firstName qualifiedContainers (t.qualifiedNameWithin depth) id with
      | some name => rfl
      | none => exact childText?_eq h _ hid

theorem callTarget?_eq {id : Nat} (hid : id < t.size) :
    t.callTarget? id = some (t.callTarget id) := by
  obtain ⟨n, hn⟩ := exists_node? hid
  have hnamed {ids : List Nat} (hids : ∀ c ∈ ids, c < t.size) :
      t.search? (·.named) ids = some (ids.find? t.named) :=
    search?_eq hids fun c m hm => (named_eq hm).symm
  rw [callTarget?, callTarget, hn, children_eq hn, Option.bind_eq_bind, Option.bind_some,
    hnamed fun c hc => lt_size_of_mem_node h hn hc]
  cases hcallee : n.children.find? t.named with
  | none => rfl
  | some callee =>
    have hlt := lt_size_of_mem_node h hn (List.mem_of_find?_eq_some hcallee)
    obtain ⟨m, hm⟩ := exists_node? hlt
    have hmem {c : Nat} (hc : c ∈ m.children.reverse) : c < t.size :=
      lt_size_of_mem_node h hm (List.mem_reverse.mp hc)
    simp only [Option.bind_eq_bind, Option.bind_some, hm, kind_eq hm, children_eq hm,
      hnamed fun c hc => hmem hc]
    split
    · exact text?_eq hlt
    split
    · cases hlast : m.children.reverse.find? t.named with
      | none => exact childText?_eq h _ hid
      | some c => exact text?_eq (hmem (List.mem_of_find?_eq_some hlast))
    · exact childText?_eq h _ hid

end Total

/-! ## Cuts -/

/-- What stands behind the last character that passes a test, and the offset of that character. -/
theorem lastOffset?_cases (p : Char → Bool) (s : List Char) :
    let rest := (s.reverse.takeWhile fun c => !p c).reverse
    lastOffset? p s = none ∧ s = rest ∨
      ∃ front c, lastOffset? p s = some (byteLength front) ∧ s = front ++ c :: rest := by
  intro rest
  have hs : s = (s.reverse.dropWhile fun c => !p c).reverse ++ rest := by
    rw [← List.reverse_append, List.takeWhile_append_dropWhile, List.reverse_reverse]
  unfold lastOffset?
  cases hdrop : s.reverse.dropWhile fun c => !p c with
  | nil =>
    rw [hdrop] at hs
    exact .inl ⟨rfl, hs⟩
  | cons c front =>
    rw [hdrop, List.reverse_cons, List.append_assoc] at hs
    exact .inr ⟨front.reverse, c, rfl, hs⟩

theorem trim_of_takeWhile (s : List Char) :
    trim (s.reverse.takeWhile fun c => !isNameBoundary c).reverse =
      (s.reverse.takeWhile fun c => !isNameBoundary c).reverse := by
  refine trim_of_trimmed (trimmed_of_forall fun c hc => ?_)
  have hnot := List.all_eq_true.mp List.all_takeWhile c (List.mem_reverse.mp hc)
  simp only [isNameBoundary, Bool.not_eq_true', Bool.or_eq_false_iff] at hnot
  exact hnot.1.1.1

/-- The cut behind the last boundary. -/
theorem exists_startOfName? (w : List Char) : ∃ start, startOfName? w = some start ∧
    slice? w start (byteLength w) =
      some (w.reverse.takeWhile fun c => !isNameBoundary c).reverse := by
  rcases lastOffset?_cases isNameBoundary w with ⟨hnone, hw⟩ | ⟨front, c, hsome, hw⟩
  · refine ⟨0, by rw [startOfName?, hnone], ?_⟩
    rw [← hw]
    simpa using slice?_prefix w []
  · generalize (w.reverse.takeWhile fun c => !isNameBoundary c).reverse = name at hw ⊢
    subst hw
    refine ⟨byteLength front + c.utf8Size, ?_, ?_⟩
    · rw [startOfName?, hsome]
      simp only [slice?_suffix, Option.bind_eq_bind, Option.bind_some, List.head?_cons,
        Option.map_some, Option.getD_some]
    · simpa using slice?_suffix (front ++ [c]) name

theorem nameBeforeParen?_eq (s : List Char) : nameBeforeParen? s = some (nameBeforeParen s) := by
  have hoffset : offset? (· = '(') s =
      if s.contains '(' then some (byteLength (s.takeWhile (· ≠ '('))) else none := by
    simp [offset?]
  have hfront : slice? s 0 (byteLength (s.takeWhile (· ≠ '('))) = some (s.takeWhile (· ≠ '(')) := by
    have hcut := slice?_prefix (s.takeWhile (· ≠ '(')) (s.dropWhile (· ≠ '('))
    rwa [List.takeWhile_append_dropWhile] at hcut
  rw [nameBeforeParen?, hoffset, nameBeforeParen]
  cases s.contains '(' with
  | false => rfl
  | true =>
    obtain ⟨start, hstart, hname⟩ := exists_startOfName? (trimEnd (s.takeWhile (· ≠ '(')))
    simp only [if_true, hfront, hstart, hname, trim_of_takeWhile, Option.bind_eq_bind,
      Option.bind_some]
    cases ((trimEnd (s.takeWhile (· ≠ '('))).reverse.takeWhile fun c => !isNameBoundary c).reverse
      with
    | nil => rfl
    | cons c name => rfl

/-! ## Names -/

section Names

variable {t : SyntaxTree} (h : t.IsArena)
include h

theorem declaratorName?_eq {steps id : Nat} (hid : id < t.size) (hsteps : t.size ≤ steps) :
    t.declaratorName? steps id = some (t.declaratorName id) := by
  have hinner : t.firstName? declaratorKinds (t.qualifiedName? steps) id =
      some (t.firstName declaratorKinds t.qualifiedName id) := by
    refine firstName?_eq h hid fun c hc => ?_
    exact qualifiedName?_eq h (lt_size_of_mem h hc) (by omega) (Nat.sub_le t.size c)
  rw [declaratorName?, hinner, declaratorName_eq]
  cases t.firstName declaratorKinds t.qualifiedName id with
  | some name => rfl
  | none =>
    simp only [Option.bind_eq_bind, Option.bind_some, childText?_eq h _ hid, text?_eq hid]
    cases t.childText ["identifier"] id with
    | nil => exact nameBeforeParen?_eq _
    | cons c name => rfl

/-- No look-up, cut or recursion fails. -/
theorem extractName?_eq {steps id : Nat} (hid : id < t.size) (hsteps : t.size ≤ steps)
    (propertyKinds : List String) (s : NameStrategy) :
    t.extractName? steps propertyKinds id s = some (t.extractName propertyKinds id s) := by
  cases s with
  | none => rfl
  | custom => rfl
  | nodeText => exact text?_eq hid
  | firstChild => exact firstChild?_eq h hid
  | findIdentifier => exact identifierName?_eq h hid
  | findProperty => exact propertyName?_eq h propertyKinds hid
  | findAssignmentTarget => exact assignmentTarget?_eq h hid
  | findQualifiedIdentifier => exact qualifiedName?_eq h hid (by omega) (Nat.sub_le t.size id)
  | findInDeclarator => exact declaratorName?_eq h hid hsteps
  | findCallTarget => exact callTarget?_eq h hid

/-- Names come from the node. In an arena with nested spans the extraction ends and never fails, the
name is a part of the text of the node, and a qualified name is the text of a node below it. -/
theorem name_within (hn : t.IsNested) {id : Nat} (hid : id < t.size) (propertyKinds : List String)
    {s : NameStrategy} (hs : s ≠ .findAssignmentTarget) :
    (∀ steps, t.size ≤ steps →
      t.extractName? steps propertyKinds id s = some (t.extractName propertyKinds id s)) ∧
    t.extractName propertyKinds id s <:+: t.textOf id ∧
    (s = .findQualifiedIdentifier → t.extractName propertyKinds id s ≠ [] →
      ∃ d, t.IsAncestor id d ∧ t.extractName propertyKinds id s = t.textOf d) := by
  refine ⟨fun steps hsteps => extractName?_eq h hid hsteps propertyKinds s,
    infix_extractName h hn propertyKinds id hs, ?_⟩
  rintro rfl hne
  exact (isTextBelow_qualifiedNameWithin h t.size id).resolve_left hne

end Names

/-- A declaration whose name has a wide character, and the same text without a part that was
understood. -/
def wideDeclaration : List Edit :=
  [.push "function_definition" true 0 11 none, .push "type" true 0 2 (some 0),
    .push "function_declarator" true 3 11 (some 0), .push "qualified_identifier" true 3 8 (some 2),
    .push "identifier" true 6 8 (some 3), .push "ERROR" true 0 11 (some 0)]

theorem name_within_wideDeclaration :
    ∃ t, build? "ä A::ö(x)".toList wideDeclaration = some t ∧ t.IsNested ∧
      t.extractName? 6 [] 0 .findQualifiedIdentifier = some ['ö'] ∧
      (∃ d, t.IsAncestor 0 d ∧ ['ö'] = t.textOf d) ∧
      t.extractName? 6 [] 5 .findInDeclarator = some ['ö'] ∧ ['ö'] <:+: t.textOf 5 := by
  have hbuild : (build? "ä A::ö(x)".toList wideDeclaration).isSome = true := by decide
  obtain ⟨t, ht⟩ := Option.isSome_iff_exists.mp hbuild
  have h := isArena_build? ht
  have hn : t.IsNested := by
    cases ht
    exact ⟨by decide +kernel, by decide +kernel⟩
  have hroot : 0 < t.size := by
    cases ht
    decide
  have herror : 5 < t.size := by
    cases ht
    decide
  have hsize : t.size ≤ 6 := by
    cases ht
    decide
  have hqualified : t.extractName [] 0 .findQualifiedIdentifier = ['ö'] := by
    cases ht
    decide +kernel
  have hlast : t.extractName [] 5 .findInDeclarator = ['ö'] := by
    cases ht
    decide +kernel
  obtain ⟨htotal, -, hbelow⟩ :=
    name_within h hn hroot [] (s := .findQualifiedIdentifier) (by decide)
  obtain ⟨htotal', hinfix, -⟩ :=
    name_within h hn herror [] (s := .findInDeclarator) (by decide)
  rw [hqualified] at htotal hbelow
  rw [hlast] at htotal' hinfix
  exact ⟨t, ht, hn, htotal 6 hsize, hbelow rfl (by simp), htotal' 6 hsize, hinfix⟩

end NodeAtlas.SyntaxTree
