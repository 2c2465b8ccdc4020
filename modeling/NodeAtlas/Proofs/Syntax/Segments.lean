import NodeAtlas.Proofs.Syntax.Extraction

/-!
Segments of qualified names. A qualified node may end in another one, and so on down to the last
identifier. The name is taken from the first of these nodes alone, so it is the last identifier exactly
if that stands directly in it.
-/

namespace NodeAtlas.SyntaxTree

def lastNamed? (t : SyntaxTree) (id : Nat) : Option Nat := (t.children id).reverse.find? t.named

/-- From the first node, going to the last named child as long as the node is a qualified identifier leads
to the second one. -/
inductive EndsIn (t : SyntaxTree) : Nat → Nat → Prop where
  | here {q : Nat} (hq : t.kind q ≠ "qualified_identifier") : t.EndsIn q q
  | next {q c e : Nat} (hq : t.kind q = "qualified_identifier") (hc : t.lastNamed? q = some c)
      (he : t.EndsIn c e) : t.EndsIn q e

/-- The last identifier directly below a node. -/
def IsLastIdentifier (t : SyntaxTree) (q d : Nat) : Prop :=
  ∃ before after, t.children q = before ++ d :: after ∧ t.kind d = "identifier" ∧
    ∀ c ∈ after, t.kind c ≠ "identifier"

section Tree

variable {t : SyntaxTree}

theorem mem_of_lastNamed? {q c : Nat} (h : t.lastNamed? q = some c) : c ∈ t.children q :=
  List.mem_reverse.mp (List.mem_of_find?_eq_some h)

theorem EndsIn.leads {q e : Nat} (h : t.EndsIn q e) : t.Leads q e := by
  induction h with
  | here hq => exact .refl
  | next hq hc _ ih => exact Relation.ReflTransGen.head (mem_of_lastNamed? hc) ih

theorem IsLastIdentifier.mem {q d : Nat} (h : t.IsLastIdentifier q d) : d ∈ t.children q := by
  obtain ⟨before, after, heq, -⟩ := h
  simp [heq]

/-- A node has a last identifier, which is its segment, or none, and then all of it is. -/
theorem lastSegment_cases (t : SyntaxTree) (q : Nat) :
    (∃ d, t.IsLastIdentifier q d ∧ t.lastSegment q = t.textOf d) ∨
      (∀ c ∈ t.children q, t.kind c ≠ "identifier") ∧ t.lastSegment q = t.textOf q := by
  unfold lastSegment
  cases hfind : (t.children q).reverse.find? fun c => t.kind c = "identifier" with
  | some d =>
    obtain ⟨hkind, front, back, heq, hfront⟩ := List.find?_eq_some_iff_append.mp hfind
    refine .inl ⟨d, ⟨back.reverse, front.reverse, ?_, by simpa using hkind, fun c hc => ?_⟩, rfl⟩
    · rw [← List.reverse_reverse (t.children q), heq]
      simp
    · simpa using hfront c (List.mem_reverse.mp hc)
  | none =>
    refine .inr ⟨fun c hc => ?_, rfl⟩
    simpa using List.find?_eq_none.mp hfind c (List.mem_reverse.mpr hc)

section Arena

variable (h : t.IsArena)
include h

/-- In the order of the children, nothing behind the last identifier is one. -/
theorem isLastIdentifier_iff {q d : Nat} : t.IsLastIdentifier q d ↔
    d ∈ t.children q ∧ t.kind d = "identifier" ∧
      ∀ c ∈ t.children q, d < c → t.kind c ≠ "identifier" := by
  constructor
  · intro hlast
    have hmem := hlast.mem
    obtain ⟨before, after, heq, hkind, hafter⟩ := hlast
    refine ⟨hmem, hkind, fun c hc hlt => ?_⟩
    have hincreasing := h.increasing q
    rw [heq] at hc hincreasing
    rcases List.mem_append.mp hc with hc | hc
    · have hbefore := (List.pairwise_append.mp hincreasing).2.2 c hc d List.mem_cons_self
      exact absurd hlt (Nat.lt_asymm hbefore)
    · rcases List.mem_cons.mp hc with rfl | hc
      · exact absurd hlt (Nat.lt_irrefl c)
      · exact hafter c hc
  · rintro ⟨hmem, hkind, hafter⟩
    obtain ⟨before, after, heq⟩ := List.append_of_mem hmem
    refine ⟨before, after, heq, hkind, fun c hc => hafter c (by simp [heq, hc]) ?_⟩
    have hincreasing := h.increasing q
    rw [heq] at hincreasing
    exact List.rel_of_pairwise_cons (List.pairwise_append.mp hincreasing).2.1 hc

theorem isLastIdentifier_unique {q d e : Nat} (hd : t.IsLastIdentifier q d)
    (he : t.IsLastIdentifier q e) : d = e := by
  obtain ⟨hd, hkind, hbehind⟩ := (isLastIdentifier_iff h).mp hd
  obtain ⟨he, hkind', hbehind'⟩ := (isLastIdentifier_iff h).mp he
  rcases Nat.lt_trichotomy d e with hlt | heq | hlt
  · exact absurd hkind' (hbehind e he hlt)
  · exact heq
  · exact absurd hkind (hbehind' d hd hlt)

/-- What a chain ends in is a child of its first node only if the chain has no more than one step. -/
theorem EndsIn.lastNamed?_of_mem {q e : Nat} (hqe : t.EndsIn q e) (he : e ∈ t.children q) :
    t.lastNamed? q = some e := by
  have hparent := h.mem_children.mp he
  cases hqe with
  | here hq => exact absurd (h.lt hparent) (Nat.lt_irrefl q)
  | @next _ c _ hq hc hce =>
    rcases Relation.ReflTransGen.cases_tail_iff _ _ _ |>.mp hce.leads with heq | ⟨p, hp, hpe⟩
    · exact heq ▸ hc
    · -- Otherwise the chain would come back from the child to the node.
      have hpq : p = q := Option.some.inj ((h.mem_children.mp hpe).symm.trans hparent)
      have hle := h.le_of_leads hp
      have hlt := h.lt (h.mem_children.mp (mem_of_lastNamed? hc))
      omega

end Arena

theorem lt_size_of_findChild?_eq {kinds : List String} {id c : Nat}
    (hc : t.findChild? kinds id = some c) : id < t.size := by
  refine Nat.lt_of_not_le fun hge => ?_
  rw [findChild?, SyntaxTree.children, node?_eq_none hge] at hc
  cases hc

theorem extractName_qualified {id q : Nat} (hq : t.findChild? ["qualified_identifier"] id = some q)
    (propertyKinds : List String) :
    t.extractName propertyKinds id .findQualifiedIdentifier = t.lastSegment q := by
  have hpos := Nat.zero_lt_of_lt (lt_size_of_findChild?_eq hq)
  obtain ⟨depth, hdepth⟩ := Nat.exists_eq_succ_of_ne_zero (Nat.ne_of_gt hpos)
  show t.qualifiedNameWithin t.size id = t.lastSegment q
  rw [hdepth, qualifiedNameWithin_succ, qualifiedKinds, List.findSome?_cons, hq]

/-- When the chain from a qualified child ends in an identifier, the name is the text of the last
identifier directly below the child or, if there is none, of the child. This is the end of the chain
exactly if it is the last named child of the qualified child and no other identifier comes behind it. -/
theorem exists_segment {id q e : Nat} (hq : t.findChild? ["qualified_identifier"] id = some q)
    (he : t.EndsIn q e) (hkind : t.kind e = "identifier") (propertyKinds : List String) :
    ∃ d, t.extractName propertyKinds id .findQualifiedIdentifier = t.textOf d ∧
      (t.IsLastIdentifier q d ∨ d = q ∧ ∀ c ∈ t.children q, t.kind c ≠ "identifier") ∧
      (t.IsArena → (d = e ↔ t.lastNamed? q = some e ∧
        ∀ c ∈ t.children q, e < c → t.kind c ≠ "identifier") ∧
        ∀ steps, t.size ≤ steps →
          t.extractName? steps propertyKinds id .findQualifiedIdentifier = some (t.textOf d)) := by
  have hname := extractName_qualified hq propertyKinds
  have htotal (h : t.IsArena) (steps : Nat) (hsteps : t.size ≤ steps) :
      t.extractName? steps propertyKinds id .findQualifiedIdentifier = some (t.lastSegment q) := by
    rw [extractName?_eq h (lt_size_of_findChild?_eq hq) hsteps, hname]
  rcases lastSegment_cases t q with ⟨d, hd, htext⟩ | ⟨hnone, htext⟩
  · rw [htext] at hname htotal
    refine ⟨d, hname, .inl hd, fun h => ⟨?_, htotal h⟩⟩
    constructor
    · rintro rfl
      obtain ⟨hmem, -, hbehind⟩ := (isLastIdentifier_iff h).mp hd
      exact ⟨he.lastNamed?_of_mem h hmem, hbehind⟩
    · rintro ⟨hlast, hbehind⟩
      have hlast := (isLastIdentifier_iff h).mpr ⟨mem_of_lastNamed? hlast, hkind, hbehind⟩
      exact isLastIdentifier_unique h hd hlast
  · rw [htext] at hname htotal
    refine ⟨q, hname, .inr ⟨rfl, hnone⟩, fun h => ⟨?_, htotal h⟩⟩
    constructor
    · rintro rfl
      have hqualified := List.find?_some hq
      simp [hkind] at hqualified
    · rintro ⟨hlast, -⟩
      exact absurd hkind (hnone e (mem_of_lastNamed? hlast))

end Tree

theorem exists_segment_wideDeclaration :
    ∃ t, build? "ä A::ö(x)".toList wideDeclaration = some t ∧
      t.findChild? ["qualified_identifier"] 2 = some 3 ∧ t.EndsIn 3 4 ∧ t.kind 4 = "identifier" ∧
      t.extractName [] 2 .findQualifiedIdentifier = t.textOf 4 ∧ t.textOf 4 = ['ö'] := by
  have hbuild : (build? "ä A::ö(x)".toList wideDeclaration).isSome = true := by decide
  obtain ⟨t, ht⟩ := Option.isSome_iff_exists.mp hbuild
  have hq : t.findChild? ["qualified_identifier"] 2 = some 3 := by
    cases ht
    decide
  have hlast : t.lastNamed? 3 = some 4 := by
    cases ht
    decide
  have hkinds : t.kind 3 = "qualified_identifier" ∧ t.kind 4 = "identifier" ∧
      t.children 3 = [4] := by
    cases ht
    decide
  have htext : t.textOf 4 = ['ö'] := by
    cases ht
    decide +kernel
  obtain ⟨hkind, hkind', hchildren⟩ := hkinds
  have he : t.EndsIn 3 4 := .next hkind hlast (.here (by simp [hkind']))
  obtain ⟨d, hname, -, hsame⟩ := exists_segment hq he hkind' []
  have hd : d = 4 := (hsame (isArena_build? ht)).1.mpr ⟨hlast, by simp [hchildren]⟩
  exact ⟨t, ht, hq, he, hkind', hd ▸ hname, htext⟩

/-- Steps that add a name of three segments, which nest to the right. -/
def nestedName : List Edit :=
  [.push "expression" true 0 7 none, .push "qualified_identifier" true 0 7 (some 0),
    .push "namespace_identifier" true 0 1 (some 1), .push "::" false 1 3 (some 1),
    .push "qualified_identifier" true 3 7 (some 1), .push "namespace_identifier" true 3 4 (some 4),
    .push "::" false 4 6 (some 4), .push "identifier" true 6 7 (some 4)]

/-- With more than two segments the name has all of them. -/
theorem segments_kept :
    ∃ t, build? "A::B::c".toList nestedName = some t ∧
      t.findChild? ["qualified_identifier"] 0 = some 1 ∧ t.EndsIn 1 7 ∧ t.kind 7 = "identifier" ∧
      t.textOf 7 = ['c'] ∧
      t.extractName [] 0 .findQualifiedIdentifier = "A::B::c".toList ∧
      t.extractName [] 0 .findQualifiedIdentifier ≠ t.textOf 7 := by
  have hbuild : (build? "A::B::c".toList nestedName).isSome = true := by decide
  obtain ⟨t, ht⟩ := Option.isSome_iff_exists.mp hbuild
  have hlinks : t.findChild? ["qualified_identifier"] 0 = some 1 ∧ t.lastNamed? 1 = some 4 ∧
      t.lastNamed? 4 = some 7 := by
    cases ht
    decide
  have hkinds : t.kind 1 = "qualified_identifier" ∧ t.kind 4 = "qualified_identifier" ∧
      t.kind 7 = "identifier" := by
    cases ht
    decide
  have htexts : t.textOf 7 = ['c'] ∧
      t.extractName [] 0 .findQualifiedIdentifier = "A::B::c".toList := by
    cases ht
    decide +kernel
  obtain ⟨hq, hlast, hlast'⟩ := hlinks
  obtain ⟨hkind, hkind', hkind''⟩ := hkinds
  obtain ⟨htext, hname⟩ := htexts
  have he : t.EndsIn 1 7 := .next hkind hlast (.next hkind' hlast' (.here (by simp [hkind''])))
  refine ⟨t, ht, hq, he, hkind'', htext, hname, ?_⟩
  rw [hname, htext]
  decide

end NodeAtlas.SyntaxTree
