import Mathlib.Data.Set.List
import NodeAtlas.NodeFlags
import NodeAtlas.Proofs.Semantic.Meaning
import NodeAtlas.Proofs.Text.Number

/-!
What flag expressions stand for. Each term has a value, given by a name or by a byte, and the
expression has the bits of all values. As bases of semantic types the same bytes are read.
-/

namespace NodeAtlas.NodeFlags

open Text

/-! ## What terms denote -/

def flagNamespace : List Char := "ASTNodeFlags::".toList

/-- The names of the first bit, of which two are old. -/
def constructNames : List String := ["IS_CONSTRUCT", "IS_KEYWORD", "IS_KEYWORD_IF_LEAF"]

/-- A name or a byte literal, where one of some signs stands before hexadecimal digits. -/
inductive Names (signs : List (List Char)) : List Char → UInt8 → Prop where
  | construct {name : String} (h : name ∈ constructNames) : Names signs name.toList 1
  | embodied : Names signs "IS_EMBODIED".toList 2
  | byte {s : List Char} {n : UInt8} (h : NamesByte signs s n) : Names signs s n

/-- A name or a byte after an optional namespace, with blanks around it. -/
def Denotes (signs : List (List Char)) (term : List Char) (n : UInt8) : Prop :=
  ∃ front ∈ [[], flagNamespace], ∃ s, trim term = front ++ s ∧ Names signs s n

/-! ## Reading a term -/

theorem ofName?_eq_some_iff {name : String} {f : NodeFlags} : ofName? name = some f ↔
    name ∈ constructNames ∧ f = isConstruct ∨ name = "IS_EMBODIED" ∧ f = isEmbodied := by
  constructor
  · intro h
    unfold ofName? at h
    split at h <;> cases h <;> simp [constructNames]
  · rintro (⟨hname, rfl⟩ | ⟨rfl, rfl⟩)
    · simp only [constructNames, List.mem_cons, List.not_mem_nil, or_false] at hname
      rcases hname with rfl | rfl | rfl <;> rfl
    · rfl

theorem names_apart : ∀ name ∈ "IS_EMBODIED" :: constructNames,
    isNumeral name.toList = false ∧ ':' ∉ name.toList := by
  decide +kernel

theorem isNumeral_of_namesByte {s : List Char} {n : UInt8} (h : NamesByte signs s n) :
    isNumeral s = true := by
  cases h with
  | decimal h =>
    unfold isNumeral
    split
    · rfl
    · rfl
    · have hdigit : ∀ c ∈ s, '0' ≤ c ∧ c ≤ '9' := by
        intro c hc
        obtain ⟨d, hlt, hd⟩ := h.exists_isDigitOf c hc
        have hsome := decimalDigit?_eq_some_iff.mpr ⟨hd, hlt⟩
        unfold decimalDigit? at hsome
        by_contra hc
        rw [if_neg hc] at hsome
        cases hsome
      simpa [h.1] using hdigit
  | hexadecimal hmark => rcases hmark with rfl | rfl <;> rfl

theorem names_iff {s : List Char} {n : UInt8} :
    (if isNumeral s then (byteLiteral? s).map NodeFlags.mk else ofName? (.ofList s)) = some ⟨n⟩ ↔
      Names signs s n := by
  have hname {name : String} (hmem : name ∈ "IS_EMBODIED" :: constructNames) :
      isNumeral name.toList ≠ true := by
    simp [(names_apart name hmem).1]
  by_cases hnumeral : isNumeral s = true
  · rw [if_pos hnumeral, Option.map_eq_some_iff]
    constructor
    · rintro ⟨m, hm, heq⟩
      cases heq
      exact .byte (byteLiteral?_eq_some_iff.mp hm)
    · intro h
      cases h with
      | construct h => exact absurd hnumeral (hname (.tail _ h))
      | embodied => exact absurd hnumeral (hname (.head _))
      | byte h => exact ⟨n, byteLiteral?_eq_some_iff.mpr h, rfl⟩
  · rw [if_neg hnumeral, ofName?_eq_some_iff]
    constructor
    · intro h
      obtain ⟨name, rfl⟩ : ∃ name : String, s = name.toList := ⟨.ofList s, by simp⟩
      rw [String.ofList_toList] at h
      rcases h with ⟨hmem, heq⟩ | ⟨rfl, heq⟩ <;> cases heq
      · exact .construct hmem
      · exact .embodied
    · intro h
      cases h with
      | construct h => exact .inl ⟨by rwa [String.ofList_toList], rfl⟩
      | embodied => exact .inr ⟨String.ofList_toList, rfl⟩
      | byte h => exact absurd (isNumeral_of_namesByte h) hnumeral

theorem Names.colon_not_mem {s : List Char} {n : UInt8} (h : Names signs s n) : ':' ∉ s := by
  cases h with
  | construct h => exact (names_apart _ (.tail _ h)).2
  | embodied => exact (names_apart _ (.head _)).2
  | byte h =>
    intro hcolon
    have hpart := (SemanticExpr.isNamePart_of_byteLiteral? (byteLiteral?_eq_some_iff.mpr h)).2
      ':' hcolon
    revert hpart
    decide

theorem term?_eq_some_iff {t : List Char} {n : UInt8} :
    term? t = some ⟨n⟩ ↔ Denotes signs t n := by
  have hopen : term? t = let bare := dropStem flagNamespace (trim t)
      if isNumeral bare then (byteLiteral? bare).map NodeFlags.mk else ofName? (.ofList bare) := rfl
  rw [hopen, names_iff]
  constructor
  · intro h
    obtain ⟨front, hfront, htrim⟩ := exists_dropStem flagNamespace (trim t)
    exact ⟨front, hfront, _, htrim, h⟩
  · rintro ⟨front, hfront, s, htrim, h⟩
    have hbare : dropStem flagNamespace (trim t) = s := by
      simp only [List.mem_cons, List.not_mem_nil, or_false] at hfront
      rcases hfront with rfl | rfl
      · rw [htrim]
        refine dropStem_eq_self fun hstands => h.colon_not_mem (hstands.subset ?_)
        decide
      · rw [htrim, dropStem_append]
    rwa [hbare]

/-! ## Reading an expression -/

theorem parse?_eq_some_iff {text : String} {n : UInt8} : parse? text = some ⟨n⟩ ↔
    ∃ gs : List NodeFlags, (text.toList.splitOn '|').map term? = gs.map some ∧
      n = (gs.map bits).foldl (· ||| ·) 0 := by
  have hfold (gs : List NodeFlags) : gs.foldl union empty = ⟨(gs.map bits).foldl (· ||| ·) 0⟩ := by
    have hstep (a : UInt8) (g : NodeFlags) : union ⟨a⟩ g = ⟨a ||| g.bits⟩ := rfl
    rw [List.foldl_map]
    exact List.foldl_hom NodeFlags.mk hstep
  rw [parse?, read?, foldlM_map_eq_some_iff]
  simp only [hfold, mk.injEq, ← List.forall₂_eq_eq_eq, List.forall₂_map_left_iff,
    List.forall₂_map_right_iff]

theorem parse?_eq_some_iff_denotes {text : String} {n : UInt8} : parse? text = some ⟨n⟩ ↔
    ∃ ns, List.Forall₂ (Denotes signs) (text.toList.splitOn '|') ns ∧
      n = ns.foldl (· ||| ·) 0 := by
  have hterms (ts : List (List Char)) (gs : List NodeFlags) :
      ts.map term? = gs.map some ↔ List.Forall₂ (Denotes signs) ts (gs.map bits) := by
    rw [← List.forall₂_eq_eq_eq, List.forall₂_map_left_iff, List.forall₂_map_right_iff,
      List.forall₂_map_right_iff]
    simp only [← term?_eq_some_iff]
  simp only [parse?_eq_some_iff, hterms]
  constructor
  · rintro ⟨gs, hgs, rfl⟩
    exact ⟨_, hgs, rfl⟩
  · rintro ⟨ns, hns, rfl⟩
    have hbits : (ns.map NodeFlags.mk).map bits = ns := by
      rw [List.map_map]
      exact List.map_id ns
    exact ⟨ns.map NodeFlags.mk, by rwa [hbits], by rw [hbits]⟩

theorem testBit_foldl_or (ns : List UInt8) (a : UInt8) (i : Nat) :
    (ns.foldl (· ||| ·) a).toNat.testBit i =
      (a.toNat.testBit i || ns.any fun n => n.toNat.testBit i) := by
  induction ns generalizing a with
  | nil => simp
  | cons n ns ih =>
    rw [List.foldl_cons, ih, UInt8.toNat_or, Nat.testBit_or, List.any_cons, Bool.or_assoc]

theorem foldl_or_congr {ns ns' : List UInt8} (h : ∀ n, n ∈ ns ↔ n ∈ ns') :
    ns.foldl (· ||| ·) 0 = ns'.foldl (· ||| ·) 0 := by
  rw [← UInt8.toNat_inj]
  refine Nat.eq_of_testBit_eq fun i => ?_
  rw [testBit_foldl_or, testBit_foldl_or]
  congr 1
  rw [Bool.eq_iff_iff]
  simp only [List.any_eq_true, h]

/-- Which terms there are decides, and not where or how often they stand. -/
theorem parse?_congr {text text' : String}
    (h : ∀ t, t ∈ text.toList.splitOn '|' ↔ t ∈ text'.toList.splitOn '|') :
    parse? text = parse? text' := by
  have hsome {text text' : String}
      (h : ∀ t, t ∈ text.toList.splitOn '|' ↔ t ∈ text'.toList.splitOn '|') {n : UInt8}
      (hparse : parse? text = some ⟨n⟩) : parse? text' = some ⟨n⟩ := by
    obtain ⟨gs, hgs, hn⟩ := parse?_eq_some_iff.mp hparse
    have hmem (o : Option NodeFlags) :
        o ∈ (text'.toList.splitOn '|').map term? ↔ o ∈ gs.map some := by
      simp only [← hgs, List.mem_map, h]
    obtain ⟨gs', hgs'⟩ : (text'.toList.splitOn '|').map term? ∈ Set.range (List.map some) := by
      rw [Set.range_list_map]
      intro o ho
      obtain ⟨g, -, rfl⟩ := List.mem_map.mp ((hmem o).mp ho)
      exact Set.mem_range_self g
    refine parse?_eq_some_iff.mpr ⟨gs', hgs'.symm, hn.trans (foldl_or_congr fun m => ?_)⟩
    have hsame (g : NodeFlags) : g ∈ gs ↔ g ∈ gs' := by
      simpa [← hgs'] using (hmem (some g)).symm
    simp only [List.mem_map, hsame]
  refine Option.ext fun ⟨n⟩ => ?_
  exact ⟨hsome h, hsome fun t => (h t).symm⟩

/-! ## Bytes as bases -/

/-- A name of a base type or a byte after an optional namespace. -/
def DenotesType (signs : List (List Char)) (term : List Char) (t : SemanticType) : Prop :=
  ∃ front ∈ SemanticExpr.namespaces, ∃ s, term = front ++ s ∧
    (t ∈ SemanticType.all ∧ s = t.name.toList ∨ NamesByte signs s t.code)

theorem read_eq_base_iff_denotesType {u : List Char} {t : SemanticType} :
    SemanticExpr.Term.read u = .ok (.base t) ↔ DenotesType signs u t := by
  simp only [SemanticExpr.Term.read_eq_base_iff_exists, SemanticExpr.namesBase_iff, DenotesType]

/-! ## Signs -/

theorem namesByte_unsigned_iff {s : List Char} {n : UInt8} :
    NamesByte [[]] s n ↔ NamesByte signs s n ∧ '+' ∉ s := by
  have hdigits {base m : Nat} {s : List Char} (h : IsNumeral base s m) : '+' ∉ s := by
    intro hplus
    obtain ⟨d, -, hd⟩ := h.exists_isDigitOf '+' hplus
    exact not_isDigitOf (by simp) d hd
  constructor
  · intro h
    cases h with
    | decimal h => exact ⟨.decimal h, hdigits h⟩
    | hexadecimal hmark hsign h =>
      rw [List.mem_singleton.mp hsign]
      refine ⟨.hexadecimal hmark (.head _) h, ?_⟩
      rcases hmark with rfl | rfl <;> simp [hdigits h]
  · rintro ⟨h, hplus⟩
    cases h with
    | decimal h => exact .decimal h
    | hexadecimal hmark hsign h =>
      rcases mem_signs.mp hsign with rfl | rfl
      · exact .hexadecimal hmark (.head _) h
      · simp at hplus

theorem names_unsigned_iff {s : List Char} {n : UInt8} :
    Names [[]] s n ↔ Names signs s n ∧ '+' ∉ s := by
  have hplain : ∀ name ∈ "IS_EMBODIED" :: constructNames, '+' ∉ name.toList := by decide +kernel
  constructor
  · intro h
    cases h with
    | construct h => exact ⟨.construct h, hplain _ (.tail _ h)⟩
    | embodied => exact ⟨.embodied, hplain _ (.head _)⟩
    | byte h =>
      obtain ⟨h, hplus⟩ := namesByte_unsigned_iff.mp h
      exact ⟨.byte h, hplus⟩
  · rintro ⟨h, hplus⟩
    cases h with
    | construct h => exact .construct h
    | embodied => exact .embodied
    | byte h => exact .byte (namesByte_unsigned_iff.mpr ⟨h, hplus⟩)

theorem plus_mem_trim {t : List Char} : '+' ∈ trim t ↔ '+' ∈ t := by
  obtain ⟨v, w, hv, hw, ht⟩ := exists_trim t
  have hblank {v : List Char} (hv : AllBlank v) : '+' ∉ v :=
    fun hplus => absurd (hv '+' hplus) (by decide)
  conv_rhs => rw [ht]
  simp [hblank hv, hblank hw]

/-- Without signs a term denotes the same, if it has no plus. -/
theorem denotes_unsigned_iff {t : List Char} {n : UInt8} :
    Denotes [[]] t n ↔ '+' ∉ t ∧ Denotes signs t n := by
  have hplain : ∀ front ∈ [[], flagNamespace], '+' ∉ front := by decide +kernel
  rw [← plus_mem_trim]
  constructor
  · rintro ⟨front, hfront, s, heq, h⟩
    obtain ⟨h, hplus⟩ := names_unsigned_iff.mp h
    exact ⟨by simp [heq, hplain front hfront, hplus], front, hfront, s, heq, h⟩
  · rintro ⟨hplus, front, hfront, s, heq, h⟩
    rw [heq, List.mem_append, not_or] at hplus
    exact ⟨front, hfront, s, heq, names_unsigned_iff.mpr ⟨h, hplus.2⟩⟩

theorem denotesType_unsigned_iff {u : List Char} {t : SemanticType} :
    DenotesType [[]] u t ↔ '+' ∉ u ∧ DenotesType signs u t := by
  have hfronts : ∀ front ∈ SemanticExpr.namespaces, '+' ∉ front := by decide +kernel
  have hnames : ∀ t ∈ SemanticType.all, '+' ∉ t.name.toList := by decide +kernel
  constructor
  · rintro ⟨front, hfront, s, rfl, ⟨hmem, rfl⟩ | h⟩
    · exact ⟨by simp [hfronts front hfront, hnames t hmem], front, hfront, _, rfl, .inl ⟨hmem, rfl⟩⟩
    · obtain ⟨h, hplus⟩ := namesByte_unsigned_iff.mp h
      exact ⟨by simp [hfronts front hfront, hplus], front, hfront, _, rfl, .inr h⟩
  · rintro ⟨hplus, front, hfront, s, rfl, hname | h⟩
    · exact ⟨front, hfront, s, rfl, .inl hname⟩
    · rw [List.mem_append, not_or] at hplus
      exact ⟨front, hfront, s, rfl, .inr (namesByte_unsigned_iff.mpr ⟨h, hplus.2⟩)⟩

/-! ## The language of flag expressions -/

/-- A text is read when each of its terms denotes something, and then as all their bits. -/
def IsReadWith (signs : List (List Char)) (text : String) : Prop :=
  ∀ n, parse? text = some ⟨n⟩ ↔
    ∃ ns, List.Forall₂ (Denotes signs) (text.toList.splitOn '|') ns ∧ n = ns.foldl (· ||| ·) 0

/-- A term of a semantic type is read as the base that it denotes. -/
def IsBaseReadWith (signs : List (List Char)) (term : List Char) : Prop :=
  ∀ t, SemanticExpr.Term.read term = .ok (.base t) ↔ DenotesType signs term t

theorem isReadWith_unsigned_iff {text : String} : IsReadWith [[]] text ↔
    parse? text = none ∨ ∀ t ∈ text.toList.splitOn '|', '+' ∉ t := by
  have hdenotes (ns : List UInt8) :
      List.Forall₂ (Denotes [[]]) (text.toList.splitOn '|') ns ↔
        (∀ t ∈ text.toList.splitOn '|', '+' ∉ t) ∧
          List.Forall₂ (Denotes signs) (text.toList.splitOn '|') ns := by
    rw [← List.forall₂_and_left]
    simp only [← denotes_unsigned_iff]
  simp only [IsReadWith, hdenotes, and_assoc, exists_and_left, ← parse?_eq_some_iff_denotes]
  constructor
  · intro h
    cases hparse : parse? text with
    | none => exact .inl rfl
    | some f => exact .inr ((h f.bits).mp hparse).1
  · rintro (hnone | hplus) n
    · simp [hnone]
    · exact (and_iff_right hplus).symm

theorem isBaseReadWith_unsigned_iff {u : List Char} : IsBaseReadWith [[]] u ↔
    (∀ t, SemanticExpr.Term.read u ≠ .ok (.base t)) ∨ '+' ∉ u := by
  simp only [IsBaseReadWith, denotesType_unsigned_iff, ← read_eq_base_iff_denotesType,
    iff_and_self]
  constructor
  · intro h
    by_cases hread : ∃ t, SemanticExpr.Term.read u = .ok (.base t)
    · obtain ⟨t, ht⟩ := hread
      exact .inr (h t ht)
    · exact .inl (not_exists.mp hread)
  · rintro (hnone | hplus) t ht
    · exact absurd ht (hnone t)
    · exact hplus

/-- A flag expression is read as its terms denote, where a plus may stand before hexadecimal digits.
Exactly when it fails or has no plus, its terms denote the same without signs. Neither the order of
the terms nor repetitions matter. The terms of semantic types have the same bytes. -/
theorem parse?_exact (text : String) :
    IsReadWith signs text ∧
    (IsReadWith [[]] text ↔ parse? text = none ∨ ∀ t ∈ text.toList.splitOn '|', '+' ∉ t) ∧
    (∀ text', (∀ t, t ∈ text'.toList.splitOn '|' ↔ t ∈ text.toList.splitOn '|') →
      parse? text' = parse? text) ∧
    (∀ u, IsBaseReadWith signs u ∧ (IsBaseReadWith [[]] u ↔
      (∀ t, SemanticExpr.Term.read u ≠ .ok (.base t)) ∨ '+' ∉ u)) ∧
    ('|' ∉ text.toList → ∀ t, SemanticExpr.parse text = .ok t ↔
      SemanticExpr.Term.read (SemanticExpr.stripParens text.toList) = .ok (.base t)) :=
  ⟨fun _ => parse?_eq_some_iff_denotes, isReadWith_unsigned_iff, fun _ => parse?_congr,
    fun _ => ⟨fun _ => read_eq_base_iff_denotesType, isBaseReadWith_unsigned_iff⟩,
    fun hbar _ => SemanticExpr.parse_single_eq_ok_iff hbar⟩

theorem parse?_exact_repeated :
    parse? "0x84|IS_EMBODIED" = some ⟨0x86⟩ ∧
      parse? "IS_EMBODIED|0x84|IS_EMBODIED" = some ⟨0x86⟩ ∧
      SemanticExpr.parse " (0x84)" = .ok (.ofCode 0x84) ∧
      IsReadWith [[]] "0x84|IS_EMBODIED" ∧ DenotesType [[]] "0x84".toList (.ofCode 0x84) := by
  have hparse : parse? "0x84|IS_EMBODIED" = some ⟨0x86⟩ := by decide +kernel
  have hbase : SemanticExpr.parse " (0x84)" = .ok (.ofCode 0x84) := by decide +kernel
  have hfirst : "0x84|IS_EMBODIED".toList.splitOn '|' =
      ["0x84".toList, "IS_EMBODIED".toList] := by decide +kernel
  have hsecond : "IS_EMBODIED|0x84|IS_EMBODIED".toList.splitOn '|' =
      ["IS_EMBODIED".toList, "0x84".toList, "IS_EMBODIED".toList] := by decide +kernel
  have hterms : ∀ t, t ∈ "IS_EMBODIED|0x84|IS_EMBODIED".toList.splitOn '|' ↔
      t ∈ "0x84|IS_EMBODIED".toList.splitOn '|' := by
    rw [hfirst, hsecond]
    grind
  have hstrip : SemanticExpr.stripParens " (0x84)".toList = "0x84".toList := by decide +kernel
  obtain ⟨-, hunsigned, hcongr, hbases, -⟩ := parse?_exact "0x84|IS_EMBODIED"
  obtain ⟨-, -, -, -, hsingle⟩ := parse?_exact " (0x84)"
  have hread := (hsingle (by decide +kernel) _).mp hbase
  rw [hstrip] at hread
  refine ⟨hparse, (hcongr _ hterms).trans hparse, hbase, hunsigned.mpr (.inr ?_), ?_⟩
  · rw [hfirst]
    decide +kernel
  · exact ((hbases "0x84".toList).2.mpr (.inr (by decide)) _).mp hread

/-- A plus sign before hexadecimal digits is read over, although no sign is part of a byte. -/
theorem parse?_signed :
    parse? "0x+1" = some isConstruct ∧ ¬ IsReadWith [[]] "0x+1" ∧
      SemanticExpr.parse "0x+1" = .ok (.ofCode 1) ∧ ¬ IsBaseReadWith [[]] "0x+1".toList := by
  have hparse : parse? "0x+1" = some isConstruct := by decide +kernel
  have hbase : SemanticExpr.parse "0x+1" = .ok (.ofCode 1) := by decide +kernel
  have hsplit : "0x+1".toList.splitOn '|' = ["0x+1".toList] := by decide +kernel
  have hstrip : SemanticExpr.stripParens "0x+1".toList = "0x+1".toList := by decide +kernel
  have hread := (SemanticExpr.parse_single_eq_ok_iff (by decide)).mp hbase
  rw [hstrip] at hread
  refine ⟨hparse, ?_, hbase, ?_⟩
  · rw [isReadWith_unsigned_iff, hparse, hsplit]
    simp
  · rw [isBaseReadWith_unsigned_iff]
    rintro (hnone | hplus)
    · exact hnone _ hread
    · simp at hplus

end NodeAtlas.NodeFlags
