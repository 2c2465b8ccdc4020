import NodeAtlas.Proofs.Text.Erase
import NodeAtlas.Proofs.Text.Trim
import NodeAtlas.Semantic.Expr

/-!
The words of semantic type expressions. Names have neither blanks nor marks, each name is one of one
base, group or value only, and no name begins like a namespace.
-/

namespace NodeAtlas

open Text

namespace SemanticExpr

/-- The characters of names and of byte literals. -/
def isNamePart (c : Char) : Bool := c.isAlphanum || c = '_' || c = '+'

theorem isNamePart_iff {c : Char} : isNamePart c = true ↔
    (65 ≤ c.toNat ∧ c.toNat ≤ 90) ∨ (97 ≤ c.toNat ∧ c.toNat ≤ 122) ∨
      (48 ≤ c.toNat ∧ c.toNat ≤ 57) ∨ c.toNat = 95 ∨ c.toNat = 43 := by
  have hcode (d : Char) : c = d ↔ c.toNat = d.toNat := Char.toNat_inj.symm
  have hopen : isNamePart c = (decide (65 ≤ c.val ∧ c.val ≤ 90) || decide (97 ≤ c.val) &&
      decide (c.val ≤ 122) || decide (48 ≤ c.val) && decide (c.val ≤ 57) || c = '_' || c = '+') :=
    rfl
  simp only [hopen, Bool.or_eq_true, Bool.and_eq_true, decide_eq_true_eq, UInt32.le_iff_toNat_le,
    or_assoc, hcode]
  rfl

/-- Parentheses and bars, which set off terms. -/
def isMark (c : Char) : Bool := c = '(' || c = ')' || c = '|'

theorem isBlank_of_isNamePart {c : Char} (h : isNamePart c = true) : isBlank c = false := by
  rw [isNamePart_iff] at h
  by_contra hblank
  simp only [isBlank, Bool.not_eq_false, Bool.or_eq_true, Bool.and_eq_true, decide_eq_true_eq,
    List.contains_eq_mem, List.mem_cons, List.not_mem_nil, or_false] at hblank
  omega

theorem isMark_iff {c : Char} : isMark c = true ↔ c = '(' ∨ c = ')' ∨ c = '|' := by
  simp only [isMark, Bool.or_eq_true, decide_eq_true_eq, or_assoc]

theorem isMark_of_isNamePart {c : Char} (h : isNamePart c = true) : isMark c = false := by
  by_contra hmark
  rw [Bool.not_eq_false, isMark_iff] at hmark
  rcases hmark with rfl | rfl | rfl <;> revert h <;> decide

theorem isMark_of_isBlank {c : Char} (h : isBlank c = true) : isMark c = false := by
  by_contra hmark
  rw [Bool.not_eq_false, isMark_iff] at hmark
  rcases hmark with rfl | rfl | rfl <;> revert h <;> decide

/-- Neither parentheses nor bars. -/
def Plain (s : List Char) : Prop := ∀ c ∈ s, isMark c = false

instance (s : List Char) : Decidable (Plain s) :=
  decidable_of_iff (s.all (!isMark ·) = true) (by simp [Plain])

theorem plain_append {s t : List Char} : Plain (s ++ t) ↔ Plain s ∧ Plain t :=
  List.forall_mem_append

theorem plain_of_allBlank {s : List Char} (h : AllBlank s) : Plain s :=
  fun c hc => isMark_of_isBlank (h c hc)

theorem plain_of_isNamePart {s : List Char} (h : ∀ c ∈ s, isNamePart c = true) : Plain s :=
  fun c hc => isMark_of_isNamePart (h c hc)

/-! ## Namespaces -/

def typeNamespace : List Char := "ASTSemanticType::".toList

def shortNamespace : List Char := "SemanticTypes::".toList

def refinementNamespace : List Char := "SemanticRefinements::".toList

/-- What may stand before a term. -/
def namespaces : List (List Char) := [[], typeNamespace, shortNamespace]

theorem plain_of_mem_namespaces {n : List Char} (hn : n ∈ refinementNamespace :: namespaces) :
    Plain n := by
  have hall : ∀ n ∈ refinementNamespace :: namespaces, Plain n := by decide +kernel
  exact hall n hn

theorem isBlank_of_mem_namespaces {n : List Char} (hn : n ∈ refinementNamespace :: namespaces) :
    ∀ c ∈ n, isBlank c = false := by
  have hall : ∀ n ∈ refinementNamespace :: namespaces, n.all (!isBlank ·) = true := by
    decide +kernel
  simpa using hall n hn

/-- Neither text begins with the other. -/
def Apart (s t : List Char) : Prop := ¬ s <+: t ∧ ¬ t <+: s

instance (s t : List Char) : Decidable (Apart s t) :=
  inferInstanceAs (Decidable (¬ s <+: t ∧ ¬ t <+: s))

theorem Apart.ne_nil {s t : List Char} (h : Apart s t) : t ≠ [] := by
  rintro rfl
  exact h.2 s.nil_prefix

theorem Apart.not_prefix_append {s t : List Char} (h : Apart s t) (rest : List Char) :
    ¬ s <+: t ++ rest := by
  intro hs
  rcases List.prefix_or_prefix_of_prefix hs (List.prefix_append t rest) with hst | hts
  · exact h.1 hst
  · exact h.2 hts

end SemanticExpr

open SemanticExpr

/-! ## Names and codes of bases -/

namespace SemanticType

/-- Each name is read as its base, and none as a byte. -/
theorem names_distinct : ∀ t ∈ all, t.name ≠ "" ∧ t.name.toList.all isNamePart = true ∧
    ofName? t.name = some t ∧ byteLiteral? t.name.toList = none := by
  decide +kernel

theorem base_mem_all (t : SemanticType) : t.base ∈ all := by
  have hkind : t.kind ∈ Kind.all := by
    cases t.kind <;> decide
  have hslot : ∀ i : Fin 4, ⟨t.kind, i, 0⟩ ∈ t.kind.types
    | 0 | 1 | 2 | 3 => by simp [Kind.types, Kind.first, Kind.second, Kind.third, Kind.fourth]
  exact List.mem_flatMap.mpr ⟨t.kind, hkind, hslot t.slot⟩

theorem isNamePart_name {t : SemanticType} (h : t ∈ all) :
    ∀ c ∈ t.name.toList, isNamePart c = true :=
  List.all_eq_true.mp (names_distinct t h).2.1

theorem ofName?_eq_some_iff {s : String} {t : SemanticType} :
    ofName? s = some t ↔ t ∈ all ∧ s = t.name := by
  constructor
  · intro h
    have hname := List.find?_some h
    exact ⟨List.mem_of_find?_eq_some h, (beq_iff_eq.mp hname).symm⟩
  · rintro ⟨ht, rfl⟩
    exact (names_distinct t ht).2.2.1

theorem code_ofCode (c : UInt8) : (ofCode c).code = c := by
  have hall : ∀ n < 256, (ofCode (.ofNat n)).code = .ofNat n := by decide +kernel
  have hcode := hall c.toNat c.toNat_lt
  rwa [UInt8.ofNat_toNat] at hcode

end SemanticType

/-! ## Names of groups and values -/

namespace RefinementGroup

structure IsName (s : List Char) : Prop where
  parts : ∀ c ∈ s, isNamePart c = true
  apart : ∀ n ∈ [typeNamespace, shortNamespace, refinementNamespace], Apart n s
  keeps : ∀ n ∈ [typeNamespace, refinementNamespace], Keeps n s

theorem IsName.ne_nil {s : List Char} (h : IsName s) : s ≠ [] :=
  (h.apart typeNamespace (by simp)).ne_nil

theorem isName_name {g : RefinementGroup} (h : g ∈ all) : IsName g.name.toList := by
  have hall : ∀ g ∈ all, g.name.toList.all isNamePart = true ∧
      (∀ n ∈ [typeNamespace, shortNamespace, refinementNamespace], Apart n g.name.toList) ∧
        ∀ n ∈ [typeNamespace, refinementNamespace], Keeps n g.name.toList := by
    decide +kernel
  obtain ⟨hparts, hapart, hkeeps⟩ := hall g h
  exact ⟨List.all_eq_true.mp hparts, hapart, hkeeps⟩

/-- What is found by a key that no two have. -/
theorem find?_key {α : Type} {key : α → String} {xs : List α} (h : (xs.map key).Nodup) {x : α}
    (hx : x ∈ xs) : xs.find? (key · == key x) = some x := by
  induction xs with
  | nil => cases hx
  | cons y xs ih =>
    obtain ⟨hy, hxs⟩ := List.nodup_cons.mp h
    rcases List.mem_cons.mp hx with rfl | hmem
    · simp
    · have hne : key y ≠ key x := fun heq => hy (heq ▸ List.mem_map_of_mem hmem)
      rw [List.find?_cons_of_neg (by simpa using hne), ih hxs hmem]

theorem find?_eq_some_iff {s : String} {g : RefinementGroup} :
    find? s = some g ↔ g ∈ all ∧ s = g.name := by
  constructor
  · intro h
    have hname := List.find?_some h
    exact ⟨List.mem_of_find?_eq_some h, (beq_iff_eq.mp hname).symm⟩
  · rintro ⟨hg, rfl⟩
    exact find?_key (by decide +kernel) hg

theorem values_distinct : ∀ g ∈ all, ∀ i : Fin 4, Refinement.name ⟨g, i⟩ ≠ "" ∧
    (Refinement.name ⟨g, i⟩).toList.all isNamePart = true ∧
    g.bits? (Refinement.name ⟨g, i⟩) = some i := by
  decide +kernel

theorem bits?_eq_some_iff {g : RefinementGroup} (hg : g ∈ all) {s : String} {i : Fin 4} :
    g.bits? s = some i ↔ s = Refinement.name ⟨g, i⟩ := by
  constructor
  · intro h
    have hvalue := List.find?_some h
    exact (beq_iff_eq.mp hvalue).symm
  · rintro rfl
    exact (values_distinct g hg i).2.2

end RefinementGroup

end NodeAtlas
