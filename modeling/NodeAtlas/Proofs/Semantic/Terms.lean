import NodeAtlas.Proofs.Semantic.Vocabulary
import NodeAtlas.Proofs.Text.Number

/-!
What a term can be: blanks around a base or around a refinement, each with an optional namespace. A
term is read as what it denotes, and only then.
-/

namespace NodeAtlas.SemanticExpr

open Text

/-! ## What terms denote -/

/-- A name of a base, or a byte literal. -/
inductive NamesBase : List Char → SemanticType → Prop where
  | name {t : SemanticType} (ht : t ∈ SemanticType.all) : NamesBase t.name.toList t
  | byte {s : List Char} {c : UInt8} (hs : byteLiteral? s = some c) : NamesBase s (.ofCode c)

/-- A group and one of its values, joined by two colons. -/
inductive NamesValue : List Char → Refinement → Prop where
  | intro {v w : List Char} {r : Refinement} (hr : r.group ∈ RefinementGroup.all)
      (hv : AllBlank v) (hw : AllBlank w) :
      NamesValue (r.group.name.toList ++ (v ++ ("::".toList ++ (w ++ r.name.toList)))) r

/-- A value of a group after an optional namespace. -/
inductive NamesRefinement : List Char → Refinement → Prop where
  | bare {s : List Char} {r : Refinement} (hs : NamesValue s r) : NamesRefinement s r
  | qualified {v s : List Char} {r : Refinement} (hv : AllBlank v) (hs : NamesValue s r) :
      NamesRefinement (refinementNamespace ++ (v ++ s)) r

inductive DenotesBase : List Char → SemanticType → Prop where
  | intro {v n s w : List Char} {t : SemanticType} (hv : AllBlank v) (hn : n ∈ namespaces)
      (hs : NamesBase s t) (hw : AllBlank w) : DenotesBase (v ++ ((n ++ s) ++ w)) t

inductive DenotesRefinement : List Char → Refinement → Prop where
  | intro {v n u s w : List Char} {r : Refinement} (hv : AllBlank v) (hn : n ∈ namespaces)
      (hu : AllBlank u) (hs : NamesRefinement s r) (hw : AllBlank w) :
      DenotesRefinement (v ++ ((n ++ (u ++ s)) ++ w)) r

/-! ## Byte literals -/

theorem isNamePart_of_hexDigit? {c : Char} (h : (hexDigit? c).isSome = true) :
    isNamePart c = true := by
  have hcode (a b : Char) : a ≤ b ↔ a.toNat ≤ b.toNat := Char.le_def
  rw [isNamePart_iff]
  unfold hexDigit? at h
  simp only [hcode] at h
  split at h
  · next hc => exact .inr (.inr (.inl hc))
  split at h
  · next hc => exact .inr (.inl ⟨hc.1, hc.2.trans (by decide)⟩)
  split at h
  · next hc => exact .inl ⟨hc.1, hc.2.trans (by decide)⟩
  · cases h

theorem isNamePart_of_isNumeral {base n : Nat} {s : List Char} (h : IsNumeral base s n) :
    ∀ c ∈ s, isNamePart c = true := by
  intro c hc
  obtain ⟨d, -, hd⟩ := h.exists_isDigitOf c hc
  exact isNamePart_of_hexDigit? (by rw [hexDigit?_eq_some_iff.mpr hd]; rfl)

theorem isNamePart_of_byteLiteral? {s : List Char} {c : UInt8} (h : byteLiteral? s = some c) :
    s ≠ [] ∧ ∀ d ∈ s, isNamePart d = true := by
  cases byteLiteral?_eq_some_iff.mp h with
  | decimal h => exact ⟨h.1, isNamePart_of_isNumeral h⟩
  | @hexadecimal mark sign t _ hmark hsign h =>
    have hfront : ('0' :: mark :: sign).all isNamePart = true := by
      rcases hmark with rfl | rfl <;> rcases mem_signs.mp hsign with rfl | rfl <;> decide
    refine ⟨List.cons_ne_nil _ _, ?_⟩
    rw [← List.cons_append, ← List.cons_append, List.forall_mem_append]
    exact ⟨List.all_eq_true.mp hfront, isNamePart_of_isNumeral h⟩

/-! ## Bases -/

theorem NamesBase.parts {s : List Char} {t : SemanticType} (h : NamesBase s t) :
    s ≠ [] ∧ ∀ c ∈ s, isNamePart c = true := by
  cases h with
  | byte hs => exact isNamePart_of_byteLiteral? hs
  | name ht =>
    have hne := (SemanticType.names_distinct _ ht).1
    exact ⟨fun hnil => hne (String.toList_eq_nil_iff.mp hnil), SemanticType.isNamePart_name ht⟩

theorem baseOf?_eq_some_iff {s : List Char} {t : SemanticType} :
    baseOf? s = some t ↔ NamesBase s t := by
  constructor
  · intro h
    unfold baseOf? at h
    split at h
    · next ht =>
      cases h
      obtain ⟨hmem, hname⟩ := SemanticType.ofName?_eq_some_iff.mp ht
      have hs : s = t.name.toList := by rw [← hname, String.toList_ofList]
      exact hs ▸ .name hmem
    · obtain ⟨c, hc, rfl⟩ := Option.map_eq_some_iff.mp h
      exact .byte hc
  · intro h
    unfold baseOf?
    cases h with
    | name ht =>
      rw [String.ofList_toList, SemanticType.ofName?_eq_some_iff.mpr ⟨ht, rfl⟩]
    | byte hs =>
      have hnone : SemanticType.ofName? (.ofList s) = none := by
        by_contra hsome
        obtain ⟨t', ht'⟩ := Option.ne_none_iff_exists'.mp hsome
        obtain ⟨hmem, hname⟩ := SemanticType.ofName?_eq_some_iff.mp ht'
        have hbyte := (SemanticType.names_distinct t' hmem).2.2.2
        rw [← hname, String.toList_ofList, hs] at hbyte
        cases hbyte
      rw [hnone, hs]
      rfl

theorem namesBase_iff {s : List Char} {t : SemanticType} : NamesBase s t ↔
    t ∈ SemanticType.all ∧ s = t.name.toList ∨ NamesByte signs s t.code := by
  constructor
  · intro h
    cases h with
    | name ht => exact .inl ⟨ht, rfl⟩
    | byte hs =>
      rw [SemanticType.code_ofCode]
      exact .inr (byteLiteral?_eq_some_iff.mp hs)
  · rintro (⟨ht, rfl⟩ | h)
    · exact .name ht
    · rw [← SemanticType.ofCode_code t]
      exact .byte (byteLiteral?_eq_some_iff.mpr h)

/-! ## Namespaces in front of a term -/

/-- No namespace stands in front. -/
def Unqualified (s : List Char) : Prop := ¬ typeNamespace <+: s ∧ ¬ shortNamespace <+: s

theorem Unqualified.blanks {u s : List Char} (hs : Unqualified s) (hu : AllBlank u) :
    Unqualified (u ++ s) := by
  cases u with
  | nil => exact hs
  | cons c u =>
    have hc : isBlank c = true := hu c List.mem_cons_self
    have hfirst (d : Char) (n : List Char) (hd : isBlank d = false) :
        ¬ d :: n <+: c :: (u ++ s) := by
      intro hfront
      rw [(List.cons_prefix_cons.mp hfront).1, hc] at hd
      cases hd
    exact ⟨hfirst _ _ (by decide), hfirst _ _ (by decide)⟩

theorem bare_eq (s : List Char) : bare s = match dropStem? typeNamespace s with
    | some rest => rest
    | none => dropStem shortNamespace s := rfl

theorem bare_append {n s : List Char} (hn : n ∈ namespaces) (hs : Unqualified s) :
    bare (n ++ s) = s := by
  rw [bare_eq]
  simp only [namespaces, List.mem_cons, List.not_mem_nil, or_false] at hn
  rcases hn with rfl | rfl | rfl
  · rw [List.nil_append, dropStem?_eq_none_iff.mpr hs.1]
    exact dropStem_eq_self hs.2
  · rw [dropStem?_append]
  · have hnone : ¬ typeNamespace <+: shortNamespace ++ s := by
      have happart : Apart typeNamespace shortNamespace := by decide +kernel
      exact happart.not_prefix_append s
    rw [dropStem?_eq_none_iff.mpr hnone]
    exact dropStem_append shortNamespace s

/-- A term is an optional namespace and the bare term. -/
theorem exists_namespace (s : List Char) : ∃ n ∈ namespaces, s = n ++ bare s := by
  rw [bare_eq]
  split
  · next rest hrest => exact ⟨typeNamespace, by simp [namespaces], dropStem?_eq_some_iff.mp hrest⟩
  · obtain ⟨n, hn, hs⟩ := exists_dropStem shortNamespace s
    exact ⟨n, by simp at hn; rcases hn with rfl | rfl <;> simp [namespaces], hs⟩

theorem NamesBase.unqualified {s : List Char} {t : SemanticType} (h : NamesBase s t) :
    Unqualified s := by
  have hcolon (n : List Char) (hn : ':' ∈ n) : ¬ n <+: s := by
    intro hfront
    have hpart := h.parts.2 ':' (hfront.subset hn)
    revert hpart
    decide
  exact ⟨hcolon _ (by decide), hcolon _ (by decide)⟩

/-! ## Refinements -/

theorem lookup?_eq_some_iff {g v : String} {r : Refinement} : Refinement.lookup? g v = some r ↔
    r.group ∈ RefinementGroup.all ∧ g = r.group.name ∧ v = r.name := by
  simp only [Refinement.lookup?, Option.bind_eq_bind, Option.bind_eq_some_iff,
    RefinementGroup.find?_eq_some_iff, Option.pure_def, Option.some.injEq]
  constructor
  · rintro ⟨group, ⟨hmem, rfl⟩, bits, hbits, rfl⟩
    exact ⟨hmem, rfl, (RefinementGroup.bits?_eq_some_iff hmem).mp hbits⟩
  · rintro ⟨hmem, rfl, rfl⟩
    exact ⟨r.group, ⟨hmem, rfl⟩, r.bits, (RefinementGroup.bits?_eq_some_iff hmem).mpr rfl, rfl⟩

theorem isNamePart_refinement {r : Refinement} (hr : r.group ∈ RefinementGroup.all) :
    r.name.toList ≠ [] ∧ ∀ c ∈ r.name.toList, isNamePart c = true := by
  obtain ⟨hne, hparts, -⟩ := RefinementGroup.values_distinct r.group hr r.bits
  exact ⟨fun hnil => hne (String.toList_eq_nil_iff.mp hnil), List.all_eq_true.mp hparts⟩

theorem NamesValue.not_prefix {n s : List Char} {r : Refinement} (h : NamesValue s r)
    (hn : n ∈ [typeNamespace, shortNamespace, refinementNamespace]) : ¬ n <+: s := by
  cases h with
  | intro hr => exact ((RefinementGroup.isName_name hr).apart n hn).not_prefix_append _

theorem NamesValue.trimmed {s : List Char} {r : Refinement} (h : NamesValue s r) : Trimmed s := by
  cases h with
  | @intro v w r hr hv hw =>
    have hgroup := RefinementGroup.isName_name hr
    have hvalue := isNamePart_refinement hr
    have happ : r.group.name.toList ++ (v ++ ("::".toList ++ (w ++ r.name.toList))) =
        r.group.name.toList ++ ((v ++ ("::".toList ++ w)) ++ r.name.toList) := by
      simp only [List.append_assoc]
    rw [happ]
    exact trimmed_append hgroup.ne_nil (fun c hc => isBlank_of_isNamePart (hgroup.parts c hc)) _
      hvalue.1 (trimmed_of_forall fun c hc => isBlank_of_isNamePart (hvalue.2 c hc))

theorem NamesValue.ne_nil {s : List Char} {r : Refinement} (h : NamesValue s r) : s ≠ [] := by
  cases h with
  | intro hr => exact List.append_ne_nil_of_left_ne_nil (RefinementGroup.isName_name hr).ne_nil _

theorem NamesRefinement.trimmed {s : List Char} {r : Refinement} (h : NamesRefinement s r) :
    Trimmed s := by
  cases h with
  | bare hs => exact hs.trimmed
  | @qualified v _ _ hv hs =>
    exact trimmed_append (by decide) (isBlank_of_mem_namespaces (.head _)) v hs.ne_nil hs.trimmed

theorem NamesRefinement.ne_nil {s : List Char} {r : Refinement} (h : NamesRefinement s r) :
    s ≠ [] := by
  cases h with
  | bare hs => exact hs.ne_nil
  | qualified => exact List.append_ne_nil_of_left_ne_nil (by decide) _

theorem NamesRefinement.unqualified {s : List Char} {r : Refinement} (h : NamesRefinement s r) :
    Unqualified s := by
  cases h with
  | bare hs => exact ⟨hs.not_prefix (by simp), hs.not_prefix (by simp)⟩
  | qualified =>
    have htype : Apart typeNamespace refinementNamespace := by decide +kernel
    have hshort : Apart shortNamespace refinementNamespace := by decide +kernel
    exact ⟨htype.not_prefix_append _, hshort.not_prefix_append _⟩

theorem NamesRefinement.colons {s : List Char} {r : Refinement} (h : NamesRefinement s r) :
    "::".toList <:+: s := by
  have hvalue {q : List Char} (hq : NamesValue q r) : "::".toList <:+: q := by
    cases hq with
    | @intro v w =>
      exact ⟨r.group.name.toList ++ v, w ++ r.name.toList, by simp only [List.append_assoc]⟩
  cases h with
  | bare hs => exact hvalue hs
  | qualified _ hs =>
    rw [← List.append_assoc]
    exact (hvalue hs).trans (List.suffix_append _ _).isInfix

/-- The two colons between a group and its value are the first ones. -/
theorem cut?_colons {a : List Char} (h : ':' ∉ a) (b : List Char) :
    cut? "::".toList (a ++ ("::".toList ++ b)) = some (a, b) := by
  have hpair : ¬ [':'] ++ [':'] <:+: a ++ [':'] := by
    intro hfound
    have hcount := hfound.sublist.count_le ':'
    rw [List.count_append, List.count_append, List.count_eq_zero.mpr h] at hcount
    revert hcount
    decide
  exact cut?_append hpair b

theorem exists_namesValue {p group value : List Char} {r : Refinement}
    (hcut : cut? "::".toList p = some (group, value))
    (hlookup : Refinement.lookup? (.ofList (trim group)) (.ofList (trim value)) = some r) :
    ∃ v q w, p = v ++ (q ++ w) ∧ AllBlank v ∧ NamesValue q r ∧ AllBlank w := by
  obtain ⟨hmem, hgroup, hvalue⟩ := lookup?_eq_some_iff.mp hlookup
  rw [← String.toList_inj, String.toList_ofList] at hgroup hvalue
  obtain ⟨v₁, w₁, hv₁, hw₁, hgroup'⟩ := exists_trim group
  obtain ⟨v₂, w₂, hv₂, hw₂, hvalue'⟩ := exists_trim value
  refine ⟨v₁, _, w₂, ?_, hv₁, .intro hmem hw₁ hv₂, hw₂⟩
  rw [eq_append_of_cut? hcut, hgroup', hvalue', hgroup, hvalue]
  simp only [List.append_assoc]

theorem NamesValue.exists_cut? {q : List Char} {r : Refinement} (h : NamesValue q r)
    {u : List Char} (hu : AllBlank u) :
    ∃ group value, cut? "::".toList (u ++ q) = some (group, value) ∧
      Refinement.lookup? (.ofList (trim group)) (.ofList (trim value)) = some r := by
  cases h with
  | @intro v w r hr hv hw =>
    have hgroup := RefinementGroup.isName_name hr
    have hvalue := isNamePart_refinement hr
    have hcolon : ':' ∉ u ++ (r.group.name.toList ++ v) := by
      simp only [List.mem_append, not_or]
      exact ⟨fun hmem => absurd (hu ':' hmem) (by decide),
        fun hmem => absurd (hgroup.parts ':' hmem) (by decide),
        fun hmem => absurd (hv ':' hmem) (by decide)⟩
    have htrim₁ : trim (u ++ (r.group.name.toList ++ v)) = r.group.name.toList :=
      trim_append hu hv
        (trimmed_of_forall fun c hc => isBlank_of_isNamePart (hgroup.parts c hc)) hgroup.ne_nil
    have htrim₂ : trim (w ++ (r.name.toList ++ [])) = r.name.toList :=
      trim_append hw (by simp)
        (trimmed_of_forall fun c hc => isBlank_of_isNamePart (hvalue.2 c hc)) hvalue.1
    rw [List.append_nil] at htrim₂
    refine ⟨u ++ (r.group.name.toList ++ v), w ++ r.name.toList, ?_, ?_⟩
    · rw [← cut?_colons hcolon]
      simp only [List.append_assoc]
    · rw [htrim₁, htrim₂, String.ofList_toList, String.ofList_toList]
      exact lookup?_eq_some_iff.mpr ⟨hr, rfl, rfl⟩

theorem ofPath?_eq_some_iff {s : List Char} {r : Refinement} : Refinement.ofPath? s = some r ↔
    ∃ v q w, s = v ++ (q ++ w) ∧ AllBlank v ∧ NamesRefinement q r ∧ AllBlank w := by
  have hopen : Refinement.ofPath? s =
      (cut? "::".toList (dropStem refinementNamespace (trim s))).bind fun p =>
        Refinement.lookup? (.ofList (trim p.1)) (.ofList (trim p.2)) := rfl
  rw [hopen, Option.bind_eq_some_iff]
  constructor
  · rintro ⟨⟨group, value⟩, hcut, hlookup⟩
    obtain ⟨v, w, hv, hw, hs⟩ := exists_trim s
    obtain ⟨v', q, w', hpath, hv', hq, hw'⟩ := exists_namesValue hcut hlookup
    rw [dropStem] at hpath
    cases hstem : dropStem? refinementNamespace (trim s) with
    | none =>
      rw [hstem, Option.getD_none] at hpath
      refine ⟨v ++ v', q, w' ++ w, ?_, allBlank_append.mpr ⟨hv, hv'⟩, .bare hq,
        allBlank_append.mpr ⟨hw', hw⟩⟩
      rw [hs, hpath]
      simp only [List.append_assoc]
    | some path =>
      rw [hstem, Option.getD_some] at hpath
      refine ⟨v, _, w' ++ w, ?_, hv, .qualified hv' hq, allBlank_append.mpr ⟨hw', hw⟩⟩
      rw [hs, dropStem?_eq_some_iff.mp hstem, hpath]
      simp only [List.append_assoc]
  · rintro ⟨v, q, w, rfl, hv, hq, hw⟩
    rw [trim_append hv hw hq.trimmed hq.ne_nil, dropStem]
    cases hq with
    | bare hq =>
      obtain ⟨group, value, hcut, hlookup⟩ := hq.exists_cut? (u := []) allBlank_nil
      rw [dropStem?_eq_none_iff.mpr (hq.not_prefix (by simp)), Option.getD_none]
      exact ⟨(group, value), hcut, hlookup⟩
    | qualified hu hq =>
      obtain ⟨group, value, hcut, hlookup⟩ := hq.exists_cut? hu
      rw [dropStem?_append, Option.getD_some]
      exact ⟨(group, value), hcut, hlookup⟩

/-! ## Reading a term -/

theorem Term.read_eq_base_iff {s : List Char} {t : SemanticType} :
    Term.read s = .ok (.base t) ↔ NamesBase (bare s) t := by
  rw [← baseOf?_eq_some_iff, Term.read]
  split
  · next t' ht' => simp [ht']
  · next hnone =>
    rw [hnone]
    split
    · split <;> simp
    · simp

theorem Term.read_eq_base_iff_exists {u : List Char} {t : SemanticType} :
    Term.read u = .ok (.base t) ↔ ∃ n ∈ namespaces, ∃ s, u = n ++ s ∧ NamesBase s t := by
  rw [Term.read_eq_base_iff]
  constructor
  · intro h
    obtain ⟨n, hn, hu⟩ := exists_namespace u
    exact ⟨n, hn, bare u, hu, h⟩
  · rintro ⟨n, hn, s, rfl, h⟩
    rwa [bare_append hn h.unqualified]

theorem Term.read_eq_refinement_iff {s : List Char} {r : Refinement} :
    Term.read s = .ok (.refinement r) ↔ Refinement.ofPath? (bare s) = some r := by
  constructor
  · intro h
    rw [Term.read] at h
    split at h
    · cases h
    split at h
    · split at h
      · next r' hr' =>
        cases h
        exact hr'
      · cases h
    · cases h
  · intro h
    obtain ⟨v, q, w, hs, hv, hq, hw⟩ := ofPath?_eq_some_iff.mp h
    have hcolons : "::".toList <:+: bare s := hs ▸ hq.colons.trans ⟨v, w, by simp⟩
    have hnone : baseOf? (bare s) = none := by
      by_contra hsome
      obtain ⟨t, ht⟩ := Option.ne_none_iff_exists'.mp hsome
      have hpart := (baseOf?_eq_some_iff.mp ht).parts.2 ':' (hcolons.subset (by simp))
      revert hpart
      decide
    rw [Term.read, hnone]
    simp only [occursIn_iff.mpr hcolons, if_true, h]

/-- A term is read as a base when it denotes one. -/
theorem Term.read_trim_eq_base_iff {s : List Char} {t : SemanticType} :
    Term.read (trim s) = .ok (.base t) ↔ DenotesBase s t := by
  rw [Term.read_eq_base_iff]
  constructor
  · intro h
    obtain ⟨v, w, hv, hw, hs⟩ := exists_trim s
    obtain ⟨n, hn, happ⟩ := exists_namespace (trim s)
    rw [happ] at hs
    exact hs ▸ .intro hv hn h hw
  · intro h
    cases h with
    | @intro v n s w t hv hn hs hw =>
      have hplain : ∀ c ∈ n ++ s, isBlank c = false := List.forall_mem_append.mpr
        ⟨isBlank_of_mem_namespaces (.tail _ hn),
          fun c hc => isBlank_of_isNamePart (hs.parts.2 c hc)⟩
      have hne : n ++ s ≠ [] := List.append_ne_nil_of_right_ne_nil _ hs.parts.1
      rw [trim_append hv hw (trimmed_of_forall hplain) hne, bare_append hn hs.unqualified]
      exact hs

/-- A term is read as a refinement when it denotes one. -/
theorem Term.read_trim_eq_refinement_iff {s : List Char} {r : Refinement} :
    Term.read (trim s) = .ok (.refinement r) ↔ DenotesRefinement s r := by
  rw [Term.read_eq_refinement_iff]
  constructor
  · intro h
    obtain ⟨v, w, hv, hw, hs⟩ := exists_trim s
    obtain ⟨n, hn, happ⟩ := exists_namespace (trim s)
    obtain ⟨u, q, w', hbare, hu, hq, hw'⟩ := ofPath?_eq_some_iff.mp h
    have hlayout : s = v ++ ((n ++ (u ++ q)) ++ (w' ++ w)) := by
      rw [hs, happ, hbare]
      simp only [List.append_assoc]
    exact hlayout ▸ .intro hv hn hu hq (allBlank_append.mpr ⟨hw', hw⟩)
  · intro h
    cases h with
    | @intro v n u q w r hv hn hu hq hw =>
      by_cases hnil : n = []
      · -- Without a namespace the blanks behind it are trimmed too.
        have htrim : trim (v ++ ((n ++ (u ++ q)) ++ w)) = q := by
          rw [hnil, List.nil_append, List.append_assoc, ← List.append_assoc]
          exact trim_append (allBlank_append.mpr ⟨hv, hu⟩) hw hq.trimmed hq.ne_nil
        rw [htrim, ← List.nil_append q, bare_append (by simp [namespaces]) hq.unqualified]
        exact ofPath?_eq_some_iff.mpr
          ⟨[], q, [], by simp, allBlank_nil, hq, allBlank_nil⟩
      · have htrimmed := trimmed_append hnil (isBlank_of_mem_namespaces (.tail _ hn)) u hq.ne_nil
          hq.trimmed
        have hne : n ++ (u ++ q) ≠ [] := List.append_ne_nil_of_left_ne_nil hnil _
        rw [trim_append hv hw htrimmed hne, bare_append hn (hq.unqualified.blanks hu)]
        exact ofPath?_eq_some_iff.mpr ⟨u, q, [], by simp, hu, hq, allBlank_nil⟩

/-! ## Terms have neither parentheses nor bars -/

theorem DenotesBase.plain {s : List Char} {t : SemanticType} (h : DenotesBase s t) : Plain s := by
  cases h with
  | intro hv hn hs hw =>
    simp only [plain_append]
    exact ⟨plain_of_allBlank hv,
      ⟨plain_of_mem_namespaces (.tail _ hn), plain_of_isNamePart hs.parts.2⟩,
      plain_of_allBlank hw⟩

theorem NamesValue.plain {s : List Char} {r : Refinement} (h : NamesValue s r) : Plain s := by
  cases h with
  | intro hr hv hw =>
    simp only [plain_append]
    exact ⟨plain_of_isNamePart (RefinementGroup.isName_name hr).parts, plain_of_allBlank hv,
      by decide, plain_of_allBlank hw, plain_of_isNamePart (isNamePart_refinement hr).2⟩

theorem NamesRefinement.plain {s : List Char} {r : Refinement} (h : NamesRefinement s r) :
    Plain s := by
  cases h with
  | bare hs => exact hs.plain
  | qualified hv hs =>
    simp only [plain_append]
    exact ⟨plain_of_mem_namespaces (.head _), plain_of_allBlank hv, hs.plain⟩

theorem DenotesRefinement.plain {s : List Char} {r : Refinement} (h : DenotesRefinement s r) :
    Plain s := by
  cases h with
  | intro hv hn hu hs hw =>
    simp only [plain_append]
    exact ⟨plain_of_allBlank hv,
      ⟨plain_of_mem_namespaces (.tail _ hn), plain_of_allBlank hu, hs.plain⟩,
      plain_of_allBlank hw⟩

/-- What stands between bars and is read as a term has no parentheses. -/
theorem plain_of_read {s : List Char} {x : Term} (h : Term.read (trim s) = .ok x) : Plain s := by
  cases x with
  | base t => exact (Term.read_trim_eq_base_iff.mp h).plain
  | refinement r => exact (Term.read_trim_eq_refinement_iff.mp h).plain

end NodeAtlas.SemanticExpr
