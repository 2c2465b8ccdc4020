import Mathlib.Data.List.Permutation
import NodeAtlas.Proofs.Outcome
import NodeAtlas.Proofs.Semantic.Stripping

/-!
What terms mean together: a base by itself, or a base and a refinement that applies to it. Their
order makes no difference.
-/

namespace NodeAtlas.SemanticExpr

open Text

/-! ## Taking terms up -/

/-- Each term fills one of two places, which has to be empty. -/
theorem add_eq_ok_iff {f g : Found} {u : List Char} : f.add u = .ok g ↔
    (∃ b, Term.read u = .ok (.base b) ∧ f.base = none ∧ g = { f with base := some b }) ∨
      ∃ r, Term.read u = .ok (.refinement r) ∧ f.refinement = none ∧
        g = { f with refinement := some r } := by
  rw [Found.add, bind_eq_ok_iff]
  constructor
  · rintro ⟨b | r, hread, hadd⟩
    · by_cases hempty : f.base.isSome
      · simp [hempty] at hadd
      · simp only [hempty, if_false, Bool.false_eq_true, Except.ok.injEq] at hadd
        exact .inl ⟨b, hread, by simpa using hempty, hadd.symm⟩
    · by_cases hempty : f.refinement.isSome
      · simp [hempty] at hadd
      · simp only [hempty, if_false, Bool.false_eq_true, Except.ok.injEq] at hadd
        exact .inr ⟨r, hread, by simpa using hempty, hadd.symm⟩
  · rintro (⟨b, hread, hempty, rfl⟩ | ⟨r, hread, hempty, rfl⟩)
    · exact ⟨.base b, hread, by simp [hempty]⟩
    · exact ⟨.refinement r, hread, by simp [hempty]⟩

/-- The terms that were taken up, and what was found in them. -/
inductive Taken : List (List Char) → Found → Prop where
  | nothing : Taken [] {}
  | base {s : List Char} {b : SemanticType} (hs : DenotesBase s b) : Taken [s] ⟨some b, none⟩
  | refinement {u : List Char} {r : Refinement} (hu : DenotesRefinement u r) :
      Taken [u] ⟨none, some r⟩
  | both {ts : List (List Char)} {s u : List Char} {b : SemanticType} {r : Refinement}
      (hts : ts.Perm [s, u]) (hs : DenotesBase s b) (hu : DenotesRefinement u r) :
      Taken ts ⟨some b, some r⟩

theorem Taken.concat {ts : List (List Char)} {f g : Found} (h : Taken ts f) {u : List Char}
    (hadd : f.add (trim u) = .ok g) : Taken (ts ++ [u]) g := by
  rcases add_eq_ok_iff.mp hadd with ⟨b, hread, hempty, rfl⟩ | ⟨r, hread, hempty, rfl⟩
  · have hu := Term.read_trim_eq_base_iff.mp hread
    cases h with
    | nothing => exact .base hu
    | refinement hr => exact .both (List.Perm.swap _ _ _) hu hr
    | base => cases hempty
    | both => cases hempty
  · have hu := Term.read_trim_eq_refinement_iff.mp hread
    cases h with
    | nothing => exact .refinement hu
    | base hs => exact .both (List.Perm.refl _) hs hu
    | refinement => cases hempty
    | both => cases hempty

theorem Taken.append {done ts : List (List Char)} {f g : Found} (h : Taken done f)
    (hfold : (ts.map trim).foldlM Found.add f = .ok g) : Taken (done ++ ts) g := by
  induction ts generalizing done f with
  | nil =>
    cases hfold
    rwa [List.append_nil]
  | cons u ts ih =>
    rw [List.map_cons, List.foldlM_cons, bind_eq_ok_iff] at hfold
    obtain ⟨f', hadd, hfold⟩ := hfold
    have htaken := ih (h.concat hadd) hfold
    rwa [List.append_assoc, List.singleton_append] at htaken

theorem Taken.foldlM {ts : List (List Char)} {f : Found} (h : Taken ts f) :
    (ts.map trim).foldlM Found.add {} = .ok f := by
  have hbase {s : List Char} {b : SemanticType} (hs : DenotesBase s b) (f : Found)
      (hempty : f.base = none) : f.add (trim s) = .ok { f with base := some b } :=
    add_eq_ok_iff.mpr (.inl ⟨b, Term.read_trim_eq_base_iff.mpr hs, hempty, rfl⟩)
  have hrefinement {u : List Char} {r : Refinement} (hu : DenotesRefinement u r) (f : Found)
      (hempty : f.refinement = none) : f.add (trim u) = .ok { f with refinement := some r } :=
    add_eq_ok_iff.mpr (.inr ⟨r, Term.read_trim_eq_refinement_iff.mpr hu, hempty, rfl⟩)
  cases h with
  | nothing => rfl
  | base hs => exact bind_eq_ok_iff.mpr ⟨_, hbase hs {} rfl, rfl⟩
  | refinement hu => exact bind_eq_ok_iff.mpr ⟨_, hrefinement hu {} rfl, rfl⟩
  | both hts hs hu =>
    rcases List.perm_pair.mp hts with rfl | rfl
    · exact bind_eq_ok_iff.mpr ⟨_, hbase hs {} rfl,
        bind_eq_ok_iff.mpr ⟨_, hrefinement hu _ rfl, rfl⟩⟩
    · exact bind_eq_ok_iff.mpr ⟨_, hrefinement hu {} rfl,
        bind_eq_ok_iff.mpr ⟨_, hbase hs _ rfl, rfl⟩⟩

/-- An expression without bars is one term, which has to be a base. -/
theorem parse_single_eq_ok_iff {text : String} (h : '|' ∉ text.toList) {t : SemanticType} :
    parse text = .ok t ↔ Term.read (stripParens text.toList) = .ok (.base t) := by
  have hbar : '|' ∉ stripParens text.toList := fun hmem => h (stripParens_subset _ hmem)
  have hterms : terms text.toList = [stripParens text.toList] := by
    rw [terms, List.splitOn_eq_singleton hbar, List.map_singleton, stripParens_idem]
  rw [parse, read, hterms, bind_eq_ok_iff]
  constructor
  · rintro ⟨f, hadd, hresolve⟩
    rw [List.foldlM_cons, bind_eq_ok_iff] at hadd
    obtain ⟨g, hadd, hnil⟩ := hadd
    cases hnil
    rcases add_eq_ok_iff.mp hadd with ⟨b, hread, -, rfl⟩ | ⟨r, -, -, rfl⟩
    · cases hresolve
      exact hread
    · cases hresolve
  · intro hread
    exact ⟨_, bind_eq_ok_iff.mpr ⟨_, add_eq_ok_iff.mpr (.inl ⟨t, hread, rfl, rfl⟩), rfl⟩, rfl⟩

/-! ## The meaning of terms -/

/-- A base, or a base and a refinement that applies to it. -/
inductive Means : List (List Char) → SemanticType → Prop where
  | base {s : List Char} {b : SemanticType} (hs : DenotesBase s b) : Means [s] b
  | refined {ts : List (List Char)} {s u : List Char} {b : SemanticType} {r : Refinement}
      (hts : ts.Perm [s, u]) (hs : DenotesBase s b) (hu : DenotesRefinement u r)
      (happlies : r.group.scope.accepts b = true) : Means ts (b.refine r.bits)

theorem Means.perm {ts ts' : List (List Char)} {t : SemanticType} (h : Means ts t)
    (hperm : ts'.Perm ts) : Means ts' t := by
  cases h with
  | base hs =>
    rw [List.perm_singleton.mp hperm]
    exact .base hs
  | refined hts hs hu happlies => exact .refined (hperm.trans hts) hs hu happlies

end NodeAtlas.SemanticExpr
