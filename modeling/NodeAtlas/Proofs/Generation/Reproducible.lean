import Mathlib.Data.List.Pairwise
import NodeAtlas.Generation
import NodeAtlas.Proofs.Files.Order
import NodeAtlas.Proofs.Outcome
import NodeAtlas.Text.Order

/-!
Pages do not depend on the order in which definition files are named. The outcomes of different
files are sorted in one way only, and everything is planned from the sorted outcomes.
-/

namespace NodeAtlas

namespace Outcome

theorem le_eq : le = Text.orderBy (fun o => o.document.fileName) fun a b =>
    Path.le a.source b.source := rfl

theorem le_trans (a b c : Outcome) (h : a.le b = true) (h' : b.le c = true) : a.le c = true := by
  rw [le_eq] at *
  exact Text.orderBy_trans _ _ (fun a b c => Path.le_trans a.source b.source c.source) h h'

theorem le_total (a b : Outcome) : (a.le b || b.le a) = true := by
  rw [le_eq]
  exact Text.orderBy_total (fun o : Outcome => o.document.fileName)
    (fun a b => Path.le a.source b.source) (fun a b => Path.le_total a.source b.source) a b

theorem same_source_of_le {a b : Outcome} (h : a.le b = true) (h' : b.le a = true) :
    Path.same a.source b.source = true := by
  rw [le_eq] at h h'
  obtain ⟨-, hle, hle'⟩ := Text.of_orderBy_both _ _ h h'
  exact Path.same_of_le hle hle'

end Outcome

namespace Generation

/-- The outcome of a file, which is that of an empty text if the file cannot be read. -/
def outcomeAt (t : FileTree) (path : String) : Outcome := .ofText path ((t.readText? path).getD "")

theorem source_outcomeAt (t : FileTree) (path : String) : (outcomeAt t path).source = path := rfl

section

variable {t : FileTree} {paths : List String}

theorem mapM_read (h : ∀ p ∈ paths, (t.readText? p).isSome = true) :
    paths.mapM (read t) = .ok (paths.map (outcomeAt t)) := by
  rw [mapM_eq_ok_iff, List.forall₂_map_right_iff, List.forall₂_same]
  intro p hp
  obtain ⟨text, htext⟩ := Option.isSome_iff_exists.mp (h p hp)
  simp [read, outcomeAt, htext]

theorem outcomes_eq (h : ∀ p ∈ paths, (t.readText? p).isSome = true) :
    outcomes t paths = .ok ((paths.map (outcomeAt t)).mergeSort Outcome.le) := by
  rw [outcomes, mapM_read h]
  rfl

/-- Of different files, two outcomes that are each at or below the other are one outcome. -/
theorem outcomeAt_eq_of_le (h : paths.Pairwise fun p q => Path.same p q = false) {p q : String}
    (hp : p ∈ paths) (hq : q ∈ paths) (hle : (outcomeAt t p).le (outcomeAt t q) = true)
    (hle' : (outcomeAt t q).le (outcomeAt t p) = true) : outcomeAt t p = outcomeAt t q := by
  have hsame := Outcome.same_source_of_le hle hle'
  rw [source_outcomeAt, source_outcomeAt] at hsame
  by_contra hne
  have hsymm : Std.Symm fun p q => Path.same p q = false :=
    ⟨fun p q hpq => (Path.same_comm q p).trans hpq⟩
  have hdiffer : Path.same p q = false := h.forall hp hq fun heq => hne (heq ▸ rfl)
  rw [hsame] at hdiffer
  contradiction

theorem outcomes_perm {paths' : List String} (hperm : paths.Perm paths')
    (hreadable : ∀ p ∈ paths, (t.readText? p).isSome = true)
    (hdistinct : paths.Pairwise fun p q => Path.same p q = false) :
    outcomes t paths = outcomes t paths' := by
  rw [outcomes_eq hreadable, outcomes_eq fun p hp => hreadable p (hperm.mem_iff.mpr hp)]
  congr 1
  -- Both sides are sorted, and the order tells outcomes of different files apart.
  apply List.Perm.eq_of_pairwise ?_ (List.pairwise_mergeSort Outcome.le_trans Outcome.le_total _)
    (List.pairwise_mergeSort Outcome.le_trans Outcome.le_total _)
  · calc ((paths.map (outcomeAt t)).mergeSort Outcome.le).Perm (paths.map (outcomeAt t)) :=
          List.mergeSort_perm _ _
      _ |>.Perm (paths'.map (outcomeAt t)) := hperm.map _
      _ |>.Perm ((paths'.map (outcomeAt t)).mergeSort Outcome.le) :=
          (List.mergeSort_perm _ _).symm
  · intro a b ha hb hle hle'
    rw [List.mem_mergeSort, List.mem_map] at ha hb
    obtain ⟨p, hp, rfl⟩ := ha
    obtain ⟨q, hq, rfl⟩ := hb
    exact outcomeAt_eq_of_le hdistinct hp (hperm.mem_iff.mpr hq) hle hle'

/-- The plan for some readable files of different paths is the plan for the same files in any other
order, be it a list of outputs or a failure. -/
theorem plan_of_perm {paths' : List String} (hperm : paths.Perm paths')
    (hreadable : ∀ p ∈ paths, (t.readText? p).isSome = true)
    (hdistinct : paths.Pairwise fun p q => Path.same p q = false)
    (s : Settings) (dir : String) (withIndex : Bool) :
    (∃ os, outcomes t paths = .ok os) ∧
      ((outcomes t paths).bind fun os => plan os s dir withIndex) =
        (outcomes t paths').bind fun os => plan os s dir withIndex := by
  rw [← outcomes_perm hperm hreadable hdistinct]
  exact ⟨⟨_, outcomes_eq hreadable⟩, rfl⟩

end

/-- Two directories with a file of one name. -/
def twins : FileTree :=
  let file := Entry.file "DEF_TYPE(\"a\", LITERAL_STRING, NONE, NONE, 0)\n".toUTF8
  { entries := [(["a"], .directory), (["a", "x_types.def"], file), (["b"], .directory),
      (["b", "x_types.def"], file)],
    home := ["a"] }

theorem plan_of_perm_twins :
    let paths := ["/b/x_types.def", "x_types.def"]
    let paths' := ["x_types.def", "/b/x_types.def"]
    (∀ p ∈ paths, (twins.readText? p).isSome = true) ∧ (∃ os, outcomes twins paths = .ok os) ∧
      ((outcomes twins paths).bind fun os => plan os {} "out" true) =
        (outcomes twins paths').bind fun os => plan os {} "out" true := by
  intro paths paths'
  have hreadable : ∀ p ∈ paths, (twins.readText? p).isSome = true := by
    decide +kernel
  exact ⟨hreadable, plan_of_perm (.swap _ _ _) hreadable (by decide +kernel) {} "out" true⟩

end Generation

end NodeAtlas
