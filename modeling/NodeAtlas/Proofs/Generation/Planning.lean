import Mathlib.Data.List.Nodup
import NodeAtlas.Proofs.Generation.Reproducible
import NodeAtlas.Proofs.Generation.Upkeep
import NodeAtlas.Proofs.Text.Search

/-!
Which outputs are planned for one path. Pages are: two files of one stem are a failure. The index is
not compared with them, so a language `index` has its page overwritten when there is an index.
-/

namespace NodeAtlas

theorem Text.mem_of_dropTail? {tail s rest : List Char} (h : dropTail? tail s = some rest) :
    ∀ c ∈ rest, c ∈ s := by
  obtain ⟨front, hfront, rfl⟩ := Option.map_eq_some_iff.mp h
  rw [List.isPrefixOf?_eq_some_iff_append_eq] at hfront
  intro c hc
  rw [← List.mem_reverse, ← hfront, List.mem_append]
  exact .inr (List.mem_reverse.mp hc)

/-- A stem has no character that the file name has not. -/
theorem Language.mem_of_mem_stemOf {fileName : String} {c : Char}
    (h : c ∈ (stemOf fileName).toList) : c ∈ fileName.toList := by
  have hdrop {tail s : List Char} (h : c ∈ (Text.dropTail? tail s).getD s) : c ∈ s := by
    cases hs : Text.dropTail? tail s with
    | none => rwa [hs] at h
    | some rest => exact Text.mem_of_dropTail? hs c (by rwa [hs] at h)
  unfold stemOf at h
  rw [String.toList_ofList] at h
  exact hdrop (hdrop h)

/-- The outcome of some text at a path that has a file name. -/
def Outcome.OfFile (o : Outcome) : Prop :=
  ∃ path text, (Path.fileName? path).isSome = true ∧ o = ofText path text

namespace Generation

variable {t t' : FileTree} {o : Outcome} {os earlier : List Outcome} {s : Settings} {dir : String}
  {withIndex : Bool} {outputs : List Output}

/-- What is read is of a file. -/
theorem ofFile_of_read {path : String} (h : read t path = .ok o) : o.OfFile := by
  unfold read at h
  split at h
  · next text htext =>
    obtain ⟨c, hc, -⟩ := Option.bind_eq_some_iff.mp htext
    exact ⟨path, text, FileTree.isSome_fileName?_of_read? hc, (Except.ok.inj h).symm⟩
  · contradiction

theorem ofFile_of_outcomes {paths : List String} (h : outcomes t paths = .ok os) :
    ∀ o ∈ os, o.OfFile := by
  obtain ⟨found, hfound, hsorted⟩ := bind_eq_ok_iff.mp h
  intro o ho
  rw [← Except.ok.inj hsorted, List.mem_mergeSort] at ho
  obtain ⟨path, -, hread⟩ := (exists_of_mapM_eq_ok hfound).1 o ho
  exact ofFile_of_read hread

/-! ## Pages -/

def pageName (stem : String) : String := stem ++ ".md"

theorem pageName_injective : Function.Injective pageName := by
  intro a b h
  rw [pageName, pageName, ← String.toList_inj, String.toList_append, String.toList_append] at h
  exact String.toList_inj.mp (List.append_cancel_right h)

theorem isName_pageName {stem : String} (h : '/' ∉ stem.toList) : Path.IsName (pageName stem) := by
  have hlist : (pageName stem).toList = stem.toList ++ ['.', 'm', 'd'] := by
    rw [pageName, String.toList_append]
    rfl
  have hlength : 3 ≤ (pageName stem).toList.length := by
    simp [hlist]
  refine ⟨fun hslash => ?_, ?_, ?_, ?_⟩
  · rw [hlist, List.mem_append] at hslash
    rcases hslash with hslash | hslash
    · exact h hslash
    · revert hslash
      decide
  all_goals
    intro heq
    rw [heq] at hlength
    revert hlength
    decide

theorem isName_page (h : o.OfFile) : Path.IsName (pageName o.stem) := by
  obtain ⟨path, text, hname, rfl⟩ := h
  obtain ⟨name, hname⟩ := Option.isSome_iff_exists.mp hname
  have hstem : (Outcome.ofText path text).stem = Language.stemOf name := by
    show Language.stemOf ((Path.fileName? path).getD path) = _
    rw [hname]
    rfl
  rw [hstem]
  exact isName_pageName fun hslash =>
    Path.noSlash_of_fileName? hname (Language.mem_of_mem_stemOf hslash)

theorem isName_index : Path.IsName (pageName "index") := isName_pageName (by decide)

theorem path_pageOutput (dir : String) (o : Outcome) :
    (pageOutput dir o).path = Path.join dir (pageName o.stem) := by
  rw [pageOutput, pageName]

theorem path_indexOutput (s : Settings) (dir : String) (os : List Outcome) :
    (indexOutput s dir os).path = Path.join dir (pageName "index") := by
  rw [indexOutput]
  rfl

/-- Pages of different stems are at different places. -/
theorem eq_of_meets_page {home : Spot} {stem stem' : String} (hname : Path.IsName (pageName stem))
    (hname' : Path.IsName (pageName stem'))
    (h : Path.Meets home (Path.join dir (pageName stem)) (Path.join dir (pageName stem'))) :
    stem = stem' :=
  pageName_injective (Path.eq_of_meets_join hname hname' h)

/-! ## Clashes -/

theorem clash?_eq_none_iff : clash? earlier os = none ↔
    (∀ o ∈ os, ∀ e ∈ earlier, e.stem ≠ o.stem) ∧ (os.map Outcome.stem).Nodup := by
  -- The outcomes that a later one is compared with grow by one at each step.
  induction os generalizing earlier with
  | nil => simp [clash?]
  | cons o os ih =>
    rw [clash?, List.map_cons, List.nodup_cons, List.forall_mem_cons]
    cases hfind : earlier.find? (·.stem == o.stem) with
    | some first =>
      have hstem : first.stem = o.stem := by simpa using List.find?_some hfind
      have hmem := List.mem_of_find?_eq_some hfind
      simpa using fun h => absurd hstem (h first hmem)
    | none =>
      have hnew : ∀ e ∈ earlier, e.stem ≠ o.stem := by simpa using hfind
      simp only [ih, List.mem_append, List.mem_singleton, or_imp, forall_and, forall_eq, List.mem_map,
        not_exists, not_and]
      grind

/-- A clash is of two outcomes of one stem, in their order. -/
theorem of_clash?_eq_some {first second : Outcome} (h : clash? earlier os = some (first, second)) :
    first.stem = second.stem ∧ [first, second].Sublist (earlier ++ os) := by
  induction os generalizing earlier with
  | nil => simp [clash?] at h
  | cons o os ih =>
    rw [clash?] at h
    split at h
    · next found hfind =>
      obtain ⟨rfl, rfl⟩ := Prod.mk.inj (Option.some.inj h)
      have hfirst := List.singleton_sublist.mpr (List.mem_of_find?_eq_some hfind)
      have hsecond := List.singleton_sublist.mpr (List.mem_cons_self : o ∈ o :: os)
      exact ⟨by simpa using List.find?_some hfind, hfirst.append hsecond⟩
    · simpa using ih h

/-- The pages of some outcomes, and the index if it is wanted. -/
def allOutputs (os : List Outcome) (s : Settings) (dir : String) (withIndex : Bool) :
    List Output :=
  os.map (pageOutput dir) ++ if withIndex then [indexOutput s dir os] else []

theorem plan_eq_ok_iff : plan os s dir withIndex = .ok outputs ↔
    (os.map Outcome.stem).Nodup ∧ outputs = allOutputs os s dir withIndex := by
  have hnone : clash? [] os = none ↔ (os.map Outcome.stem).Nodup := by
    simp [clash?_eq_none_iff]
  rw [← hnone, plan, allOutputs]
  cases clash? [] os with
  | none => simp [eq_comm]
  | some pair => simp

theorem of_plan_eq_error {e : Failure} (h : plan os s dir withIndex = .error e) :
    ∃ first second, first.stem = second.stem ∧ [first, second].Sublist os ∧
      e = .sameLanguage first.stem first.source second.source := by
  unfold plan at h
  split at h
  · next first second hclash =>
    obtain ⟨hstem, hsublist⟩ := of_clash?_eq_some hclash
    exact ⟨first, second, hstem, hsublist, (Except.error.inj h).symm⟩
  · contradiction

theorem plan_eq_error_iff :
    (∃ e, plan os s dir withIndex = .error e) ↔ ¬ (os.map Outcome.stem).Nodup := by
  cases h : plan os s dir withIndex with
  | error e =>
    have hnot : ¬ (os.map Outcome.stem).Nodup := fun hnodup =>
      nomatch h.symm.trans (plan_eq_ok_iff.mpr ⟨hnodup, rfl⟩)
    simpa using hnot
  | ok outputs => simpa using (plan_eq_ok_iff.mp h).1

/-! ## Paths -/

/-- No two outputs have the same path. -/
def Apart (outputs : List Output) : Prop := (outputs.map fun x => Path.parts x.path).Nodup

instance : Decidable (Apart outputs) :=
  List.nodupDecidable _

/-- The paths of pages and an index are apart as their stems are, if the index has the stem `index`. -/
theorem apart_iff (hfiles : ∀ o ∈ os, o.OfFile) (s : Settings) (dir : String) (withIndex : Bool) :
    Apart (allOutputs os s dir withIndex) ↔
      (os.map Outcome.stem ++ if withIndex then ["index"] else []).Nodup := by
  let pageParts (stem : String) : List Path.Part := Path.parts dir ++ [.name (pageName stem)]
  have hinjective : Function.Injective pageParts := fun a b h =>
    pageName_injective (by simpa [pageParts] using h)
  have hpages : os.map (fun o => Path.parts (pageOutput dir o).path) =
      os.map fun o => pageParts o.stem :=
    List.map_congr_left fun o ho => by
      rw [path_pageOutput, Path.parts_join dir (isName_page (hfiles o ho))]
  have hindex : Path.parts (indexOutput s dir os).path = pageParts "index" := by
    rw [path_indexOutput, Path.parts_join dir isName_index]
  have hparts : (allOutputs os s dir withIndex).map (fun x => Path.parts x.path) =
      (os.map Outcome.stem ++ if withIndex then ["index"] else []).map pageParts := by
    cases withIndex with
    | false => simpa [allOutputs, Function.comp_def] using hpages
    | true => simpa [allOutputs, Function.comp_def, hindex] using hpages
  rw [Apart, hparts, List.nodup_map_iff hinjective]

/-- The index is on disk when it has been written, and so is each page that is not at its path. -/
theorem read?_of_write_plan (hfiles : ∀ o ∈ os, o.OfFile)
    (hplan : plan os s dir withIndex = .ok outputs) (hwrite : write t outputs = (t', none)) :
    (withIndex = true →
      t'.read? (indexOutput s dir os).path = some (indexOutput s dir os).bytes) ∧
    ∀ o ∈ os, (withIndex = true → o.stem ≠ "index") →
      t'.read? (pageOutput dir o).path = some (pageOutput dir o).bytes := by
  obtain ⟨hnodup, rfl⟩ := plan_eq_ok_iff.mp hplan
  unfold allOutputs at hwrite
  refine ⟨fun hindex => ?_, fun o ho hother => ?_⟩
  · -- The index is written last.
    rw [if_pos hindex] at hwrite
    exact read?_write hwrite fun o' ho' => absurd ho' List.not_mem_nil
  · -- A page could be lost to what is written behind it: pages of other stems, and the index.
    obtain ⟨front, back, rfl⟩ := List.append_of_mem ho
    rw [List.map_append, List.map_cons, List.nodup_append, List.nodup_cons] at hnodup
    rw [List.map_append, List.map_cons, List.append_assoc, List.cons_append] at hwrite
    refine read?_write hwrite fun x hx hmeets => ?_
    rw [path_pageOutput] at hmeets
    rcases List.mem_append.mp hx with hpage | hindex
    · obtain ⟨o', ho', rfl⟩ := List.mem_map.mp hpage
      rw [path_pageOutput] at hmeets
      have hstem : o.stem = o'.stem := eq_of_meets_page (isName_page (hfiles o ho))
        (isName_page (hfiles o' (by simp [ho']))) hmeets
      exact absurd (List.mem_map.mpr ⟨o', ho', hstem.symm⟩) hnodup.2.1.1
    · cases withIndex with
      | false => exact absurd hindex List.not_mem_nil
      | true =>
        rw [List.mem_singleton.mp hindex, path_indexOutput] at hmeets
        exact absurd (eq_of_meets_page (isName_page (hfiles o ho)) isName_index hmeets) (hother rfl)

/-- Which outputs are planned for one path, and what is left of them. A plan fails, and names two
files, exactly if two pages would have the same path. Outputs that are planned have different paths,
unless one is the page of the language `index` and there is an index. Once they are written, the index
has its contents, and each page has its own unless it is that one. -/
theorem plan_apart (hfiles : ∀ o ∈ os, o.OfFile) (s : Settings) (dir : String) (withIndex : Bool) :
    ((∃ e, plan os s dir withIndex = .error e) ↔ ¬ Apart (os.map (pageOutput dir))) ∧
    (∀ e, plan os s dir withIndex = .error e →
      ∃ first second, first.stem = second.stem ∧ [first, second].Sublist os ∧
        e = .sameLanguage first.stem first.source second.source) ∧
    ∀ outputs, plan os s dir withIndex = .ok outputs →
      outputs = allOutputs os s dir withIndex ∧
      (Apart outputs ↔ ¬ (withIndex = true ∧ ∃ o ∈ os, o.stem = "index")) ∧
      ∀ t t', write t outputs = (t', none) →
        (withIndex = true →
          t'.read? (indexOutput s dir os).path = some (indexOutput s dir os).bytes) ∧
        ∀ o ∈ os, (withIndex = true → o.stem ≠ "index") →
          t'.read? (pageOutput dir o).path = some (pageOutput dir o).bytes := by
  refine ⟨?_, fun e => of_plan_eq_error, fun outputs hplan => ?_⟩
  · have hpages := apart_iff hfiles s dir false
    simp only [allOutputs, Bool.false_eq_true, if_false, List.append_nil] at hpages
    rw [plan_eq_error_iff, hpages]
  · obtain ⟨hnodup, heq⟩ := plan_eq_ok_iff.mp hplan
    refine ⟨heq, ?_, fun t t' hwrite => read?_of_write_plan hfiles hplan hwrite⟩
    rw [heq, apart_iff hfiles]
    cases withIndex with
    | false => simpa using hnodup
    | true => simp [List.nodup_append, hnodup]

/-- Definition files of two languages, below the working directory. -/
def twoFiles : FileTree where
  entries := [(["w"], .directory), (["w", "defs"], .directory),
    (["w", "defs", "a_types.def"], .file .empty), (["w", "defs", "b_types.def"], .file .empty)]
  home := ["w"]

def twoLanguages : List Outcome :=
  ["defs/a_types.def", "defs/b_types.def"].map (outcomeAt twoFiles)

theorem plan_apart_twoLanguages :
    outcomes twoFiles ["defs/a_types.def", "defs/b_types.def"] = .ok twoLanguages ∧
      (∀ o ∈ twoLanguages, o.OfFile) ∧
      ∃ outputs, plan twoLanguages {} "/out" true = .ok outputs ∧ Apart outputs ∧
        ∃ t', write twoFiles outputs = (t', none) ∧
          t'.read? "/out/index.md" = some (indexOutput {} "/out" twoLanguages).bytes ∧
          ∀ o ∈ twoLanguages, t'.read? (pageOutput "/out" o).path = some (pageOutput "/out" o).bytes := by
  have hsorted : twoLanguages.Pairwise fun a b => Outcome.le a b = true := by
    decide +kernel
  have hread : outcomes twoFiles ["defs/a_types.def", "defs/b_types.def"] = .ok twoLanguages := by
    rw [outcomes_eq (by decide +kernel)]
    exact congrArg Except.ok (List.mergeSort_of_pairwise hsorted)
  have hstems : twoLanguages.map Outcome.stem = ["a", "b"] := by
    decide +kernel
  have hother : ∀ o ∈ twoLanguages, o.stem ≠ "index" := by
    decide +kernel
  have hplan : plan twoLanguages {} "/out" true = .ok (allOutputs twoLanguages {} "/out" true) :=
    plan_eq_ok_iff.mpr ⟨by rw [hstems]; decide, rfl⟩
  have hwritten : (write twoFiles (allOutputs twoLanguages {} "/out" true)).2 = none := by
    decide +kernel
  have hwrite : write twoFiles (allOutputs twoLanguages {} "/out" true) =
      ((write twoFiles (allOutputs twoLanguages {} "/out" true)).1, none) := by
    rw [← hwritten]
  have hpath : "/out/index.md" = (indexOutput {} "/out" twoLanguages).path := by
    decide +kernel
  have hfiles := ofFile_of_outcomes hread
  obtain ⟨-, -, hplanned⟩ := plan_apart hfiles {} "/out" true
  obtain ⟨-, hapart, hread'⟩ := hplanned _ hplan
  obtain ⟨hindex, hpages⟩ := hread' _ _ hwrite
  exact ⟨hread, hfiles, _, hplan, hapart.mpr fun ⟨_, o, ho, h⟩ => hother o ho h, _, hwrite,
    hpath ▸ hindex rfl, fun o ho => hpages o ho fun _ => hother o ho⟩

/-- The page of the language `index` is planned at the path of the index, and lost to it. -/
def indexLanguage : List Outcome := [.ofText "index_types.def" ""]

theorem index_page_lost :
    (∀ o ∈ indexLanguage, o.OfFile) ∧
      ∃ outputs, plan indexLanguage {} "out" true = .ok outputs ∧ ¬ Apart outputs ∧
        ∃ t', write {} outputs = (t', none) ∧ ∃ o ∈ outputs, t'.read? o.path ≠ some o.bytes := by
  have hplan : plan indexLanguage {} "out" true = .ok (allOutputs indexLanguage {} "out" true) := by
    rfl
  have hwritten : (write {} (allOutputs indexLanguage {} "out" true)).2 = none := by
    decide +kernel
  have hlost : ∃ o ∈ allOutputs indexLanguage {} "out" true,
      (write {} (allOutputs indexLanguage {} "out" true)).1.read? o.path ≠ some o.bytes := by
    decide +kernel
  refine ⟨?_, _, hplan, by decide +kernel, _, Prod.ext rfl hwritten, hlost⟩
  intro o ho
  rw [List.mem_singleton.mp ho]
  exact ⟨_, _, by decide +kernel, rfl⟩

end Generation

end NodeAtlas
