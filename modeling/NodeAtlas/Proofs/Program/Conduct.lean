import NodeAtlas.Proofs.Generation.Upkeep
import NodeAtlas.Proofs.Program.Steps

/-!
What a run does to the files, and with which exit code it ends. A run over definition files takes one
of a few courses; the files can change on the last of them only, which is for options that ask for
nothing else, diagnostics that stay below the fail level and outputs that could be planned.
-/

namespace NodeAtlas.Program

variable {o : Options} {t t' : FileTree} {s : Settings} {os : List Outcome}

/-- The settings of a run, and the outcomes of the definition files that it finds with them. -/
def Surveys (o : Options) (t : FileTree) (s : Settings) (os : List Outcome) : Prop :=
  (∃ source, readSettings t o.config = .ok (s, source)) ∧
    ∃ files, definitionFiles o s t = .ok files ∧ Generation.outcomes t files = .ok os

theorem Surveys.unique {s' : Settings} {os' : List Outcome} (h : Surveys o t s os)
    (h' : Surveys o t s' os') : s = s' ∧ os = os' := by
  obtain ⟨⟨source, hs⟩, files, hfiles, hos⟩ := h
  obtain ⟨⟨source', hs'⟩, files', hfiles', hos'⟩ := h'
  cases hs.symm.trans hs'
  cases hfiles.symm.trans hfiles'
  cases hos.symm.trans hos'
  exact ⟨rfl, rfl⟩

/-- The outputs of a run. -/
def plan (o : Options) (s : Settings) (os : List Outcome) :
    Except Generation.Failure (List Output) :=
  Generation.plan os s (o.output.getD s.output) (s.hasIndex && !o.noIndex)

/-- Whether some diagnostic is at or above the fail level. -/
def fails (o : Options) (os : List Outcome) : Bool :=
  (os.flatMap (·.diagnostics)).any (·.severity.reaches o.failLevel)

theorem fails_iff :
    fails o os = true ↔ ∃ x ∈ os, ∃ d ∈ x.diagnostics, d.severity.reaches o.failLevel = true := by
  simp only [fails, List.any_eq_true, List.mem_flatMap]
  constructor
  · rintro ⟨d, ⟨x, hx, hd⟩, hreach⟩
    exact ⟨x, hx, d, hd, hreach⟩
  · rintro ⟨x, hx, d, hd, hreach⟩
    exact ⟨d, ⟨x, hx, hd⟩, hreach⟩

theorem fails_of_error (h : ∃ x ∈ os, ∃ d ∈ x.diagnostics, d.severity = .error) :
    fails o os = true := by
  obtain ⟨x, hx, d, hd, herror⟩ := h
  refine fails_iff.mpr ⟨x, hx, d, hd, ?_⟩
  rw [herror]
  cases o.failLevel <;> rfl

/-- The courses of a run over definition files: how it ends, and the files that it leaves. -/
inductive Course (o : Options) (t : FileTree) : Except Failure Nat → FileTree → Prop
  | stopped (e : Failure) : Course o t (.error e) t
  | validated {s : Settings} {os : List Outcome} (survey : Surveys o t s os)
      (validate : o.validate = true) : Course o t (.ok (if fails o os then 1 else 0)) t
  | failed {s : Settings} {os : List Outcome} (survey : Surveys o t s os)
      (validate : o.validate = false) (fail : fails o os = true) : Course o t (.ok 1) t
  | checked {s : Settings} {os : List Outcome} {outputs : List Output}
      {stale : List (Output × Generation.Staleness)} (survey : Surveys o t s os)
      (validate : o.validate = false) (pass : fails o os = false)
      (planned : plan o s os = .ok outputs) (check : o.check = true)
      (found : Generation.check t outputs = .ok stale) :
      Course o t (.ok (if stale = [] then 0 else 1)) t
  | printed {s : Settings} {os : List Outcome} (survey : Surveys o t s os)
      (validate : o.validate = false) (pass : fails o os = false) (check : o.check = false) :
      Course o t (.ok 0) t
  | written {s : Settings} {os : List Outcome} {outputs : List Output} {r : Except Failure Nat}
      (survey : Surveys o t s os) (validate : o.validate = false) (pass : fails o os = false)
      (planned : plan o s os = .ok outputs) (check : o.check = false) (stdout : o.stdout = false)
      (code : ∀ c, r = .ok c → c = 0) : Course o t r (Generation.write t outputs).1

/-- What a run does when it has reported the diagnostics. -/
def conclude (o : Options) (s : Settings) (os : List Outcome) : Run Nat := do
  if fails o os then return 1
  let outputs ← orFail .generation (plan o s os)
  if o.check then check o outputs
  else if o.stdout then
    print (.join (outputs.map (·.contents)))
    return 0
  else write o (o.output.getD s.output) outputs

theorem course_conclude {w : World} (survey : Surveys o w.tree s os) (validate : o.validate = false) :
    Leads (conclude o s os) w (Course o w.tree) := by
  unfold conclude
  split
  · next fail => exact .failed survey validate fail
  next hpass =>
  have pass : fails o os = false := Bool.eq_false_iff.mpr hpass
  refine .orFail_bind (fun outputs planned => ?_) fun e _ => .stopped _
  split
  · next hcheck =>
    refine (leads_check o outputs w).imp fun r t h => ?_
    obtain ⟨rfl, hcode⟩ := h
    cases r with
    | error e => exact .stopped e
    | ok c =>
      obtain ⟨stale, found, rfl⟩ := hcode c rfl
      exact .checked survey validate pass planned hcheck found
  next hcheck =>
  have check : o.check = false := Bool.eq_false_iff.mpr hcheck
  split
  · refine .silent_bind (isSilent_print _) fun w₁ h₁ => ?_
    rw [← h₁] at survey ⊢
    exact .printed survey validate pass check
  · next hstdout =>
    refine (leads_write o _ outputs w).imp fun r t h => ?_
    obtain ⟨rfl, hcode⟩ := h
    exact .written survey validate pass planned check (Bool.eq_false_iff.mpr hstdout) hcode

theorem course_generate (o : Options) (w : World) :
    Leads (generate o) w (Course o w.tree) := by
  unfold generate
  refine .bind (leads_loadSettings o w) (fun s w₁ h₁ => ?_) fun e t h => h.2 ▸ .stopped e
  obtain ⟨hsettings, h₁⟩ := h₁
  rw [← h₁] at hsettings ⊢
  refine .bind (leads_readOutcomes o s w₁) (fun os w₂ h₂ => ?_) fun e t h => h.1 ▸ .stopped e
  obtain ⟨h₂, houtcomes⟩ := h₂
  obtain ⟨files, hfiles, hos⟩ := houtcomes os rfl
  -- Settings and outcomes are read from one tree, since the steps between leave it alone.
  have survey : Surveys o w₁.tree s os := by
    refine ⟨?_, files, hfiles, hos⟩
    cases hread : readSettings w₁.tree o.config with
    | error e => simp [hread, Except.map] at hsettings
    | ok found =>
      rw [hread] at hsettings
      exact ⟨found.2, by rw [Except.ok.inj hsettings]⟩
  rw [← h₂] at survey ⊢
  dsimp only
  split
  · next validate =>
    refine .silent_bind (isSilent_print _) fun w₃ h₃ => ?_
    rw [← h₃] at survey ⊢
    exact .validated survey validate
  next hvalidate =>
  have validate : o.validate = false := Bool.eq_false_iff.mpr hvalidate
  split
  · refine .silent_bind (isSilent_note _) fun w₃ h₃ => ?_
    rw [← h₃] at survey ⊢
    exact course_conclude survey validate
  · exact course_conclude survey validate

/-! ## Other runs -/

theorem leads_listTypes (o : Options) (w : World) :
    Leads (listTypes o) w fun _ t => t = w.tree := by
  unfold listTypes
  exact .silent_bind (isSilent_print _) fun w₁ h₁ => h₁

theorem leads_parseSource (o : Options) (path : String) (w : World) :
    Leads (parseSource o path) w fun _ t => t = w.tree := by
  unfold parseSource
  refine .orFail_bind (fun l _ => ?_) fun e _ => rfl
  refine .silent_bind (isSilent_debug o _) fun w₁ h₁ => ?_
  refine .get_bind ?_
  split
  · exact h₁
  · refine .silent_bind (isSilent_debug o _) fun w₂ h₂ => ?_
    refine .silent_bind (isSilent_print _) fun w₃ h₃ => ?_
    exact h₃.trans (h₂.trans h₁)

/-- A run that is asked for neither types nor a source takes one of the courses, and any other leaves
the files alone. -/
theorem course_run (o : Options) (t : FileTree) :
    (o.listTypes = false ∧ o.parse = none ∧
      Course o t (runIn o t).1 (runIn o t).2.tree) ∨
    (o.listTypes = true ∨ o.parse ≠ none) ∧ (runIn o t).2.tree = t := by
  have hleads : Leads (run o) { tree := t } fun r t' =>
      (o.listTypes = false ∧ o.parse = none ∧ Course o t r t') ∨
        (o.listTypes = true ∨ o.parse ≠ none) ∧ t' = t := by
    unfold run
    split
    · next hlist => exact (leads_listTypes o _).imp fun _ _ h => .inr ⟨.inl hlist, h⟩
    next hlist =>
    split
    · next path hparse =>
      exact (leads_parseSource o path _).imp fun _ _ h => .inr ⟨.inr (by simp [hparse]), h⟩
    · next hparse =>
      exact (course_generate o _).imp fun _ _ h =>
        .inl ⟨Bool.eq_false_iff.mpr hlist, hparse, h⟩
  exact hleads

/-! ## Changes and exit codes -/

/-- A run that makes pages finds fault with some diagnostic that is at or above the fail level and, if
it checks, with some planned output whose file is not as it should be. -/
def FindsFault (o : Options) (t : FileTree) (s : Settings) (os : List Outcome) : Prop :=
  (∃ x ∈ os, ∃ d ∈ x.diagnostics, d.severity.reaches o.failLevel = true) ∨
    o.check = true ∧ ∃ outputs, plan o s os = .ok outputs ∧
      ∃ x ∈ outputs, Generation.IsStale t x

theorem findsFault_iff_of_no_check (h : o.check = false) :
    FindsFault o t s os ↔ fails o os = true := by
  simp [FindsFault, fails_iff, h]

theorem findsFault_iff_of_check {outputs : List Output} (h : o.check = true)
    (pass : fails o os = false) (planned : plan o s os = .ok outputs) :
    FindsFault o t s os ↔ ∃ x ∈ outputs, Generation.IsStale t x := by
  rw [FindsFault, ← fails_iff]
  simp [h, pass, planned]

/-- Only a run that writes changes the files. -/
theorem of_tree_ne {r : Except Failure Nat} (course : Course o t r t') (h : t' ≠ t) :
    o.validate = false ∧ o.check = false ∧ o.stdout = false ∧
      ∃ s os outputs, Surveys o t s os ∧ fails o os = false ∧ plan o s os = .ok outputs := by
  cases course with
  | written survey validate pass planned check stdout code =>
    exact ⟨validate, check, stdout, _, _, _, survey, pass, planned⟩
  | _ => exact absurd rfl h

/-- The exit code tells whether a run finds fault. -/
theorem code_eq {c : Nat} (course : Course o t (.ok c) t') (hcheck : o.validate = true → o.check = false) :
    ∃ s os, Surveys o t s os ∧
      ((∀ outputs, plan o s os = .ok outputs → Generation.DigestsTellApart t outputs) →
        (FindsFault o t s os → c = 1) ∧ (¬ FindsFault o t s os → c = 0)) := by
  cases course with
  | validated survey validate =>
    refine ⟨_, _, survey, fun _ => ?_⟩
    rw [findsFault_iff_of_no_check (hcheck validate)]
    exact ⟨fun h => if_pos h, fun h => if_neg h⟩
  | failed survey validate fail =>
    exact ⟨_, _, survey, fun _ => ⟨fun _ => rfl, fun h => absurd (.inl (fails_iff.mp fail)) h⟩⟩
  | checked survey validate pass planned check found =>
    refine ⟨_, _, survey, fun hdigest => ?_⟩
    rw [findsFault_iff_of_check check pass planned,
      ← Generation.check_ne_nil_iff found (hdigest _ planned)]
    exact ⟨fun h => if_neg h, fun h => if_pos (not_not.mp h)⟩
  | printed survey validate pass check =>
    refine ⟨_, _, survey, fun _ => ?_⟩
    rw [findsFault_iff_of_no_check check, pass]
    exact ⟨nofun, fun _ => rfl⟩
  | written survey validate pass planned check stdout code =>
    refine ⟨_, _, survey, fun _ => ?_⟩
    rw [findsFault_iff_of_no_check check, pass]
    exact ⟨nofun, fun _ => code c rfl⟩

/-- A command line cannot ask for validation and for a check. -/
theorem check_of_validate {arguments : List String} (ho : Options.ofArguments arguments = .ok o)
    (h : o.validate = true) : o.check = false := by
  obtain ⟨g, -, ho⟩ := bind_eq_ok_iff.mp ho
  dsimp only at ho
  split at ho
  · contradiction
  next hconflicts =>
  split at ho
  · contradiction
  cases ho
  -- Giving both switches is one of the conflicts.
  have hpair : ¬ (g.has "check" = true ∧ g.has "validate" = true) := fun hboth =>
    hconflicts (List.any_eq_true.mpr
      ⟨("check", "validate"), List.mem_cons_self, Bool.and_eq_true _ _ ▸ hboth⟩)
  exact Bool.eq_false_iff.mpr fun hcheck => hpair ⟨hcheck, h⟩

/-- What a run for a command line does to the files and how it ends. It changes them only if it is
asked for nothing else, no diagnostic is at or above the fail level and the outputs could be planned;
an error is at or above every level. If it makes pages and ends with an exit code, this is 1 if it
finds fault and 0 if it does not. -/
theorem conduct_run {arguments : List String} {o : Options}
    (ho : Options.ofArguments arguments = .ok o) (t : FileTree) :
    ((runIn o t).2.tree ≠ t →
      o.listTypes = false ∧ o.parse = none ∧ o.validate = false ∧ o.check = false ∧
        o.stdout = false ∧ ∃ s os outputs, Surveys o t s os ∧
          (∀ x ∈ os, ∀ d ∈ x.diagnostics, d.severity.reaches o.failLevel = false) ∧
          plan o s os = .ok outputs) ∧
    (∀ s os, Surveys o t s os → (∃ x ∈ os, ∃ d ∈ x.diagnostics, d.severity = .error) →
      (runIn o t).2.tree = t) ∧
    ∀ c, (runIn o t).1 = .ok c → o.listTypes = false → o.parse = none →
      ∃ s os, Surveys o t s os ∧
        ((∀ outputs, plan o s os = .ok outputs → Generation.DigestsTellApart t outputs) →
          (FindsFault o t s os → c = 1) ∧ (¬ FindsFault o t s os → c = 0)) := by
  have hchange (h : (runIn o t).2.tree ≠ t) : o.listTypes = false ∧ o.parse = none ∧
      o.validate = false ∧ o.check = false ∧ o.stdout = false ∧
        ∃ s os outputs, Surveys o t s os ∧ fails o os = false ∧ plan o s os = .ok outputs := by
    rcases course_run o t with ⟨hlist, hparse, course⟩ | ⟨-, hsame⟩
    · exact ⟨hlist, hparse, of_tree_ne course h⟩
    · exact absurd hsame h
  refine ⟨fun h => ?_, fun s os survey herror => ?_, fun c hc hlist hparse => ?_⟩
  · obtain ⟨hlist, hparse, hvalidate, hcheck, hstdout, s, os, outputs, survey, hpass, hplan⟩ :=
      hchange h
    refine ⟨hlist, hparse, hvalidate, hcheck, hstdout, s, os, outputs, survey, ?_, hplan⟩
    intro x hx d hd
    exact Bool.eq_false_iff.mpr fun hreach =>
      Bool.eq_false_iff.mp hpass (fails_iff.mpr ⟨x, hx, d, hd, hreach⟩)
  · by_contra hne
    obtain ⟨-, -, -, -, -, s', os', -, survey', hpass, -⟩ := hchange hne
    obtain ⟨rfl, rfl⟩ := survey.unique survey'
    rw [fails_of_error herror] at hpass
    contradiction
  · rcases course_run o t with ⟨-, -, course⟩ | ⟨hother, -⟩
    · rw [hc] at course
      exact code_eq course (check_of_validate ho)
    · simp [hlist, hparse] at hother

/-- A definition file of one row in the working directory. That it has no description is a warning. -/
def oneFile : FileTree where
  entries := [(["w"], .directory),
    (["w", "x_types.def"], .file "DEF_TYPE(\"a\", LITERAL_STRING, NONE, NONE, 0)\n".toUTF8)]
  home := ["w"]

def intoOut : Options := { paths := ["x_types.def"], output := some "/out" }

theorem conduct_run_oneFile :
    Options.ofArguments ["x_types.def", "-o", "/out"] = .ok intoOut ∧
      (runIn intoOut oneFile).2.tree ≠ oneFile ∧ (runIn intoOut oneFile).1 = .ok 0 ∧
      ∃ s os, Surveys intoOut oneFile s os ∧ (∃ outputs, plan intoOut s os = .ok outputs) ∧
        ¬ ∃ x ∈ os, ∃ d ∈ x.diagnostics, d.severity = .error := by
  have ho : Options.ofArguments ["x_types.def", "-o", "/out"] = .ok intoOut := by
    decide +kernel
  have hpage : ((runIn intoOut oneFile).2.tree.get? ["out", "x.md"]).isSome ≠
      (oneFile.get? ["out", "x.md"]).isSome := by
    decide +kernel
  have hchanged : (runIn intoOut oneFile).2.tree ≠ oneFile := fun h => hpage (by rw [h])
  have hcode : (runIn intoOut oneFile).1 = .ok 0 := by
    decide +kernel
  obtain ⟨hchange, herror, -⟩ := conduct_run ho oneFile
  obtain ⟨-, -, -, -, -, s, os, outputs, survey, -, hplan⟩ := hchange hchanged
  exact ⟨ho, hchanged, hcode, s, os, survey, ⟨outputs, hplan⟩,
    fun h => hchanged (herror s os survey h)⟩

end NodeAtlas.Program
