import Mathlib.Algebra.Order.BigOperators.Group.List
import NodeAtlas.Report
import NodeAtlas.Proofs.Definition.Messages
import NodeAtlas.Proofs.Text.Lines

/-!
Lines of reports. A diagnostic is shown with its message at the end and no line feed in front of it,
so it has one line, and one more for each line feed of its message.
-/

namespace NodeAtlas

open Text (lines IsLine)

/-! ## One diagnostic -/

namespace Severity

theorem lineFeed_not_mem_letter (s : Severity) : '\n' ∉ (toString s.letter).toList := by
  cases s <;> decide

end Severity

namespace Diagnostic

theorem lineFeed_not_mem_level (d : Diagnostic) : '\n' ∉ d.level.toList := by
  unfold level
  split <;> decide

/-- The text ends with the message of the diagnostic and has no line feed in front of it. -/
def ShownBy (d : Diagnostic) (shown : String) : Prop :=
  ∃ front : String, shown = front ++ d.message ∧ '\n' ∉ front.toList

theorem ShownBy.count {d : Diagnostic} {shown : String} (h : d.ShownBy shown) :
    shown.toList.count '\n' = d.message.toList.count '\n' := by
  obtain ⟨front, rfl, hfront⟩ := h
  rw [String.toList_append, List.count_append, List.count_eq_zero.mpr hfront, Nat.zero_add]

theorem ShownBy.isLine {d : Diagnostic} {shown : String} (h : d.ShownBy shown)
    (hends : EndsPlain d.message) (hfeed : '\n' ∉ d.message.toList) : IsLine shown.toList := by
  constructor
  · rwa [← List.count_eq_zero, h.count, List.count_eq_zero]
  · obtain ⟨front, rfl, -⟩ := h
    obtain ⟨c, hc, hne⟩ := endsPlain_append hends front
    rw [Option.mem_def.mp hc]
    simpa using hne

/-- Line feeds are in the message only, which does not end with a carriage return. -/
structure Plain (d : Diagnostic) : Prop where
  path : '\n' ∉ d.path.toList
  check : '\n' ∉ d.check.toList
  ends : EndsPlain d.message

theorem Plain.line {d : Diagnostic} (h : d.Plain) : d.ShownBy d.line := by
  refine ⟨s!"{d.path}:{d.position.line}:{d.position.column}: {d.severity.letter}: {d.check}: ",
    rfl, ?_⟩
  simp [toString_eq, h.path, h.check, d.severity.lineFeed_not_mem_letter, lineFeed_not_mem_digits]

theorem Plain.annotation {d : Diagnostic} (h : d.Plain) : d.ShownBy d.annotation := by
  refine ⟨s!"::{d.level} file={d.path},line={d.position.line},col={d.position.column}::" ++
    s!"{d.check}: ", String.append_assoc.symm, ?_⟩
  simp [toString_eq, h.path, h.check, d.lineFeed_not_mem_level, lineFeed_not_mem_digits]

end Diagnostic

theorem Definition.Finding.plain_diagnostic {path : String} (h : '\n' ∉ path.toList) (p : Position)
    (f : Finding) : (f.diagnostic path p).Plain :=
  ⟨h, f.lineFeed_not_mem_check, f.endsPlain_message⟩

/-! ## Reports -/

namespace Report

theorem toList_endLines (ls : List String) :
    (endLines ls).toList = Text.endLines (ls.map String.toList) := by
  rw [endLines, Text.endLines, String.toList_join, List.flatMap_map, List.flatMap_map]
  simp

/-- A report shows diagnostics one after another, with some lines of its own behind them. -/
structure Prints (shown : Diagnostic → String) (ds : List Diagnostic) (own : List (List Char))
    (report : String) : Prop where
  lines : lines report.toList = ds.flatMap (fun d => Text.lines ((shown d).toList ++ ['\n'])) ++ own
  /-- A diagnostic takes one line, and one more for each line feed of its message. -/
  length : ∀ d ∈ ds,
    (Text.lines ((shown d).toList ++ ['\n'])).length = d.message.toList.count '\n' + 1
  /-- Diagnostics that are one line each are the lines of the report. -/
  whole : (∀ d ∈ ds, '\n' ∉ d.message.toList) →
    Text.lines report.toList = ds.map (fun d => (shown d).toList) ++ own
  /-- There is a line for each diagnostic only then. -/
  single : (Text.lines report.toList).length = ds.length + own.length ↔
    ∀ d ∈ ds, '\n' ∉ d.message.toList

theorem lines_ended {ls : List (List Char)} (h : ∀ l ∈ ls, IsLine l) :
    ls.flatMap (fun l => lines (l ++ ['\n'])) = ls := by
  have hself : ∀ l ∈ ls, lines (l ++ ['\n']) = [l] := fun l hl => Text.lines_append (h l hl) []
  rw [List.flatMap_congr hself, List.flatMap_singleton']

theorem prints {shown : Diagnostic → String} {ds : List Diagnostic}
    (hshown : ∀ d ∈ ds, d.ShownBy (shown d)) (hends : ∀ d ∈ ds, EndsPlain d.message)
    {own : List String} (hown : ∀ l ∈ own, IsLine l.toList) :
    Prints shown ds (own.map String.toList) (endLines (ds.map shown ++ own)) := by
  have hlines : lines (endLines (ds.map shown ++ own)).toList =
      ds.flatMap (fun d => lines ((shown d).toList ++ ['\n'])) ++ own.map String.toList := by
    rw [toList_endLines, List.map_append, Text.lines_endLines, List.flatMap_append, List.map_map,
      List.flatMap_map, lines_ended (List.forall_mem_map.mpr hown)]
    rfl
  have heach : ∀ d ∈ ds,
      (lines ((shown d).toList ++ ['\n'])).length = d.message.toList.count '\n' + 1 := by
    intro d hd
    rw [Text.length_lines_ended, (hshown d hd).count]
  refine ⟨hlines, heach, fun hfeed => ?_, ?_⟩
  · have hwhole : ∀ l ∈ ds.map fun d => (shown d).toList, IsLine l :=
      List.forall_mem_map.mpr fun d hd => (hshown d hd).isLine (hends d hd) (hfeed d hd)
    rw [hlines, ← lines_ended hwhole, List.flatMap_map]
  · have htotal : (lines (endLines (ds.map shown ++ own)).toList).length =
        (ds.map fun d => d.message.toList.count '\n').sum + ds.length + own.length := by
      rw [hlines, List.length_append, List.length_flatMap, List.map_congr_left heach,
        List.sum_map_add]
      simp
    have hnone : (ds.map fun d => d.message.toList.count '\n').sum = 0 ↔
        ∀ d ∈ ds, '\n' ∉ d.message.toList := by
      rw [List.sum_eq_zero_iff, List.forall_mem_map]
      exact forall₂_congr fun d hd => List.count_eq_zero
    rw [htotal, List.length_map, ← hnone]
    omega

/-- What is said behind the diagnostics. -/
def summary (ds : List Diagnostic) (files : Nat) : String :=
  counted files "file" ++ " checked, " ++ counted ds.length "diagnostic" ++ " found"

theorem isLine_summary (ds : List Diagnostic) (files : Nat) : IsLine (summary ds files).toList := by
  constructor
  · have hcounted {n : Nat} {noun : String} (h : '\n' ∉ noun.toList) :
        '\n' ∉ (counted n noun).toList := by
      unfold counted
      split <;> simp [toString_eq, lineFeed_not_mem_digits, h]
    simp [summary, hcounted]
  · obtain ⟨c, hc, hne⟩ := endsPlain_append (s := " found") (by decide)
      (counted files "file" ++ " checked, " ++ counted ds.length "diagnostic")
    rw [summary, Option.mem_def.mp hc]
    simpa using hne

end Report

namespace Definition

/-- Reports on what is found in a text. -/
structure Reported (text : List Char) (ds : List Diagnostic) (files : Nat) : Prop where
  people : Report.Prints Diagnostic.line ds [[], (Report.summary ds files).toList]
    (Report.text ds files)
  annotations : Report.Prints Diagnostic.annotation ds [] (Report.github ds)
  /-- Line feeds of messages are those of an invocation, from an argument or from an escape. -/
  origin : ∀ d ∈ ds, '\n' ∈ d.message.toList → FeedsLine (tokens text) d.position

/-- Each diagnostic of a text is one line of the reports, if its message quotes no line feed. -/
theorem reported_parse (path : String) (hpath : '\n' ∉ path.toList) (text : String)
    {ds : List Diagnostic}
    (hds : ds.Perm ((parse path text).diagnostics ++ (parse path text).document.validate))
    (files : Nat) : Reported text.toList ds files := by
  have hfound : ∀ d ∈ ds, ∃ (p : Position) (f : Finding), d = f.diagnostic path p ∧
      ('\n' ∈ f.message.toList → FeedsLine (tokens text.toList) p) :=
    fun d hd => exists_finding (hds.mem_iff.mp hd)
  have hplain : ∀ d ∈ ds, d.Plain := by
    intro d hd
    obtain ⟨p, f, rfl, -⟩ := hfound d hd
    exact f.plain_diagnostic hpath p
  have hends : ∀ d ∈ ds, EndsPlain d.message := fun d hd => (hplain d hd).ends
  refine ⟨?_, ?_, ?_⟩
  · have hown : ∀ l ∈ ["", Report.summary ds files], IsLine l.toList := by
      rw [List.forall_mem_cons, List.forall_mem_singleton]
      exact ⟨⟨List.not_mem_nil, by simp⟩, Report.isLine_summary ds files⟩
    exact Report.prints (fun d hd => (hplain d hd).line) hends hown
  · have hprints := Report.prints (fun d hd => Diagnostic.Plain.annotation (hplain d hd)) hends
      (List.forall_mem_nil fun l : String => IsLine l.toList)
    rwa [List.append_nil] at hprints
  · intro d hd
    obtain ⟨p, f, rfl, horigin⟩ := hfound d hd
    exact horigin

/-- A text with one row, whose node type has a workflow command on its second line. -/
def forgedCommand : String := "DEF_TYPE(\"a\\n::error::b\", LITERAL_STRING, NONE, NONE, 0)\n"

def forgedRow : Row :=
  ⟨"a\n::error::b", "LITERAL_STRING", "NONE", "NONE", "0", none, none, .start⟩

def forgedNotice : Diagnostic :=
  ⟨"t_types.def", .start, .convention, "Def/MissingDescription",
    "\x60a\n::error::b\x60 has no @brief description"⟩

theorem diagnostics_forgedCommand :
    (parse "t_types.def" forgedCommand).diagnostics ++
      (parse "t_types.def" forgedCommand).document.validate = [forgedNotice] := by
  have hparse : parse "t_types.def" forgedCommand = ⟨⟨"t_types.def", {}, [], [forgedRow]⟩, []⟩ := by
    decide +kernel
  have hrows : Document.rows ⟨"t_types.def", {}, [], [forgedRow]⟩ = [forgedRow] :=
    rows_eq_of_perm (by decide) (by decide)
  have hfindings : Document.findings ⟨"t_types.def", {}, [], [forgedRow]⟩ =
      [(.start, .missingDescription forgedRow.rawType)] := by
    rw [Document.findings, hrows]
    decide +kernel
  rw [hparse, List.nil_append, Document.validate, hfindings, List.map_singleton, Diagnostic.sort,
    List.mergeSort_singleton]
  decide +kernel

theorem reported_forgedCommand : Reported forgedCommand.toList [forgedNotice] 1 :=
  reported_parse "t_types.def" (by decide) forgedCommand (.of_eq diagnostics_forgedCommand.symm) 1

/-- The report has a second workflow command, which is the one of the text. -/
theorem command_forged :
    (parse "t_types.def" forgedCommand).diagnostics ++
        (parse "t_types.def" forgedCommand).document.validate = [forgedNotice] ∧
      lines (Report.github [forgedNotice]).toList =
        ["::notice file=t_types.def,line=1,col=0::Def/MissingDescription: \x60a".toList,
          "::error::b\x60 has no @brief description".toList] :=
  ⟨diagnostics_forgedCommand, by decide +kernel⟩

end Definition

end NodeAtlas
