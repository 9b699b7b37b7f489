import FieldLint.Proofs.Totals
import FieldLint.Report.Layout

/-!
# What a printed report shows

Three things decide which lines a report has: a file is shown if its totals are not both zero, an
entry if it is a module or has diagnostics, the summary if there are lines at all. Where the totals
count diagnostics, none of them hides anything:

* **Nothing is lost.** The diagnostics of the lines are those of the entries
  (`Report.Tallied.filterMap_body`), so there are lines exactly when there are diagnostics.
* **The summary counts lines.** The totals of a report are the numbers of lines that show an error
  or a warning (`Report.Tallied.errors_eq_countP_body`).
* **Every diagnostic stands under its header**, with diagnostics of the same entry between them at
  most (`Report.Tallied.body_eq_of_mem`).
-/

namespace FieldLint

namespace ReportLine

/-- The diagnostic that a line shows. -/
def diagnostic? : ReportLine → Option Diagnostic
  | diagnostic d => some d
  | _ => none

/-- The line shows a diagnostic. -/
def isDiagnostic (line : ReportLine) : Bool :=
  line.diagnostic?.isSome

/-- The line belongs to a file and not to the summary. -/
def isOfFile : ReportLine → Bool
  | divider => true
  | path _ => true
  | header _ => true
  | diagnostic _ => true
  | _ => false

@[simp]
theorem filterMap_map_diagnostic (ds : List Diagnostic) :
    (ds.map diagnostic).filterMap diagnostic? = ds := by
  rw [List.filterMap_map]
  exact List.filterMap_some

/-- Leaving out what shows no diagnostic leaves the diagnostics in their format. -/
theorem map_print_filter_isDiagnostic (style : Style) (lines : List ReportLine) :
    (lines.filter isDiagnostic).map (print style) =
      (lines.filterMap diagnostic?).map (Diagnostic.format style) := by
  induction lines with
  | nil => rfl
  | cons line rest ih =>
    cases line with
    | diagnostic d => exact congrArg (d.format style :: ·) ih
    | divider | path | header | summary | errors | warnings => exact ih

end ReportLine

/-! ## Entries and files -/

/-- The diagnostics in the lines of an entry are those of the entry. -/
theorem Entry.filterMap_layout (e : Entry) :
    e.layout.filterMap ReportLine.diagnostic? = e.diagnostics := by
  rw [layout]
  split
  · exact ReportLine.filterMap_map_diagnostic e.diagnostics
  · next h =>
    have hnone : e.diagnostics = [] := by simp_all
    rw [hnone]
    rfl

/-- An entry with diagnostics is a header and a line for each. -/
theorem Entry.layout_of_ne_nil {e : Entry} (h : e.diagnostics ≠ []) :
    e.layout = .header e.declaration :: e.diagnostics.map .diagnostic := by
  rw [layout, if_pos]
  simp [h]

theorem Entry.isOfFile_of_mem_layout {e : Entry} {line : ReportLine} (h : line ∈ e.layout) :
    line.isOfFile = true := by
  rw [layout] at h
  split at h
  · rcases List.mem_cons.mp h with rfl | h
    · rfl
    · obtain ⟨d, -, rfl⟩ := List.mem_map.mp h
      rfl
  · cases h

namespace FileReport

variable {r : FileReport}

/-- A file without diagnostics has no lines. -/
theorem Tallied.layout_of_diagnostics_eq_nil (htallied : r.Tallied) (h : r.diagnostics = []) :
    r.layout = [] := by
  rw [layout, htallied.hasIssues_eq, h]
  rfl

/-- A file with diagnostics gets a divider, its path and its entries. -/
theorem Tallied.layout_of_diagnostics_ne_nil (htallied : r.Tallied) (h : r.diagnostics ≠ []) :
    r.layout = .divider :: .path r.filePath :: r.entries.flatMap Entry.layout := by
  rw [layout, htallied.hasIssues_eq, if_pos]
  simpa using h

theorem filterMap_flatMap_layout (es : List Entry) :
    (es.flatMap Entry.layout).filterMap ReportLine.diagnostic? = es.flatMap Entry.diagnostics := by
  rw [List.filterMap_flatMap]
  exact congrArg es.flatMap (funext Entry.filterMap_layout)

/-- The diagnostics in the lines of a file are those of the file. -/
theorem Tallied.filterMap_layout (htallied : r.Tallied) :
    r.layout.filterMap ReportLine.diagnostic? = r.diagnostics := by
  by_cases h : r.diagnostics = []
  · rw [htallied.layout_of_diagnostics_eq_nil h, h]
    rfl
  · rw [htallied.layout_of_diagnostics_ne_nil h]
    exact filterMap_flatMap_layout r.entries

theorem isOfFile_of_mem_layout {line : ReportLine} (h : line ∈ r.layout) :
    line.isOfFile = true := by
  rw [layout] at h
  split at h
  · rcases List.mem_cons.mp h with rfl | h
    · rfl
    · rcases List.mem_cons.mp h with rfl | h
      · rfl
      · obtain ⟨e, -, he⟩ := List.mem_flatMap.mp h
        exact Entry.isOfFile_of_mem_layout he
  · cases h

/-- The lines of a file around a diagnostic: the header of its entry, the diagnostics of the entry
before it, itself. What is above shows the diagnostics of the entries above. -/
theorem Tallied.layout_eq_of_mem (htallied : r.Tallied) {above below : List Entry} {e : Entry}
    {ds ds' : List Diagnostic} {d : Diagnostic} (hr : r.entries = above ++ e :: below)
    (he : e.diagnostics = ds ++ d :: ds') :
    ∃ before after, r.layout = before ++ .header e.declaration :: ds.map .diagnostic ++
        .diagnostic d :: after ∧
      before.filterMap ReportLine.diagnostic? = above.flatMap Entry.diagnostics := by
  have hentry : e.diagnostics ≠ [] := by simp [he]
  have hfile : r.diagnostics ≠ [] := by simp [diagnostics, hr, hentry]
  refine ⟨.divider :: .path r.filePath :: above.flatMap Entry.layout,
    ds'.map .diagnostic ++ below.flatMap Entry.layout, ?_, ?_⟩
  · rw [htallied.layout_of_diagnostics_ne_nil hfile, hr, List.flatMap_append, List.flatMap_cons,
      Entry.layout_of_ne_nil hentry, he]
    simp
  · exact filterMap_flatMap_layout above

end FileReport

/-! ## Reports -/

namespace Report

/-- The lines of all files. -/
def body (r : Report) : List ReportLine :=
  r.files.flatMap FileReport.layout

/-- A report is its body and a summary, or nothing if the body is empty. -/
theorem layout_eq (r : Report) : r.layout = if r.body = [] then [] else r.body ++ r.summary := by
  rw [layout, ← body]
  cases r.body <;> rfl

theorem isOfFile_of_mem_body {r : Report} {line : ReportLine} (h : line ∈ r.body) :
    line.isOfFile = true := by
  obtain ⟨file, -, hfile⟩ := List.mem_flatMap.mp h
  exact FileReport.isOfFile_of_mem_layout hfile

/-- The body in print is what the files print, one after the other. -/
theorem map_print_body (style : Style) (r : Report) :
    r.body.map (ReportLine.print style) = r.files.flatMap (FileReport.print style) := by
  rw [body, List.map_flatMap]
  rfl

variable {r : Report}

theorem filterMap_flatMap_layout {files : List FileReport} (h : ∀ file ∈ files, file.Tallied) :
    (files.flatMap FileReport.layout).filterMap ReportLine.diagnostic? =
      files.flatMap FileReport.diagnostics := by
  rw [List.filterMap_flatMap]
  exact List.flatMap_congr fun file hfile => (h file hfile).filterMap_layout

/-- The lines of the files show the diagnostics of the files. -/
theorem Tallied.filterMap_body (h : r.Tallied) :
    r.body.filterMap ReportLine.diagnostic? = r.diagnostics :=
  filterMap_flatMap_layout h

/-- The body is empty exactly if there is no diagnostic. -/
theorem Tallied.body_eq_nil_iff (h : r.Tallied) : r.body = [] ↔ r.diagnostics = [] := by
  refine ⟨fun hbody => ?_, fun hnone => ?_⟩
  · rw [← h.filterMap_body, hbody]
    rfl
  · refine List.flatMap_eq_nil_iff.mpr fun file hfile => ?_
    exact (h file hfile).layout_of_diagnostics_eq_nil (List.flatMap_eq_nil_iff.mp hnone file hfile)

theorem diagnostics_eq_nil_iff :
    r.diagnostics = [] ↔ ∀ file ∈ r.files, ∀ e ∈ file.entries, e.diagnostics = [] := by
  rw [diagnostics, List.flatMap_eq_nil_iff]
  exact forall₂_congr fun _ _ => FileReport.diagnostics_eq_nil_iff

/-- Counting lines of the body is counting diagnostics. -/
theorem Tallied.countP_body (h : r.Tallied) (p : Diagnostic → Bool) :
    r.body.countP (·.diagnostic?.any p) = r.diagnostics.countP p := by
  rw [← h.filterMap_body, List.countP_filterMap]
  refine List.countP_congr fun line _ => ?_
  cases line.diagnostic? <;> simp

/-- The errors of a report are as many as the lines that show one. -/
theorem Tallied.errors_eq_countP_body (h : r.Tallied) :
    r.errors = r.body.countP (·.diagnostic?.any Diagnostic.isError) := by
  rw [h.errors_eq, h.countP_body]

/-- The warnings of a report are as many as the lines that show one. -/
theorem Tallied.warnings_eq_countP_body (h : r.Tallied) :
    r.warnings = r.body.countP (·.diagnostic?.any Diagnostic.isWarning) := by
  rw [h.warnings_eq, h.countP_body]

/-- The lines of a report around a diagnostic. What is above shows the diagnostics of the files and
entries above. -/
theorem Tallied.body_eq_of_mem (h : r.Tallied) {files files' : List FileReport} {file : FileReport}
    {above below : List Entry} {e : Entry} {ds ds' : List Diagnostic} {d : Diagnostic}
    (hr : r.files = files ++ file :: files') (hfile : file.entries = above ++ e :: below)
    (he : e.diagnostics = ds ++ d :: ds') :
    ∃ before after, r.body = before ++ .header e.declaration :: ds.map .diagnostic ++
        .diagnostic d :: after ∧
      before.filterMap ReportLine.diagnostic? =
        files.flatMap FileReport.diagnostics ++ above.flatMap Entry.diagnostics := by
  rw [Tallied, hr, List.forall_mem_append, List.forall_mem_cons] at h
  obtain ⟨hfiles, htallied, -⟩ := h
  obtain ⟨before, after, hlayout, hbefore⟩ := htallied.layout_eq_of_mem hfile he
  refine ⟨files.flatMap FileReport.layout ++ before,
    after ++ files'.flatMap FileReport.layout, ?_, ?_⟩
  · rw [body, hr, List.flatMap_append, List.flatMap_cons, hlayout]
    simp
  · rw [List.filterMap_append, hbefore, filterMap_flatMap_layout hfiles]

/-- The reports that can be built from reports of files, which are built entry by entry. -/
inductive Built : Report → Prop
  | empty : Built .empty
  | add {r : Report} (filePath : Text) (entries : List Entry) :
    Built r → Built (r.add (.ofEntries filePath entries))
  | addUnanalyzable {r : Report} (unit : Unanalyzable) : Built r → Built (r.addUnanalyzable unit)
  | merge {r s : Report} : Built r → Built s → Built (r.merge s)

/-- A report that is built counts what it holds. -/
theorem Built.tallied (h : r.Built) : r.Tallied := by
  induction h with
  | empty => exact fun _ hfile => absurd hfile List.not_mem_nil
  | add filePath entries _ ih =>
    exact List.forall_mem_append.mpr
      ⟨ih, List.forall_mem_singleton.mpr (FileReport.tallied_ofEntries filePath entries)⟩
  | addUnanalyzable unit _ ih => exact ih
  | merge _ _ ihr ihs => exact List.forall_mem_append.mpr ⟨ihr, ihs⟩

/-- **A printed report says what was found.** There is nothing to print exactly when no entry of a
file has a diagnostic. Otherwise the lines of the files, which are the same in every style, are
followed by the four lines of the summary, and the numbers there are those of the lines that show an
error or a warning. Without dividers, paths and headers the lines are all diagnostics of all entries
of all files, in order. Each of them comes after the header of its own entry, with diagnostics of
this entry between them only. A file without diagnostics has no lines. -/
theorem print_of_built (h : r.Built) :
    ∃ lines : List ReportLine,
      (∀ style, r.print style =
        if lines = [] then []
        else lines.map (ReportLine.print style) ++
          [style.divider (List.replicate 80 '*'), style.summary "SUMMARY".toList,
            "errors: ".toList ++
              Text.ofNat (lines.countP (·.diagnostic?.any Diagnostic.isError)),
            "warnings: ".toList ++
              Text.ofNat (lines.countP (·.diagnostic?.any Diagnostic.isWarning))]) ∧
      (∀ style, r.print style = [] ↔
        ∀ file ∈ r.files, ∀ e ∈ file.entries, e.diagnostics = []) ∧
      (∀ line ∈ lines, line.isOfFile = true) ∧
      (∀ style, (lines.filter ReportLine.isDiagnostic).map (ReportLine.print style) =
        (r.files.flatMap fun file => file.entries.flatMap Entry.diagnostics).map
          (Diagnostic.format style)) ∧
      (∀ files file files' above e below ds d ds', r.files = files ++ file :: files' →
        file.entries = above ++ e :: below → e.diagnostics = ds ++ d :: ds' →
        ∃ before after, lines = before ++ .header e.declaration :: ds.map .diagnostic ++
            .diagnostic d :: after ∧
          before.filterMap ReportLine.diagnostic? =
            files.flatMap (fun file => file.entries.flatMap Entry.diagnostics) ++
              above.flatMap Entry.diagnostics) ∧
      (∀ style, lines.map (ReportLine.print style) = r.files.flatMap (FileReport.print style)) ∧
      ∀ file ∈ r.files, (∀ e ∈ file.entries, e.diagnostics = []) →
        ∀ style, file.print style = [] := by
  have htallied := h.tallied
  have hprint : ∀ style, r.print style =
      if r.body = [] then []
      else (r.body ++ r.summary).map (ReportLine.print style) := by
    intro style
    rw [print, layout_eq]
    split <;> rfl
  refine ⟨r.body, ?print, ?empty, fun _ => isOfFile_of_mem_body, ?diagnostics,
    fun _ _ _ _ _ _ _ _ _ => htallied.body_eq_of_mem, (map_print_body · r), ?clean⟩
  case print =>
    intro style
    rw [hprint, List.map_append, summary, htallied.errors_eq_countP_body,
      htallied.warnings_eq_countP_body]
    rfl
  case empty =>
    intro style
    rw [hprint, ← diagnostics_eq_nil_iff, ← htallied.body_eq_nil_iff]
    simp +contextual [summary]
  case diagnostics =>
    intro style
    rw [ReportLine.map_print_filter_isDiagnostic, htallied.filterMap_body]
    rfl
  case clean =>
    intro file hfile hnone style
    have hlayout := (htallied file hfile).layout_of_diagnostics_eq_nil
      (FileReport.diagnostics_eq_nil_iff.mpr hnone)
    rw [FileReport.print, hlayout]
    rfl

/-- A file that is fine leaves no lines. One with an undocumented class is shown with its module as
often as the report holds it. -/
theorem print_of_built_boxes :
    let module (path : Text) : Declaration := ⟨.module path, path, 0, some "Boxes.".toList, false⟩
    let box : Declaration := ⟨.classdef, "Box".toList, 3, none, false⟩
    let fine := FileReport.ofEntries "a.py".toList [⟨module "a.py".toList, []⟩]
    let found := FileReport.ofEntries "b.py".toList [⟨module "b.py".toList, []⟩,
      ⟨box, [Finding.missingClassDocstring.report box]⟩]
    let r := (empty.add fine).add found
    (r.merge r).Built ∧ fine.print .plain = [] ∧ (r.merge r).print .plain ≠ [] ∧
      (r.merge r).print .plain = [List.replicate 80 '*', "b.py".toList,
        "module: b.py".toList, "3: class: Box".toList, "  E: Docstring for class is missing".toList,
        List.replicate 80 '*', "b.py".toList,
        "module: b.py".toList, "3: class: Box".toList, "  E: Docstring for class is missing".toList,
        List.replicate 80 '*', "SUMMARY".toList, "errors: 2".toList,
        "warnings: 0".toList] := by
  intro module box fine found r
  have hr : r.Built := .add _ _ (.add _ _ .empty)
  obtain ⟨-, -, hempty, -, -, -, -, hclean⟩ := print_of_built (hr.merge hr)
  have hfine : fine ∈ (r.merge r).files := List.mem_cons_self
  refine ⟨hr.merge hr, hclean fine hfine (by decide) .plain, fun hnone => ?_, by decide⟩
  have hbox := (hempty .plain).mp hnone found (by decide) _
    (List.mem_cons_of_mem _ List.mem_cons_self)
  cases hbox

end Report

end FieldLint
