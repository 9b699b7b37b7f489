import Mathlib.Algebra.Ring.Nat
import FieldLint.Proofs.FileEntries

/-!
# Totals

A file report keeps running totals, a report adds up the totals of its files. Both count
diagnostics:

* **Files.** `FileReport.Tallied` says that the totals of a file count the diagnostics of its
  entries. Adding an entry keeps it so, and then the file has issues exactly when an entry has a
  diagnostic.
* **Reports.** The totals of a report are sums over its files, so with tallied files they count the
  diagnostics of all entries of all files (`Report.Tallied.errors_eq`).
* **Merging.** `Report.merge` puts lists one after the other; merging many reports, in groups or all
  at once, gives the same (`merged_map_merged`).
-/

namespace FieldLint

namespace Diagnostic

/-- A diagnostic is an error or a warning, and not both. -/
theorem isWarning_eq_not_isError (d : Diagnostic) : d.isWarning = !d.isError := by
  rcases d with ⟨severity, _, _, _⟩
  cases severity <;> rfl

/-- Every diagnostic is an error or a warning, and not both. -/
theorem countP_isError_add_countP_isWarning (ds : List Diagnostic) :
    ds.countP isError + ds.countP isWarning = ds.length := by
  have hwarnings : ds.countP isWarning = ds.countP (¬ isError ·) :=
    List.countP_congr fun d _ => by simp [isWarning_eq_not_isError]
  rw [List.length_eq_countP_add_countP isError, hwarnings]

end Diagnostic

/-! ## Files -/

namespace FileReport

/-- What was found in a file, entry after entry. -/
def diagnostics (r : FileReport) : List Diagnostic :=
  r.entries.flatMap Entry.diagnostics

/-- The totals count the diagnostics of the entries. -/
structure Tallied (r : FileReport) : Prop where
  errors_eq : r.errors = r.diagnostics.countP Diagnostic.isError
  warnings_eq : r.warnings = r.diagnostics.countP Diagnostic.isWarning

theorem tallied_empty (filePath : Text) : (empty filePath).Tallied :=
  ⟨rfl, rfl⟩

/-- **Step.** Adding an entry keeps the counts right. -/
theorem Tallied.add {r : FileReport} (h : r.Tallied) (e : Entry) : (r.add e).Tallied := by
  have hdiagnostics : (r.add e).diagnostics = r.diagnostics ++ e.diagnostics := by
    simp [diagnostics, FileReport.add]
  refine ⟨?_, ?_⟩
  · rw [hdiagnostics, List.countP_append, ← h.errors_eq]
    rfl
  · rw [hdiagnostics, List.countP_append, ← h.warnings_eq]
    rfl

/-- **Run.** A report that is made of entries counts them. -/
theorem tallied_ofEntries (filePath : Text) (es : List Entry) :
    (ofEntries filePath es).Tallied := by
  rw [ofEntries_eq]
  exact ⟨rfl, rfl⟩

/-- The report of a module counts what it holds. -/
theorem tallied_lintModule (module : Signature) (path : Text) : (lintModule module path).Tallied :=
  tallied_ofEntries path _

theorem diagnostics_eq_nil_iff {r : FileReport} :
    r.diagnostics = [] ↔ ∀ e ∈ r.entries, e.diagnostics = [] :=
  List.flatMap_eq_nil_iff

/-- There are issues exactly if there are diagnostics. -/
theorem Tallied.hasIssues_eq {r : FileReport} (h : r.Tallied) :
    r.hasIssues = !r.diagnostics.isEmpty := by
  rw [hasIssues, h.errors_eq, h.warnings_eq, Diagnostic.countP_isError_add_countP_isWarning]
  cases r.diagnostics <;> simp

/-- A file has issues exactly when one of its entries has a diagnostic. -/
theorem Tallied.hasIssues_iff {r : FileReport} (h : r.Tallied) :
    r.hasIssues = true ↔ ∃ e ∈ r.entries, e.diagnostics ≠ [] := by
  rw [h.hasIssues_eq, Bool.not_eq_true', List.isEmpty_eq_false_iff, ne_eq, diagnostics_eq_nil_iff]
  simp

end FileReport

/-! ## Reports -/

namespace Report

/-- What was found in the files, file after file. -/
def diagnostics (r : Report) : List Diagnostic :=
  r.files.flatMap FileReport.diagnostics

/-- The errors of a report are those of its files. -/
theorem errors_eq_sum (r : Report) : r.errors = (r.files.map FileReport.errors).sum := by
  rw [errors, List.sum, List.foldr_map]

/-- The warnings of a report are those of its files. -/
theorem warnings_eq_sum (r : Report) : r.warnings = (r.files.map FileReport.warnings).sum := by
  rw [warnings, List.sum, List.foldr_map]

/-- A report has issues exactly when its totals are not both zero. -/
theorem hasIssues_iff (r : Report) : r.hasIssues = true ↔ 0 < r.errors + r.warnings := by
  rw [hasIssues, errors_eq_sum, warnings_eq_sum]
  induction r.files with
  | nil => simp
  | cons file rest ih =>
    have hfile : file.hasIssues = true ↔ 0 < file.errors + file.warnings := by
      simp [FileReport.hasIssues]
    rw [List.any_cons, Bool.or_eq_true, ih, hfile, List.map_cons, List.map_cons, List.sum_cons,
      List.sum_cons]
    omega

/-- The totals of every file count the diagnostics of its entries. -/
def Tallied (r : Report) : Prop :=
  ∀ file ∈ r.files, file.Tallied

/-- The number of errors is that of the diagnostics that are errors. -/
theorem Tallied.errors_eq {r : Report} (h : r.Tallied) :
    r.errors = r.diagnostics.countP Diagnostic.isError := by
  rw [errors_eq_sum, diagnostics, List.countP_flatMap]
  exact congrArg List.sum (List.map_congr_left fun file hfile => (h file hfile).errors_eq)

theorem Tallied.warnings_eq {r : Report} (h : r.Tallied) :
    r.warnings = r.diagnostics.countP Diagnostic.isWarning := by
  rw [warnings_eq_sum, diagnostics, List.countP_flatMap]
  exact congrArg List.sum (List.map_congr_left fun file hfile => (h file hfile).warnings_eq)

/-! ## Merging -/

/-- Reports merged in order into a new one. -/
def merged (rs : List Report) : Report :=
  rs.foldl merge empty

/-- Merging reports one after the other appends their lists. -/
theorem foldl_merge (rs : List Report) (r : Report) :
    rs.foldl merge r =
      ⟨r.files ++ rs.flatMap files, r.unanalyzable ++ rs.flatMap unanalyzable⟩ := by
  induction rs generalizing r with
  | nil => simp
  | cons s rest ih => simp [ih, merge]

theorem merged_eq (rs : List Report) :
    merged rs = ⟨rs.flatMap files, rs.flatMap unanalyzable⟩ :=
  foldl_merge rs empty

/-- Merging groups first and then what they give is merging all at once. -/
theorem merged_map_merged (groups : List (List Report)) :
    merged (groups.map merged) = merged groups.flatten := by
  simp only [merged_eq, List.flatMap_def, List.map_flatten, List.flatten_flatten, List.map_map,
    Function.comp_def]

end Report

end FieldLint
