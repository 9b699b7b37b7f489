import FieldLint.Lint.Batch
import FieldLint.Proofs.Totals
import FieldLint.Report.Layout

/-!
# Batches

A batch adds one file after the other to a report. With a front end that has its grammar nothing
stops it, and what a file adds depends on the file alone: the file's report, or one more file that
could not be analysed (`shareOf`).

So the report of a batch is the merge of the shares of its files (`lintFiles_loaded`), and a batch
that is cut into parts, each linted on its own, gives the same report as the whole
(`batchReport_flatten`).
-/

namespace FieldLint

/-! ## What a file adds -/

/-- What linting one file adds to the report of a batch. -/
def Report.ofResult (path : Path) : Except LintError FileReport → Report
  | .ok file => ⟨[file], []⟩
  | .error e => ⟨[], e.reason?.toList.map (⟨path.text, ·⟩)⟩

/-- Only a missing grammar has no reason to be recorded: it stops the batch. -/
theorem LintError.reason?_eq_none_iff {e : LintError} : e.reason? = none ↔ e = .notLoaded := by
  cases e <;> simp [reason?]

/-- Unless the grammar is missing, recording a file merges what it adds. -/
theorem Report.record_eq_merge (r : Report) (path : Path) {result : Except LintError FileReport}
    (h : result ≠ .error .notLoaded) :
    r.record path result = .ok (r.merge (ofResult path result)) := by
  cases result with
  | ok file => simp [record, ofResult, merge, add]
  | error e =>
    rcases hreason : e.reason? with _ | reason
    · exact absurd (congrArg Except.error (LintError.reason?_eq_none_iff.mp hreason)) h
    · simp [record, ofResult, merge, addUnanalyzable, hreason]

/-- With its grammar, a front end is never the reason why a file cannot be linted. -/
theorem lintFile_loaded_ne (parse : Text → Tree) (fs : FileSystem) (path : Path) :
    lintFile ⟨some parse⟩ fs path ≠ .error .notLoaded := by
  cases hread : fs.read path with
  | error e => simp [lintFile, hread]
  | ok source =>
    cases hmodule : extractModule source path.text (parse source) with
    | error fault => simp [lintFile, hread, lintSource, extractSource, hmodule]
    | ok module => simp [lintFile, hread, lintSource, extractSource, hmodule]

/-- The share of a file in a batch. -/
def shareOf (parse : Text → Tree) (fs : FileSystem) (path : Path) : Report :=
  .ofResult path (lintFile ⟨some parse⟩ fs path)

/-! ## Whole batches -/

/-- The report of a batch: the shares of its files, merged. -/
def batchReport (parse : Text → Tree) (fs : FileSystem) (paths : List Path) : Report :=
  .merged (paths.map (shareOf parse fs))

/-- With a grammar, a batch merges the shares of its files into the report it starts with. -/
theorem lintFilesInto_loaded (parse : Text → Tree) (fs : FileSystem) (paths : List Path)
    (r : Report) :
    lintFilesInto ⟨some parse⟩ fs r paths =
      .ok ((paths.map (shareOf parse fs)).foldl .merge r) := by
  induction paths generalizing r with
  | nil => rfl
  | cons path rest ih =>
    rw [lintFilesInto, Report.record_eq_merge r path (lintFile_loaded_ne parse fs path)]
    exact ih (r.merge (shareOf parse fs path))

/-- With a grammar, a batch ends in its report. -/
theorem lintFiles_loaded (parse : Text → Tree) (fs : FileSystem) (paths : List Path) :
    lintFiles ⟨some parse⟩ fs paths = .ok (batchReport parse fs paths) :=
  lintFilesInto_loaded parse fs paths .empty

/-- A batch at once is its parts, merged. -/
theorem batchReport_flatten (parse : Text → Tree) (fs : FileSystem) (parts : List (List Path)) :
    batchReport parse fs parts.flatten = .merged (parts.map (batchReport parse fs)) := by
  have hmerged := Report.merged_map_merged (parts.map (List.map (shareOf parse fs)))
  rw [List.map_map, ← List.map_flatten] at hmerged
  exact hmerged.symm

/-- **Batches can be split.** However a list of files is cut into parts, every part can be linted,
so can the whole list, and the reports of the parts, merged in order into a new one, have the same
files and the same files that could not be analysed, in the same order, the same totals and the same
print in every style as the report of the whole. -/
theorem lintFiles_split (parse : Text → Tree) (fs : FileSystem) (parts : List (List Path)) :
    ∃ (reports : List Report) (whole : Report),
      parts.map (lintFiles ⟨some parse⟩ fs) = reports.map .ok ∧
      lintFiles ⟨some parse⟩ fs parts.flatten = .ok whole ∧
      let merged := reports.foldl Report.merge .empty
      merged.files = whole.files ∧ merged.unanalyzable = whole.unanalyzable ∧
        merged.errors = whole.errors ∧ merged.warnings = whole.warnings ∧
        merged.hasIssues = whole.hasIssues ∧
        ∀ style, merged.print style = whole.print style := by
  have hparts : parts.map (lintFiles ⟨some parse⟩ fs) =
      (parts.map (batchReport parse fs)).map .ok := by
    rw [List.map_map]
    exact List.map_congr_left fun paths _ => lintFiles_loaded parse fs paths
  have hmerged : (parts.map (batchReport parse fs)).foldl Report.merge .empty =
      batchReport parse fs parts.flatten := (batchReport_flatten parse fs parts).symm
  refine ⟨parts.map (batchReport parse fs), batchReport parse fs parts.flatten, hparts,
    lintFiles_loaded parse fs parts.flatten, ?_⟩
  rw [hmerged]
  exact ⟨rfl, rfl, rfl, rfl, rfl, fun _ => rfl⟩

end FieldLint
