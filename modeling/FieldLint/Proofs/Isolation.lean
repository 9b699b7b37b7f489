import Mathlib.Data.List.Forall2
import FieldLint.Proofs.Batches
import FieldLint.Proofs.Extraction

/-!
# A file that fails concerns no other file

Linting a file can fail in three ways, and a batch treats them apart.

* **Files** — with a grammar, a file is linted, or it cannot be read, or the tree of its source has
  an error. `LintsTo` says which, from the file and the tree alone, and every file has exactly one
  outcome (`existsUnique_lintsTo`).
* **Batches** — a batch is the list of the outcomes of its files (`batchReport_of_lintsTo`), sorted
  into reports and files that could not be analysed.
* **No grammar** — a file is read before the front end is asked. So the first file that can be read
  stops the batch, and files that cannot be read are recorded as ever
  (`lintFilesInto_unloaded_eq_error_iff`).
-/

namespace FieldLint

/-! ## Single files -/

/-- What comes of a file in a batch, with `parse` for the grammar. -/
inductive LintsTo (parse : Text → Tree) (fs : FileSystem) (path : Path) :
    FileReport ⊕ Unanalyzable → Prop
  /-- the file is read, its tree has no error, and its report is the one it gets on its own -/
  | linted {source : Text} {file : FileReport} (hread : fs.read path = .ok source)
    (htree : ∀ n ∈ (parse source).preorder, n.kind ≠ "ERROR")
    (hfile : lintFile ⟨some parse⟩ fs path = .ok file) (hpath : file.filePath = path.text) :
    LintsTo parse fs path (.inl file)
  /-- the file cannot be read -/
  | unreadable {e : ReadError} (hread : fs.read path = .error e) :
    LintsTo parse fs path (.inr ⟨path.text, e.message⟩)
  /-- the tree of the source has an error, first on the line of `error` -/
  | faulty {source : Text} {error : Tree} {errors : List Tree} (hread : fs.read path = .ok source)
    (herrors : (parse source).findAll "ERROR" = error :: errors) :
    LintsTo parse fs path
      (.inr ⟨path.text, "syntax error at line ".toList ++ Text.ofNat error.line⟩)

/-- A search for a kind finds nothing exactly if no node is of that kind. -/
theorem Tree.findAll_eq_nil_iff {t : Tree} {kind : String} :
    t.findAll kind = [] ↔ ∀ n ∈ t.preorder, n.kind ≠ kind := by
  simp [findAll, List.filter_eq_nil_iff]

section LintFile

variable {parse : Text → Tree} {fs : FileSystem} {path : Path} {source : Text}

/-- A file that cannot be read is not linted, grammar or not. -/
theorem lintFile_of_unreadable (frontend : Frontend) {e : ReadError}
    (hread : fs.read path = .error e) :
    lintFile frontend fs path = .error (.unreadable e) := by
  simp [lintFile, hread]

/-- Without a grammar, a file that can be read is not linted. -/
theorem lintFile_unloaded (hread : fs.read path = .ok source) :
    lintFile .unloaded fs path = .error .notLoaded := by
  simp [lintFile, hread, lintSource, extractSource, Frontend.unloaded]

/-- A file whose tree has an error is not linted; the first error tells the line. -/
theorem lintFile_of_errors {error : Tree} {errors : List Tree} (hread : fs.read path = .ok source)
    (herrors : (parse source).findAll "ERROR" = error :: errors) :
    lintFile ⟨some parse⟩ fs path = .error (.unanalyzable path.text ⟨error.line⟩) := by
  simp [lintFile, hread, lintSource, extractSource, extractModule, herrors]

/-- A file that can be read and whose tree has no error is linted. -/
theorem exists_lintFile (hread : fs.read path = .ok source)
    (htree : ∀ n ∈ (parse source).preorder, n.kind ≠ "ERROR") :
    ∃ file, lintFile ⟨some parse⟩ fs path = .ok file ∧ file.filePath = path.text := by
  obtain ⟨module, hmodule, hpath⟩ : ∃ module,
      extractModule source path.text (parse source) = .ok module ∧ module.filePath = path.text :=
    ⟨_, Tree.extractModule_of_no_error htree, rfl⟩
  refine ⟨lintModule module module.filePath, ?_, ?_⟩
  · simp [lintFile, hread, lintSource, extractSource, hmodule]
  · rw [lintModule, FileReport.ofEntries_eq, hpath]

end LintFile

section LintsTo

variable {parse : Text → Tree} {fs : FileSystem} {path : Path}
  {outcome outcome' : FileReport ⊕ Unanalyzable}

theorem exists_lintsTo (parse : Text → Tree) (fs : FileSystem) (path : Path) :
    ∃ outcome, LintsTo parse fs path outcome := by
  rcases hread : fs.read path with e | source
  · exact ⟨_, .unreadable hread⟩
  · rcases herrors : (parse source).findAll "ERROR" with _ | ⟨error, errors⟩
    · have htree := Tree.findAll_eq_nil_iff.mp herrors
      obtain ⟨file, hfile, hpath⟩ := exists_lintFile hread htree
      exact ⟨_, .linted hread htree hfile hpath⟩
    · exact ⟨_, .faulty hread herrors⟩

/-- What a file adds to the report of a batch is its outcome. -/
theorem LintsTo.shareOf_eq (h : LintsTo parse fs path outcome) :
    shareOf parse fs path = ⟨outcome.getLeft?.toList, outcome.getRight?.toList⟩ := by
  cases h with
  | linted hread htree hfile hpath =>
    rw [shareOf, hfile]
    rfl
  | unreadable hread =>
    rw [shareOf, lintFile_of_unreadable _ hread]
    rfl
  | faulty hread herrors =>
    rw [shareOf, lintFile_of_errors hread herrors]
    rfl

/-- A file has one outcome only: its share in a batch tells which. -/
theorem LintsTo.unique (h : LintsTo parse fs path outcome) (h' : LintsTo parse fs path outcome') :
    outcome = outcome' := by
  have hshare := h.shareOf_eq.symm.trans h'.shareOf_eq
  rcases outcome with file | u <;> rcases outcome' with file' | u' <;> simp_all

/-- Every file has exactly one outcome. -/
theorem existsUnique_lintsTo (parse : Text → Tree) (fs : FileSystem) (path : Path) :
    ∃! outcome, LintsTo parse fs path outcome := by
  obtain ⟨outcome, h⟩ := exists_lintsTo parse fs path
  exact ⟨outcome, h, fun outcome' h' => h'.unique h⟩

/-- A file is not analysed exactly when it cannot be read or its tree has an error somewhere. -/
theorem exists_lintsTo_inr_iff :
    (∃ u, LintsTo parse fs path (.inr u)) ↔
      (∃ e, fs.read path = .error e) ∨
        ∃ source, fs.read path = .ok source ∧ ∃ n ∈ (parse source).preorder, n.kind = "ERROR" := by
  constructor
  · rintro ⟨u, h⟩
    cases h with
    | unreadable hread => exact .inl ⟨_, hread⟩
    | @faulty source error errors hread herrors =>
      have hmem : error ∈ (parse source).findAll "ERROR" := by rw [herrors]; simp
      obtain ⟨hnode, hkind⟩ := List.mem_filter.mp hmem
      exact .inr ⟨source, hread, error, hnode, by simpa using hkind⟩
  · rintro (⟨e, hread⟩ | ⟨source, hread, n, hn, hkind⟩)
    · exact ⟨_, .unreadable hread⟩
    · rcases herrors : (parse source).findAll "ERROR" with _ | ⟨error, errors⟩
      · exact absurd hkind (Tree.findAll_eq_nil_iff.mp herrors n hn)
      · exact ⟨_, .faulty hread herrors⟩

end LintsTo

/-! ## Batches -/

section Batch

variable {parse : Text → Tree} {fs : FileSystem} {paths : List Path}
  {outcomes : List (FileReport ⊕ Unanalyzable)}

theorem exists_forall₂_lintsTo (parse : Text → Tree) (fs : FileSystem) (paths : List Path) :
    ∃ outcomes, List.Forall₂ (LintsTo parse fs) paths outcomes := by
  induction paths with
  | nil => exact ⟨[], .nil⟩
  | cons path rest ih =>
    obtain ⟨outcome, hpath⟩ := exists_lintsTo parse fs path
    obtain ⟨outcomes, hrest⟩ := ih
    exact ⟨outcome :: outcomes, .cons hpath hrest⟩

/-- The report of a batch is made of the outcomes of its files. -/
theorem batchReport_of_lintsTo (h : List.Forall₂ (LintsTo parse fs) paths outcomes) :
    batchReport parse fs paths =
      ⟨outcomes.filterMap Sum.getLeft?, outcomes.filterMap Sum.getRight?⟩ := by
  have hshares : paths.map (shareOf parse fs) =
      outcomes.map fun o => ⟨o.getLeft?.toList, o.getRight?.toList⟩ := by
    induction h with
    | nil => rfl
    | cons hpath _ ih => rw [List.map_cons, List.map_cons, ih, hpath.shareOf_eq]
  simp only [batchReport, hshares, Report.merged_eq, List.flatMap_map,
    List.filterMap_eq_flatMap_toList]

/-- No outcome is lost when reports and reasons are listed apart. -/
theorem length_getLeft?_add_length_getRight? (outcomes : List (FileReport ⊕ Unanalyzable)) :
    (outcomes.filterMap Sum.getLeft?).length + (outcomes.filterMap Sum.getRight?).length =
      outcomes.length := by
  induction outcomes with
  | nil => rfl
  | cons outcome outcomes ih =>
    rcases outcome with file | u
    · simp only [List.filterMap_cons, Sum.getLeft?_inl, Sum.getRight?_inl, List.length_cons]
      omega
    · simp only [List.filterMap_cons, Sum.getLeft?_inr, Sum.getRight?_inr, List.length_cons]
      omega

/-- Without a grammar, a batch stops if one of its files can be read, whatever was recorded before,
and for no other reason. -/
theorem lintFilesInto_unloaded_eq_error_iff (fs : FileSystem) (paths : List Path) (r : Report)
    (e : LintError) :
    lintFilesInto .unloaded fs r paths = .error e ↔
      e = .notLoaded ∧ ∃ path ∈ paths, ∃ source, fs.read path = .ok source := by
  induction paths generalizing r with
  | nil => simp [lintFilesInto]
  | cons path rest ih =>
    rcases hread : fs.read path with e' | source
    · -- the file is recorded, and the batch goes on
      have hstep : r.record path (lintFile .unloaded fs path) =
          .ok (r.addUnanalyzable ⟨path.text, e'.message⟩) := by
        rw [lintFile_of_unreadable _ hread]
        rfl
      rw [lintFilesInto, hstep]
      simp only [ih]
      simp [hread]
    · -- the batch stops here
      have hstep : r.record path (lintFile .unloaded fs path) = .error .notLoaded := by
        rw [lintFile_unloaded hread]
        rfl
      rw [lintFilesInto, hstep]
      simp [hread, eq_comm]

end Batch

/-- **Failures stay with their files.** With a grammar, a batch always ends in a report. Every
occurrence of a file in the list has one outcome: its report or a reason why there is none. The
report of the batch has all outcomes in the order of the files, the reports in one list and the
reasons in the other. An outcome depends on the file alone: there is a reason exactly when the file
cannot be read or its tree has an error, and otherwise the report is the one that linting the file on
its own gives. Without a grammar, a batch fails exactly when one of its files can be read. -/
theorem lintFiles_isolated (fs : FileSystem) (paths : List Path) :
    (∀ parse : Text → Tree, ∃ (report : Report) (outcomes : List (FileReport ⊕ Unanalyzable)),
      lintFiles ⟨some parse⟩ fs paths = .ok report ∧
      List.Forall₂ (LintsTo parse fs) paths outcomes ∧
      report.files = outcomes.filterMap Sum.getLeft? ∧
      report.unanalyzable = outcomes.filterMap Sum.getRight? ∧
      report.files.length + report.unanalyzable.length = paths.length) ∧
    (∀ (parse : Text → Tree) (path : Path),
      (∃! outcome, LintsTo parse fs path outcome) ∧
      ((∃ u, LintsTo parse fs path (.inr u)) ↔
        (∃ e, fs.read path = .error e) ∨
          ∃ source, fs.read path = .ok source ∧
            ∃ n ∈ (parse source).preorder, n.kind = "ERROR")) ∧
    ∀ e, lintFiles .unloaded fs paths = .error e ↔
      e = .notLoaded ∧ ∃ path ∈ paths, ∃ source, fs.read path = .ok source := by
  refine ⟨fun parse => ?_, fun parse path =>
    ⟨existsUnique_lintsTo parse fs path, exists_lintsTo_inr_iff⟩,
    lintFilesInto_unloaded_eq_error_iff fs paths .empty⟩
  obtain ⟨outcomes, houtcomes⟩ := exists_forall₂_lintsTo parse fs paths
  have hreport := batchReport_of_lintsTo houtcomes
  refine ⟨batchReport parse fs paths, outcomes, lintFiles_loaded parse fs paths, houtcomes,
    by rw [hreport], by rw [hreport], ?_⟩
  rw [hreport, length_getLeft?_add_length_getRight?, houtcomes.length_eq]

end FieldLint
