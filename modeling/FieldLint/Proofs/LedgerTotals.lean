import Mathlib.Data.List.Basic
import Mathlib.Data.List.Nodup
import FieldLint.Proofs.Totals
import FieldLint.Report.Ledger

/-!
# Totals in a ledger

Files change after reports have taken them in, a report may hold a file more than once, and several
reports may hold the same file. That the totals are right all the same is carried by one invariant,
`Ledger.Sound`:

* **Files** keep their running totals in step with their entries.
* **Places.** Whatever a report or a name points to is there.
* **Names.** No two names stand for the same report, so changing the report of one name changes that
  of no other (`Sound.sheet?_updateSheet_of_ne`).

A ledger changes in four ways only: a file or a report is made, or one of them is changed in its
place. Each of them keeps the invariant, so every step does (`Sound.apply`), and so does every
sequence of steps (`Sound.steps`).
-/

namespace FieldLint

/-- A property of all members stays one when one member is changed and keeps it. -/
theorem forall_mem_modify {α : Type*} {P : α → Prop} {xs : List α} {f : α → α} (i : Nat)
    (h : ∀ x ∈ xs, P x) (hf : ∀ x ∈ xs, P (f x)) : ∀ x ∈ xs.modify i f, P x := by
  intro x hx
  obtain ⟨j, hj⟩ := List.mem_iff_getElem?.mp hx
  rw [List.getElem?_modify] at hj
  obtain ⟨y, hy, rfl⟩ := Option.map_eq_some_iff.mp hj
  have hmem : y ∈ xs := List.mem_of_getElem? hy
  by_cases hij : i = j
  · simpa [hij] using hf y hmem
  · simpa [hij] using h y hmem

theorem mem_of_lookup {names : List (Text × Nat)} {name : Text} {place : Nat}
    (h : names.lookup name = some place) : (name, place) ∈ names := by
  obtain ⟨front, rest, rfl, -⟩ := List.lookup_eq_some_iff.mp h
  exact List.mem_append_right front List.mem_cons_self

namespace Ledger

/-! ## The invariant -/

/-- The totals of the files are right, and nothing points to a place where nothing is. -/
structure Sound (l : Ledger) : Prop where
  /-- the totals of a file count the diagnostics of its entries -/
  tallied : ∀ r ∈ l.files, r.Tallied
  /-- the files that a report holds are there -/
  held_lt : ∀ s ∈ l.sheets, ∀ place ∈ s.files, place < l.files.length
  /-- the files that have names are there -/
  fileNames_lt : ∀ x ∈ l.fileNames, x.2 < l.files.length
  /-- the reports that have names are there -/
  sheetNames_lt : ∀ x ∈ l.sheetNames, x.2 < l.sheets.length
  /-- no report has two names -/
  sheetNames_nodup : (l.sheetNames.map Prod.snd).Nodup

variable {l : Ledger}

/-- A sheet that is found by its name is one of the sheets. -/
theorem mem_sheets_of_sheet? {name : Text} {s : Sheet} (h : l.sheet? name = some s) :
    s ∈ l.sheets := by
  obtain ⟨place, -, hplace⟩ := Option.bind_eq_some_iff.mp h
  exact List.mem_of_getElem? hplace

/-- An empty ledger is sound. -/
theorem sound_empty : empty.Sound where
  tallied := by simp [empty]
  held_lt := by simp [empty]
  fileNames_lt := by simp [empty]
  sheetNames_lt := by simp [empty]
  sheetNames_nodup := List.nodup_nil

/-- A new file that counts what it holds keeps a ledger sound. -/
theorem Sound.newFile (h : l.Sound) (name : Text) {r : FileReport} (hr : r.Tallied) :
    (l.newFile name r).Sound where
  tallied := List.forall_mem_append.mpr ⟨h.tallied, List.forall_mem_singleton.mpr hr⟩
  held_lt s hs place hplace := by
    rw [Ledger.newFile, List.length_append]
    exact Nat.lt_add_right _ (h.held_lt s hs place hplace)
  fileNames_lt x hx := by
    rw [Ledger.newFile, List.length_append, List.length_singleton]
    rcases List.mem_cons.mp hx with rfl | hx
    · exact Nat.lt_succ_self _
    · exact Nat.lt_succ_of_lt (h.fileNames_lt x hx)
  sheetNames_lt := h.sheetNames_lt
  sheetNames_nodup := h.sheetNames_nodup

/-- A new sheet keeps a ledger sound. -/
theorem Sound.newSheet (h : l.Sound) (name : Text) : (l.newSheet name).Sound where
  tallied := h.tallied
  held_lt := List.forall_mem_append.mpr ⟨h.held_lt, by simp⟩
  fileNames_lt := h.fileNames_lt
  sheetNames_lt x hx := by
    rw [Ledger.newSheet, List.length_append, List.length_singleton]
    rcases List.mem_cons.mp hx with rfl | hx
    · exact Nat.lt_succ_self _
    · exact Nat.lt_succ_of_lt (h.sheetNames_lt x hx)
  sheetNames_nodup := by
    rw [Ledger.newSheet, List.map_cons, List.nodup_cons]
    refine ⟨fun hmem => ?_, h.sheetNames_nodup⟩
    -- the place of the new report is one past all others
    obtain ⟨x, hx, hplace⟩ := List.mem_map.mp hmem
    exact absurd hplace (Nat.ne_of_lt (h.sheetNames_lt x hx))

/-- Changing a file keeps a ledger sound, if the file goes on counting what it holds. -/
theorem Sound.updateFile (h : l.Sound) (name : Text) {f : FileReport → FileReport}
    (hf : ∀ r, r.Tallied → (f r).Tallied) : (l.updateFile name f).Sound := by
  rw [Ledger.updateFile]
  split
  · exact h
  · exact {
      tallied := forall_mem_modify _ h.tallied fun r hr => hf r (h.tallied r hr)
      held_lt := by simpa using h.held_lt
      fileNames_lt := by simpa using h.fileNames_lt
      sheetNames_lt := h.sheetNames_lt
      sheetNames_nodup := h.sheetNames_nodup }

/-- Changing a sheet keeps a ledger sound, if the sheet goes on naming files that are there. -/
theorem Sound.updateSheet (h : l.Sound) (name : Text) {f : Sheet → Sheet}
    (hf : ∀ s ∈ l.sheets, ∀ place ∈ (f s).files, place < l.files.length) :
    (l.updateSheet name f).Sound := by
  rw [Ledger.updateSheet]
  split
  · exact h
  · exact {
      tallied := h.tallied
      held_lt := forall_mem_modify _ h.held_lt hf
      fileNames_lt := h.fileNames_lt
      sheetNames_lt := by simpa using h.sheetNames_lt
      sheetNames_nodup := h.sheetNames_nodup }

/-- A step keeps a ledger sound. -/
theorem Sound.apply (h : l.Sound) (step : LedgerStep) : (l.apply step).Sound := by
  cases step with
  | newFile file path => exact h.newFile file (FileReport.tallied_empty path)
  | addEntry file entry => exact h.updateFile file fun r hr => hr.add entry
  | check file declaration => exact h.updateFile file fun r hr => hr.add declaration.entry
  | lint file module path => exact h.newFile file (FileReport.tallied_lintModule module path)
  | newReport report => exact h.newSheet report
  | addFile report file =>
    rw [Ledger.apply]
    split
    · exact h
    · next place hplace =>
      have hlt : place < l.files.length := h.fileNames_lt _ (mem_of_lookup hplace)
      exact h.updateSheet report fun s hs =>
        List.forall_mem_append.mpr ⟨h.held_lt s hs, List.forall_mem_singleton.mpr hlt⟩
  | addUnanalyzable report unit => exact h.updateSheet report h.held_lt
  | merge report source =>
    rw [Ledger.apply]
    split
    · exact h
    · next other hother =>
      exact h.updateSheet report fun s hs =>
        List.forall_mem_append.mpr ⟨h.held_lt s hs, h.held_lt other (mem_sheets_of_sheet? hother)⟩
  | showFile | showReport | printFile | printReport => exact h

/-- Every sequence of steps keeps a ledger sound. -/
theorem Sound.steps (h : l.Sound) (ss : List LedgerStep) : (l.steps ss).1.Sound := by
  induction ss generalizing l with
  | nil => exact h
  | cons step rest ih => exact ih (h.apply step)

/-! ## What a report holds -/

/-- Every place that a report holds has its file, so the report shows as many files as it holds. -/
theorem Sound.map_getElem?_files (h : l.Sound) {s : Sheet} (hs : s ∈ l.sheets) :
    s.files.map (l.files[·]?) = (l.expand s).files.map some := by
  have hsome : ∀ place ∈ s.files, l.files[place]?.isSome = true := fun place hplace => by
    simpa using h.held_lt s hs place hplace
  rw [expand, List.map_filterMap_some_eq_filter_map_isSome, List.filter_eq_self.mpr]
  exact List.forall_mem_map.mpr hsome

/-! ## Merging -/

/-- Changing a sheet moves no sheet to another place. -/
theorem sheetPlace?_updateSheet (l : Ledger) (name : Text) (f : Sheet → Sheet) (other : Text) :
    (l.updateSheet name f).sheetPlace? other = l.sheetPlace? other := by
  rw [updateSheet]
  split <;> rfl

theorem sheets_updateSheet {name : Text} {place : Nat} (h : l.sheetPlace? name = some place)
    (f : Sheet → Sheet) : (l.updateSheet name f).sheets = l.sheets.modify place f := by
  rw [updateSheet, h]

/-- The sheet that is changed is found changed. -/
theorem sheet?_updateSheet_self (l : Ledger) (name : Text) (f : Sheet → Sheet) :
    (l.updateSheet name f).sheet? name = (l.sheet? name).map f := by
  rw [sheet?, sheetPlace?_updateSheet, sheet?]
  cases hplace : l.sheetPlace? name with
  | none => rfl
  | some place =>
    rw [sheets_updateSheet hplace]
    exact List.getElem?_modify_eq f place l.sheets

/-- Two names never stand for the same report. -/
theorem Sound.sheetPlace?_inj (h : l.Sound) {name other : Text} {place : Nat}
    (hname : l.sheetPlace? name = some place) (hother : l.sheetPlace? other = some place) :
    name = other :=
  congrArg Prod.fst (List.inj_on_of_nodup_map h.sheetNames_nodup (mem_of_lookup hname)
    (mem_of_lookup hother) rfl)

/-- Every other sheet is found as it was. -/
theorem Sound.sheet?_updateSheet_of_ne (h : l.Sound) {name other : Text} (hne : other ≠ name)
    (f : Sheet → Sheet) : (l.updateSheet name f).sheet? other = l.sheet? other := by
  cases hname : l.sheetPlace? name with
  | none => rw [Ledger.updateSheet, hname]
  | some place =>
    rw [sheet?, sheetPlace?_updateSheet, sheets_updateSheet hname, sheet?]
    cases hother : l.sheetPlace? other with
    | none => rfl
    | some place' =>
      have hplaces : place ≠ place' := fun heq => hne (h.sheetPlace?_inj hother (heq ▸ hname))
      exact List.getElem?_modify_ne f l.sheets hplaces

theorem files_updateSheet (l : Ledger) (name : Text) (f : Sheet → Sheet) :
    (l.updateSheet name f).files = l.files := by
  rw [updateSheet]
  split <;> rfl

/-- Merging appends the list of one sheet to another; the files stay shared. -/
theorem apply_merge {report source : Text} {t : Sheet} (ht : l.sheet? source = some t) :
    l.apply (.merge report source) = l.updateSheet report (·.merge t) := by
  rw [apply, ht]

/-! ## All steps -/

/-- **The totals are right after every step.** Whatever was done, the totals of a file count the
diagnostics its entries have now, and a file has issues if an entry has a diagnostic. The files a
report shows are those at the places it holds, as they are now and as often as it holds them; its
totals are the sums of theirs, and it has issues if the totals are not both zero. Merging a report
into another appends its two lists and changes nothing else; merging a report into itself doubles
both lists. -/
theorem steps_totals (ss : List LedgerStep) :
    let l := (Ledger.empty.steps ss).1
    (∀ r ∈ l.files,
      r.errors = (r.entries.flatMap Entry.diagnostics).countP Diagnostic.isError ∧
      r.warnings = (r.entries.flatMap Entry.diagnostics).countP Diagnostic.isWarning ∧
      (r.hasIssues = true ↔ ∃ e ∈ r.entries, e.diagnostics ≠ [])) ∧
    (∀ s ∈ l.sheets, ∃ held : List FileReport, s.files.map (l.files[·]?) = held.map some ∧
      let r := l.expand s
      r.files = held ∧ r.unanalyzable = s.unanalyzable ∧
      r.errors = (held.map FileReport.errors).sum ∧
      r.warnings = (held.map FileReport.warnings).sum ∧
      (r.hasIssues = true ↔ 0 < r.errors + r.warnings)) ∧
    ∀ report source s t, l.sheet? report = some s → l.sheet? source = some t →
      let after := l.apply (.merge report source)
      after.files = l.files ∧
      (source ≠ report →
        after.sheet? report = some ⟨s.files ++ t.files, s.unanalyzable ++ t.unanalyzable⟩ ∧
        after.sheet? source = some t) ∧
      (source = report →
        after.sheet? report = some ⟨s.files ++ s.files, s.unanalyzable ++ s.unanalyzable⟩) ∧
      ∀ other, other ≠ report → after.sheet? other = l.sheet? other := by
  intro l
  have hsound : l.Sound := sound_empty.steps ss
  refine ⟨fun r hr => ?files, fun s hs => ?reports, fun report source s t hs ht => ?merge⟩
  case files =>
    have htallied := hsound.tallied r hr
    exact ⟨htallied.errors_eq, htallied.warnings_eq, htallied.hasIssues_iff⟩
  case reports =>
    exact ⟨(l.expand s).files, hsound.map_getElem?_files hs, rfl, rfl, Report.errors_eq_sum _,
      Report.warnings_eq_sum _, Report.hasIssues_iff _⟩
  case merge =>
    intro after
    have hafter : after = l.updateSheet report (·.merge t) := apply_merge ht
    have hreport : after.sheet? report = some (s.merge t) := by
      rw [hafter, sheet?_updateSheet_self, hs]
      rfl
    have hothers : ∀ other, other ≠ report → after.sheet? other = l.sheet? other := by
      intro other hne
      rw [hafter]
      exact hsound.sheet?_updateSheet_of_ne hne _
    have hfiles : after.files = l.files := by
      rw [hafter]
      exact files_updateSheet l report _
    refine ⟨hfiles, fun hne => ⟨hreport, ?_⟩, fun hself => ?_, hothers⟩
    · rw [hothers source hne, ht]
    · obtain rfl : s = t := Option.some.inj (hs.symm.trans (hself ▸ ht))
      exact hreport

/-- One file stands twice in a report and once in another when an error is found in it. Both reports
count the error, and merging either of them into the first counts it again. -/
theorem steps_totals_shared :
    let file := "f".toList
    let left := "left".toList
    let right := "right".toList
    let skipped : Unanalyzable := ⟨"b.py".toList, "syntax error at line 2".toList⟩
    let box : Declaration := ⟨.classdef, "Box".toList, 3, none, false⟩
    let l := (Ledger.empty.steps [.newFile file "a.py".toList, .newReport left, .newReport right,
      .addFile left file, .addFile right file, .addFile left file, .check file box,
      .addUnanalyzable right skipped]).1
    l.sheet? left = some ⟨[0, 0], []⟩ ∧ l.sheet? right = some ⟨[0], [skipped]⟩ ∧
      (l.expand ⟨[0, 0], []⟩).errors = 2 ∧ (l.expand ⟨[0], [skipped]⟩).errors = 1 ∧
      (l.apply (.merge left right)).sheet? left = some ⟨[0, 0, 0], [skipped]⟩ ∧
      (l.apply (.merge left right)).sheet? right = some ⟨[0], [skipped]⟩ ∧
      (l.apply (.merge left left)).sheet? left = some ⟨[0, 0, 0, 0], []⟩ := by
  intro file left right skipped box l
  have hleft : l.sheet? left = some ⟨[0, 0], []⟩ := by decide
  have hright : l.sheet? right = some ⟨[0], [skipped]⟩ := by decide
  obtain ⟨-, -, hmerge⟩ := steps_totals [.newFile file "a.py".toList, .newReport left,
    .newReport right, .addFile left file, .addFile right file, .addFile left file, .check file box,
    .addUnanalyzable right skipped]
  obtain ⟨-, hother, -⟩ := hmerge left right _ _ hleft hright
  obtain ⟨-, -, hself, -⟩ := hmerge left left _ _ hleft hleft
  obtain ⟨hboth, hsource⟩ := hother (by decide)
  exact ⟨hleft, hright, by decide, by decide, hboth, hsource, hself rfl⟩

end Ledger

end FieldLint
