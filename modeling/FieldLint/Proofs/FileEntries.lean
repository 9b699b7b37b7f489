import Mathlib.Data.List.Basic
import Mathlib.Data.List.Induction
import FieldLint.Lint.Module

/-!
# What a file is reported for

The report of a module has one entry for every declaration that is not exempt and not inside an
exempt one. That is said by `lineages`, which lists all declarations each with the ones around it,
and a filter; the report itself prunes the tree as it goes down (`map_snd_filter_lineages`).

Nothing exempt leaves a trace: `withoutExempt` takes the exempt declarations out of a tree, and what
is checked is what is left (`checked_eq_preorder_withoutExempt`).
-/

namespace FieldLint

/-! ## Totals -/

theorem FileReport.ofEntries_concat (filePath : Text) (es : List Entry) (e : Entry) :
    ofEntries filePath (es ++ [e]) = (ofEntries filePath es).add e := by
  rw [ofEntries, List.foldl_append]
  rfl

/-- A report holds its entries in order, and its totals are those of its entries. -/
theorem FileReport.ofEntries_eq (filePath : Text) (es : List Entry) :
    ofEntries filePath es =
      ⟨filePath, es, (es.flatMap Entry.diagnostics).countP Diagnostic.isError,
        (es.flatMap Entry.diagnostics).countP Diagnostic.isWarning⟩ := by
  induction es using List.reverseRecOn with
  | nil => rfl
  | append_singleton es e ih => simp [ofEntries_concat, ih, add, List.countP_append]

/-! ## Declarations and what stands around them -/

namespace Signature

mutual

/-- All declarations of a tree with the given ones around it, each before the ones inside it and
paired with the ones around it, the outermost first. -/
def lineages (around : List Declaration) : Signature → List (List Declaration × Declaration)
  | node d ss => (around, d) :: lineagesAll (around ++ [d]) ss

/-- All declarations of several trees with the given ones around them. -/
def lineagesAll (around : List Declaration) :
    List Signature → List (List Declaration × Declaration)
  | [] => []
  | s :: rest => lineages around s ++ lineagesAll around rest

end

theorem lineagesAll_eq_flatMap (around : List Declaration) (ss : List Signature) :
    lineagesAll around ss = ss.flatMap (lineages around) := by
  induction ss with
  | nil => rfl
  | cons s rest ih => rw [lineagesAll, ih, List.flatMap_cons]

/-- The declarations themselves are listed in the order of the source. -/
theorem map_snd_lineages (s : Signature) (around : List Declaration) :
    (s.lineages around).map Prod.snd = s.preorder := by
  induction s using induction_on_members generalizing around with
  | node d ss ih =>
    rw [lineages, List.map_cons, preorder, lineagesAll_eq_flatMap, preorderAll_eq_flatMap,
      List.map_flatMap]
    exact congrArg (d :: ·) (List.flatMap_congr fun s hs => ih s hs _)

/-- Neither the declaration nor one around it is exempt. -/
def isExposed (x : List Declaration × Declaration) : Bool :=
  !x.2.isExempt && x.1.all (!·.isExempt)

/-- Going down the tree without entering exempt declarations finds the ones that are exposed. -/
theorem map_snd_filter_lineages (s : Signature) (around : List Declaration) :
    ((s.lineages around).filter isExposed).map Prod.snd =
      if around.any Declaration.isExempt then [] else s.checked := by
  induction s using induction_on_members generalizing around with
  | node d ss ih =>
    have hinner : ((lineagesAll (around ++ [d]) ss).filter isExposed).map Prod.snd =
        if (around ++ [d]).any Declaration.isExempt then [] else checkedAll ss := by
      rw [lineagesAll_eq_flatMap, List.filter_flatMap, List.map_flatMap,
        List.flatMap_congr fun s hs => ih s hs (around ++ [d]), checkedAll_eq_flatMap]
      rcases (around ++ [d]).any Declaration.isExempt with _ | _
      · rfl
      · exact List.flatMap_eq_nil_iff.mpr fun _ _ => rfl
    have hany : (around ++ [d]).any Declaration.isExempt =
        (around.any Declaration.isExempt || d.isExempt) := by
      rw [List.any_append, List.any_cons, List.any_nil, Bool.or_false]
    have hhead : isExposed (around, d) = (!around.any Declaration.isExempt && !d.isExempt) := by
      rw [isExposed, Bool.and_comm, List.not_any_eq_all_not]
    rw [hany] at hinner
    rw [lineages, List.filter_cons, hhead, checked]
    -- whatever is around `d`, and `d` itself, is exempt or not
    rcases haround : around.any Declaration.isExempt with _ | _ <;>
      rcases hd : d.isExempt with _ | _ <;> rw [haround, hd] at hinner
    · exact congrArg (d :: ·) hinner
    · exact hinner
    · exact hinner
    · exact hinner

/-! ## Taking exempt declarations out -/

mutual

/-- The tree without exempt declarations and without what is inside them. The root stays. -/
def withoutExempt : Signature → Signature
  | node d ss => node d (withoutExemptAll ss)

/-- The trees that are not exempt, without exempt declarations in them. -/
def withoutExemptAll : List Signature → List Signature
  | [] => []
  | s :: rest =>
    if s.declaration.isExempt then withoutExemptAll rest
    else withoutExempt s :: withoutExemptAll rest

end

/-- Leaving out what is exempt does not touch the declaration on top. -/
theorem declaration_withoutExempt (s : Signature) :
    s.withoutExempt.declaration = s.declaration := by
  cases s
  rfl

/-- What is checked is what is left of the tree, unless the root is exempt. -/
theorem checked_eq_preorder_withoutExempt (s : Signature) :
    s.checked = if s.withoutExempt.declaration.isExempt then [] else s.withoutExempt.preorder := by
  induction s using induction_on_members with
  | node d ss ih =>
    have hinner : checkedAll ss = preorderAll (withoutExemptAll ss) := by
      induction ss with
      | nil => rfl
      | cons s rest ihrest =>
        obtain ⟨hs, hrest⟩ := List.forall_mem_cons.mp ih
        rw [checkedAll, withoutExemptAll, hs, ihrest hrest, declaration_withoutExempt]
        rcases s.declaration.isExempt with _ | _ <;> rfl
    rw [checked, withoutExempt, preorder, hinner]
    rfl

end Signature

/-! ## The report of a module -/

/-- A diagnostic points at the declaration it is about. -/
theorem Declaration.location_of_mem_check {d : Declaration} {g : Diagnostic} (h : g ∈ d.check) :
    g.location = ⟨d.name, d.line⟩ := by
  rw [check] at h
  split at h
  · cases h
  · obtain ⟨f, -, rfl⟩ := List.mem_map.mp h
    rfl

/-- The report of a module has an entry for each declaration that is checked. -/
theorem entries_lintModule (module : Signature) (path : Text) :
    (lintModule module path).entries = module.checked.map Declaration.entry := by
  rw [lintModule, FileReport.ofEntries_eq]

/-- The report depends on what is left of the tree without exempt declarations only. -/
theorem lintModule_eq_of_withoutExempt_eq {module other : Signature} (path : Text)
    (h : other.withoutExempt = module.withoutExempt) :
    lintModule other path = lintModule module path := by
  rw [lintModule, lintModule, other.checked_eq_preorder_withoutExempt, h,
    ← module.checked_eq_preorder_withoutExempt]

/-- **What a file is reported for.** The entries are the declarations that are exposed, in the order
of the tree and each with what its own check says about it; a diagnostic names the declaration it
belongs to; the totals count the diagnostics of the entries. A module that differs in exempt
declarations only, and in what is inside them, has the same report. -/
theorem lintModule_exposed (module : Signature) (path : Text) :
    let report := lintModule module path
    report.filePath = path ∧
      (module.lineages []).map Prod.snd = module.preorder ∧
      report.entries = ((module.lineages []).filter Signature.isExposed).map
        (fun x => ⟨x.2, x.2.check⟩) ∧
      (∀ e ∈ report.entries, ∀ g ∈ e.diagnostics,
        g.location = ⟨e.declaration.name, e.declaration.line⟩) ∧
      report.errors = (report.entries.flatMap Entry.diagnostics).countP Diagnostic.isError ∧
      report.warnings = (report.entries.flatMap Entry.diagnostics).countP Diagnostic.isWarning ∧
      ∀ other : Signature, other.withoutExempt = module.withoutExempt →
        lintModule other path = report := by
  intro report
  have hreport : report = _ := FileReport.ofEntries_eq path (module.checked.map Declaration.entry)
  have hentries : report.entries = module.checked.map Declaration.entry :=
    entries_lintModule module path
  refine ⟨?path, module.map_snd_lineages [], ?entries, ?locations, ?errors, ?warnings,
    fun other h => lintModule_eq_of_withoutExempt_eq path h⟩
  case path => rw [hreport]
  case entries =>
    have hchecked : ((module.lineages []).filter Signature.isExposed).map Prod.snd =
        module.checked := module.map_snd_filter_lineages []
    rw [hentries, ← hchecked, List.map_map]
    rfl
  case locations =>
    intro e he g hg
    rw [hentries] at he
    obtain ⟨d, -, rfl⟩ := List.mem_map.mp he
    exact Declaration.location_of_mem_check hg
  case errors => rw [hentries, hreport]
  case warnings => rw [hentries, hreport]

/-- A private class is reported with what is inside it; a private function and the function inside
that leave no trace. -/
theorem lintModule_exposed_cache :
    let path := "cache.py".toList
    let function (name : Text) (line : Nat) (isPrivate : Bool) : Declaration :=
      ⟨.callable ⟨.function, [], none, true⟩, name, line, none, isPrivate⟩
    let cache : Declaration := ⟨.classdef, "_Cache".toList, 5, none, true⟩
    let get : Declaration :=
      ⟨.callable ⟨.method, [], some "self".toList, true⟩, "get".toList, 6, none, false⟩
    let file : Declaration := ⟨.module path, path, 0, some "Cache.".toList, false⟩
    let hidden := Signature.node (function "_load".toList 2 true)
      [.node (function "retry".toList 3 false) []]
    let module (first : List Signature) :=
      Signature.node file (first ++ [.node cache [.node get first]])
    (module [hidden]).withoutExempt = (module []).withoutExempt ∧
      lintModule (module [hidden]) path = ⟨path,
        [⟨file, []⟩, ⟨cache, [Finding.missingClassDocstring.report cache]⟩,
          ⟨get, [Finding.missingDocstring.report get]⟩], 2, 0⟩ := by
  intro path function cache get file hidden module
  have hsame : (module [hidden]).withoutExempt = (module []).withoutExempt := rfl
  obtain ⟨-, -, -, -, -, -, hreport⟩ := lintModule_exposed (module []) path
  exact ⟨hsame, (hreport (module [hidden]) hsame).trans (by decide)⟩

end FieldLint
