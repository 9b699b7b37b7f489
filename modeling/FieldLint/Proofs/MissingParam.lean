import FieldLint.Proofs.Locality
import FieldLint.Proofs.Renumber
import FieldLint.Proofs.Written

/-!
# Describing a missing parameter

A parameter of the signature that no field describes is reported. The remedy is one more line at the
end of the docstring, `:param (type) name: text`.

* **Reading** — `lineRecords_append_written`: whatever the docstring ends with, the line is a marker
  line and leaves one more record.
* **Rules** — `AddsField` says of two texts that one has one more field. What the rules find changes
  where the key of that field or its parameter is asked for, and nowhere else.
* **Declarations** — `check_append_param`: the report of the missing parameter goes, and every other
  diagnostic stays in its place.
-/

namespace FieldLint

/-! ## One more line -/

/-- **A field added at the end leaves one more record.** Whatever the text ends with, the line is a
marker line, and no field before it changes. -/
theorem lineRecords_append_written (t : Text) {s : Subject} (hs : s.Writable) {text : Text}
    (ht : text.OneLine) :
    ∃ number, lineRecords (docLines (Text.lines (t ++ '\n' :: s.written text))) =
      lineRecords (docLines (Text.lines t)) ++ [.field ⟨s, Text.trim text, number⟩] := by
  have hlines : Text.lines (s.written text) = [s.written text] :=
    Text.lines_of_notMem (Subject.newline_notMem_written hs ht)
  have hmarker : Marker.ofLine? (s.written text) = some (s.marker (Text.trim text)) :=
    Subject.ofLine?_written (w := []) hs ht rfl
  have hindent : Text.indent (s.written text) = 0 := s.indent_written (w := []) text rfl
  -- standing at the margin, the line ends whatever the text leaves open
  have hmargin : opensAtMargin (Text.lines (s.written text)) = true := by
    rw [hlines, opensAtMargin, hmarker, hindent]
    rfl
  have hrecord : lineRecords (docLines (Text.lines (s.written text))) =
      [.field ⟨s, Text.trim text, 1⟩] := by
    have h := Subject.record_written (w := []) hs rfl text (Text.trim text) 1
      (some (s.marker (Text.trim text))) []
    rw [continuedText_nil (Text.trim_trim text)] at h
    rw [hlines, ← map_record_fieldSections, docLines_eq_scanLines,
      scanLines_cons_marker hmarker hindent]
    exact congrArg (fun r => [r]) h
  refine ⟨1 + (Text.lines (Text.chomp t)).length, ?_⟩
  rw [lineRecords_append_newline t hmargin, hrecord]
  rfl

/-! ## One more field -/

/-- The text `t'` has one more field than `t`, at its end, and the same malformed ones. -/
structure AddsField (t t' : Text) (f : DocField) : Prop where
  /-- the fields in the order of their marker lines -/
  markedFields_eq : markedFields t' = markedFields t ++ [f]
  /-- the markers without meaning -/
  malformed_eq : (Docstring.parse t').malformed = (Docstring.parse t).malformed

/-- A field that is written out as a last line is added as it stands. -/
theorem addsField_written (t : Text) {s : Subject} (hs : s.Writable) {text : Text}
    (ht : text.OneLine) :
    ∃ number, AddsField t (t ++ '\n' :: s.written text) ⟨s, Text.trim text, number⟩ := by
  obtain ⟨number, hrecords⟩ := lineRecords_append_written t hs ht
  refine ⟨number, ?_, ?_⟩
  · rw [markedFields, hrecords, fieldsOf_append, fieldsOf_field, markedFields]
  · rw [malformed_parse, malformed_parse, hrecords, List.filterMap_append]
    exact List.append_nil _

namespace AddsField

variable {t t' : Text} {f : DocField} (h : AddsField t t' f)

include h

/-- A look-up of any other key finds what it found before. -/
theorem find?_of_ne {key : Key} (hkey : f.key ≠ key) :
    (Docstring.parse t').fields.find? key = (Docstring.parse t).fields.find? key := by
  rw [find?_fields_parse, find?_fields_parse, h.markedFields_eq, lastField?_concat, if_neg hkey]

/-- A look-up of its key finds the field. -/
theorem find?_self : (Docstring.parse t').fields.find? f.key = some f := by
  rw [find?_fields_parse, h.markedFields_eq, lastField?_concat, if_pos rfl]

theorem alikeAt_of_ne {key : Key} (hkey : f.key ≠ key) :
    Docstring.AlikeAt key (Docstring.parse t') (Docstring.parse t) := by
  rw [Docstring.AlikeAt, h.find?_of_ne hkey]

/-- A field with a new key gives the field list rule nothing to report. -/
theorem fieldListFindings_eq (hnew : (Docstring.parse t).fields.find? f.key = none) :
    fieldListFindings (Docstring.parse t') = fieldListFindings (Docstring.parse t) := by
  rw [find?_fields_parse] at hnew
  rw [fieldListFindings, fieldListFindings, h.malformed_eq, duplicates_parse, duplicates_parse,
    h.markedFields_eq, replaced_concat, hnew, Option.toList_none, List.append_nil]

/-- A parameter of the signature is not reported as one that is not there. -/
theorem filter_parameterNames_eq {names : List Text} {name : Text}
    (hname : f.subject.parameter? = some name) (hmem : name ∈ names) :
    (Docstring.parse t').parameterNames.filter (!names.contains ·) =
      (Docstring.parse t).parameterNames.filter (!names.contains ·) := by
  rw [parameterNames_parse, parameterNames_parse, h.markedFields_eq, ← eraseDups_filter,
    ← eraseDups_filter, List.filterMap_append, List.filter_append]
  simp [hname, hmem]

end AddsField

/-! ## Describing a parameter -/

theorem filter_ne_eq_self {x : Finding} {fs : List Finding} (h : x ∉ fs) :
    fs.filter (· ≠ x) = fs := by
  rw [List.filter_eq_self]
  intro y hy
  simpa using fun hyx : y = x => h (hyx ▸ hy)

/-- A parameter that is reported as missing is not described. -/
theorem mem_parameterFindings_missingParam {doc : Docstring} {name name' : Text} :
    .missingParam name' ∈ parameterFindings doc name ↔
      name' = name ∧ doc.paramField? name = none := by
  unfold parameterFindings Docstring.parameterDoc
  rcases doc.paramField? name with _ | f <;> simp

theorem missingParam_notMem_fieldListFindings (doc : Docstring) (name : Text) :
    .missingParam name ∉ fieldListFindings doc := by
  simp [fieldListFindings]

theorem missingParam_notMem_returnsFindings (c : Callable) (doc : Docstring) (name : Text) :
    .missingParam name ∉ returnsFindings c doc := fun h => by
  simpa using mem_of_mem_returnsFindings h

/-- A missing parameter is one of the signature that no field describes. -/
theorem missingParam_mem_findings {c : Callable} {t name : Text}
    (h : .missingParam name ∈ c.findings t) :
    name ∈ c.parameters.map (·.name) ∧ (Docstring.parse t).paramField? name = none := by
  rw [Callable.findings, parametersFindings, List.mem_append, List.mem_append,
    List.mem_append] at h
  rcases h with (h | h | h) | h
  · exact absurd h (missingParam_notMem_fieldListFindings _ _)
  · obtain ⟨name', hname', hmem⟩ := List.mem_flatMap.mp h
    obtain ⟨rfl, hnone⟩ := mem_parameterFindings_missingParam.mp hmem
    exact ⟨hname', hnone⟩
  · simp at h
  · exact absurd h (missingParam_notMem_returnsFindings _ _ _)

namespace AddsField

variable {t t' : Text} {f : DocField} (h : AddsField t t' f) {name hint : Text}
  (hsubject : f.subject = .param name (some hint)) (htext : f.text ≠ [])
  (hnone : (Docstring.parse t).paramField? name = none)

include hsubject

theorem key_eq : f.key = ⟨.param, some name⟩ := by
  rw [DocField.key, hsubject]
  rfl

include h htext hnone

/-- The new field settles its parameter and leaves the others alone. -/
theorem parameterFindings_eq (name' : Text) :
    parameterFindings (Docstring.parse t') name' =
      (parameterFindings (Docstring.parse t) name').filter (· ≠ .missingParam name) := by
  have hkey := key_eq hsubject
  by_cases hname : name = name'
  · -- the parameter was missing, and now nothing is left to report about it
    subst hname
    have hbefore : parameterFindings (Docstring.parse t) name = [.missingParam name] := by
      simp [parameterFindings, Docstring.parameterDoc, hnone]
    have hafter : parameterFindings (Docstring.parse t') name = [] := by
      rw [parameterFindings_eq_nil_iff, Docstring.paramField?_eq, ← hkey]
      exact ⟨f, h.find?_self, htext, .inl (by rw [hsubject]; exact Option.some_ne_none hint)⟩
    rw [hbefore, hafter]
    simp
  · have hne : ∀ tag, f.key ≠ ⟨tag, some name'⟩ := by
      rintro tag heq
      rw [hkey, Key.mk.injEq, Option.some.injEq] at heq
      exact hname heq.2
    have hdoc := Docstring.AlikeAt.parameterDoc_eq (h.alikeAt_of_ne (hne .param))
      (h.alikeAt_of_ne (hne .type))
    have hother : .missingParam name ∉ parameterFindings (Docstring.parse t) name' := fun hmem =>
      hname (mem_parameterFindings_missingParam.mp hmem).1
    rw [filter_ne_eq_self hother, parameterFindings, parameterFindings, hdoc]

/-- **What a new description changes.** If one more field describes and types a parameter that was
missing, the rules find what they found before, but not that parameter. -/
theorem findings_eq {c : Callable} (hmem : name ∈ c.parameters.map (·.name)) :
    c.findings t' = (c.findings t).filter (· ≠ .missingParam name) := by
  have hkey := key_eq hsubject
  have hnew : (Docstring.parse t).fields.find? f.key = none := by
    rw [hkey, ← Docstring.paramField?_eq]
    exact hnone
  have hreturns : returnsFindings c (Docstring.parse t') = returnsFindings c (Docstring.parse t) :=
    Docstring.AlikeAt.returnsFindings_eq (h.alikeAt_of_ne (by simp [hkey]))
      (h.alikeAt_of_ne (by simp [hkey])) c
  have hextra : ∀ names : List Text, .missingParam name ∉ names.map Finding.extraParam := by
    simp
  -- the new name may be mentioned first by the new field, but it is one of the signature
  have hnames := h.filter_parameterNames_eq (by rw [hsubject]; rfl) hmem
  have hparams := funext (h.parameterFindings_eq hsubject htext hnone)
  rw [Callable.findings, Callable.findings, List.filter_append, List.filter_append,
    filter_ne_eq_self (missingParam_notMem_fieldListFindings _ _),
    filter_ne_eq_self (missingParam_notMem_returnsFindings _ _ _), h.fieldListFindings_eq hnew,
    hreturns, parametersFindings, parametersFindings, List.filter_append, List.filter_flatMap,
    filter_ne_eq_self (hextra _), hnames, hparams]

end AddsField

/-- The diagnostic about a missing parameter tells which parameter it is. -/
theorem Finding.report_eq_missingParam_iff {d : Declaration} {x : Finding} {name : Text} :
    x.report d = (missingParam name).report d ↔ x = .missingParam name := by
  refine ⟨fun h => ?_, fun h => by rw [h]⟩
  obtain ⟨-, hcode, hmessage, -⟩ := Diagnostic.mk.inj h
  cases x <;> cases hcode
  rw [List.append_cancel_left hmessage]

/-- **Advice that is followed is settled.** If a parameter of a callable that is not private is
reported as missing, one more line that gives its type and describes it removes this report from the
diagnostics, and changes no other. -/
theorem check_append_param (d : Declaration) (c : Callable) (hform : d.form = .callable c)
    (hpublic : d.isPrivate = false) (t : Text) (hdoc : d.docstring = some t) (name hint text : Text)
    (hname : IsName name) (hhint : IsPhrase hint) (htext : text.OneLine)
    (hnotBlank : Text.isBlank text = false)
    (hmissing : (Finding.missingParam name).report d ∈ d.check) :
    let amended := t ++ '\n' :: (Subject.param name (some hint)).written text
    { d with docstring := some amended }.check =
      d.check.filter (· ≠ (Finding.missingParam name).report d) := by
  intro amended
  have hbefore := Declaration.check_of_callable hform hpublic hdoc
  have hfinding : .missingParam name ∈ c.findings t := by
    rw [hbefore] at hmissing
    obtain ⟨x, hx, hreport⟩ := List.mem_map.mp hmissing
    rwa [← Finding.report_eq_missingParam_iff.mp hreport]
  obtain ⟨hmem, hnone⟩ := missingParam_mem_findings hfinding
  have hwritable : (Subject.param name (some hint)).Writable :=
    ⟨hname, fun _ h => Option.some.inj h ▸ hhint⟩
  obtain ⟨number, hadds⟩ := addsField_written t hwritable htext
  have hne : Text.trim text ≠ [] := by simp [Text.trim_eq_nil_iff, hnotBlank]
  have hafter : { d with docstring := some amended }.check =
      (c.findings amended).map (Finding.report d) :=
    Declaration.check_of_callable hform hpublic rfl
  rw [hafter, hbefore, hadds.findings_eq rfl hne hnone hmem, List.filter_map]
  -- leaving the finding out is leaving its diagnostic out
  congr 2
  funext x
  simp [Finding.report_eq_missingParam_iff]

/-- A function of two parameters. Its docstring has the type of the second one and ends in a block
of explicit markup. -/
def scaleDeclaration : Declaration :=
  ⟨.callable ⟨.function, [⟨"a".toList, false⟩, ⟨"b".toList, true⟩], none, true⟩, "scale".toList, 3,
    some "Scale.\n\n:param (int) a: one\n:type b: int\n:retrun: a\n.. note:: open\n\n  \r".toList,
    false⟩

/-- The second parameter of `scaleDeclaration`, described at the end. -/
theorem check_append_param_scale :
    let t :=
      "Scale.\n\n:param (int) a: one\n:type b: int\n:retrun: a\n.. note:: open\n\n  \r".toList
    let amended := t ++ "\n:param (str or (int) b: `two`".toList
    scaleDeclaration.docstring = some t ∧
    (Finding.missingParam "b".toList).report scaleDeclaration ∈ scaleDeclaration.check ∧
    { scaleDeclaration with docstring := some amended }.check =
      scaleDeclaration.check.filter
        (· ≠ (Finding.missingParam "b".toList).report scaleDeclaration) := by
  intro t amended
  have hmissing : (Finding.missingParam "b".toList).report scaleDeclaration ∈
      scaleDeclaration.check := by decide
  exact ⟨rfl, hmissing, check_append_param scaleDeclaration _ rfl rfl t rfl "b".toList
    "str or (int".toList "`two`".toList (by decide) (by decide) (by decide) (by decide) hmissing⟩

end FieldLint
