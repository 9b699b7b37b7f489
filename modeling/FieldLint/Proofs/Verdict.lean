import FieldLint.Proofs.Records
import FieldLint.Rule

/-!
# When nothing is reported

The rules look at a docstring through its table and report findings in a fixed order. Which
docstrings pass all of them is said here on the marker lines themselves:

* `WellDocumented` — what the marker lines of the docstring of a callable have to say;
* one lemma for each rule, which tells when the rule has nothing to report;
* `check_eq_nil_iff` — a declaration has no diagnostics exactly when it is exempt, or is a module or
  a class with a docstring, or is well documented.
-/

namespace FieldLint

/-! ## Markers and their keys -/

/-- The key of line `i`, if it is a marker line with a subject. -/
def keyAt (dl : List DocLine) (i : Nat) : Option Key :=
  ((lineAt dl i).marker.bind Marker.subject?).map Subject.key

/-- The fields of the marker lines have the keys of those lines. -/
theorem map_key_fieldsOf (dl : List DocLine) :
    (fieldsOf (lineRecords dl)).map DocField.key =
      (List.range dl.length).filterMap (keyAt dl) := by
  rw [fieldsOf, lineRecords, List.filterMap_filterMap, List.map_filterMap]
  apply List.filterMap_congr
  intro i _
  unfold keyAt recordAt Marker.record
  rcases (lineAt dl i).marker with _ | m
  · rfl
  · rcases hs : m.subject? with _ | s <;> simp [hs, Record.field?, DocField.key]

/-- A field stands on a marker line, which has its key. -/
theorem keyAt_of_mem_fieldsOf {dl : List DocLine} {f : DocField}
    (h : f ∈ fieldsOf (lineRecords dl)) : ∃ i, keyAt dl i = some f.key ∧ f.line = i + 1 := by
  obtain ⟨r, hr, hf⟩ := List.mem_filterMap.mp h
  obtain ⟨i, m, hm, rfl⟩ := mem_lineRecords.mp hr
  refine ⟨i, ?_⟩
  rw [keyAt, hm]
  unfold Marker.record at hf
  rcases hs : m.subject? with _ | s <;> rw [hs] at hf <;> cases hf
  exact ⟨congrArg (Option.map Subject.key) hs, rfl⟩

theorem keyAt_of_length_le {dl : List DocLine} {i : Nat} (h : dl.length ≤ i) :
    keyAt dl i = none := by
  rw [keyAt, lineAt_of_length_le h]
  rfl

/-- Two marker lines never share a key exactly when no key comes twice among the fields. -/
theorem nodup_map_key_fieldsOf_iff (dl : List DocLine) :
    ((fieldsOf (lineRecords dl)).map DocField.key).Nodup ↔
      ∀ i j key, i ≠ j → keyAt dl i = some key → keyAt dl j ≠ some key := by
  rw [map_key_fieldsOf, List.Nodup, List.pairwise_filterMap, List.pairwise_iff_getElem]
  constructor
  · intro h i j key hij hi hj
    have hlen : ∀ {k}, keyAt dl k = some key → k < (List.range dl.length).length := by
      intro k hk
      rcases Nat.lt_or_ge k dl.length with hlt | hge
      · simpa using hlt
      · rw [keyAt_of_length_le hge] at hk
        cases hk
    rcases Nat.lt_or_gt_of_ne hij with hlt | hlt
    · exact h i j (hlen hi) (hlen hj) hlt key (by simpa using hi) key (by simpa using hj) rfl
    · exact h j i (hlen hj) (hlen hi) hlt key (by simpa using hj) key (by simpa using hi) rfl
  · intro h i j _ _ hij key hi key' hj hkey
    subst hkey
    exact h i j key (Nat.ne_of_lt hij) (by simpa using hi) (by simpa using hj)

/-! ## Subjects and keys -/

/-- The parameter that fields with the key are about. -/
def Key.parameter? (key : Key) : Option Text :=
  match key.tag with
  | .param | .type => key.name
  | _ => none

namespace Subject

variable {s : Subject} {name : Text}

theorem key_eq_param_iff : s.key = ⟨.param, some name⟩ ↔ ∃ hint, s = .param name hint := by
  cases s <;> simp [key, tag, name?]

theorem key_eq_type_iff : s.key = ⟨.type, some name⟩ ↔ s = .type name := by
  cases s <;> simp [key, tag, name?]

theorem key_eq_returns_iff : s.key = ⟨.returns, none⟩ ↔ s = .returns := by
  cases s <;> simp [key, tag, name?]

theorem key_eq_rtype_iff : s.key = ⟨.rtype, none⟩ ↔ s = .rtype := by
  cases s <;> simp [key, tag, name?]

/-- The key tells which parameter a field is about. -/
theorem parameter?_key (s : Subject) : s.key.parameter? = s.parameter? := by
  cases s <;> rfl

end Subject

/-! ## The rules one by one -/

/-- The field list rule is silent if every marker has a subject and no key comes twice. -/
theorem fieldListFindings_parse_eq_nil_iff (t : Text) :
    fieldListFindings (Docstring.parse t) = [] ↔
      (∀ i m, (lineAt (docLines (Text.lines t)) i).marker = some m → m.subject? ≠ none) ∧
        ((markedFields t).map DocField.key).Nodup := by
  rw [fieldListFindings, List.append_eq_nil_iff, List.map_eq_nil_iff, List.map_eq_nil_iff,
    malformed_parse, duplicates_parse, replaced_eq_nil_iff, List.filterMap_eq_nil_iff]
  refine and_congr_left fun _ => ?_
  constructor
  · intro h i m hm hs
    have hr := h _ (mem_lineRecords.mpr ⟨i, m, hm, rfl⟩)
    simp [Marker.record, hs, Record.malformed?] at hr
  · intro h r hr
    obtain ⟨i, m, hm, rfl⟩ := mem_lineRecords.mp hr
    obtain ⟨s, hs⟩ := Option.ne_none_iff_exists'.mp (h i m hm)
    simp [Marker.record, hs, Record.malformed?]

/-- A parameter is in order if it is described and has a type in one of the two ways. -/
theorem parameterFindings_eq_nil_iff (doc : Docstring) (name : Text) :
    parameterFindings doc name = [] ↔
      ∃ f, doc.paramField? name = some f ∧ f.text ≠ [] ∧
        (f.subject.typeHint? ≠ none ∨ ∃ g, doc.typeField? name = some g ∧ g.text ≠ []) := by
  unfold parameterFindings Docstring.parameterDoc
  rcases doc.paramField? name with _ | f
  · simp
  · rcases hh : f.subject.typeHint? with _ | hint
    · rcases doc.typeField? name with _ | g
      · simp [hh]
      · by_cases hf : f.text = [] <;> simp [hh, hf]
    · by_cases hf : f.text = [] <;> simp [hh, hf]

/-- The parameters that fields are about are those of their keys. -/
theorem filterMap_parameter?_eq (fs : List DocField) :
    fs.filterMap (·.subject.parameter?) = (fs.map DocField.key).filterMap Key.parameter? := by
  rw [List.filterMap_map]
  exact List.filterMap_congr fun f _ => f.subject.parameter?_key.symm

/-- The names the table mentions are those the marker lines mention, in the order in which they
first appear there. -/
theorem parameterNames_parse (t : Text) :
    (Docstring.parse t).parameterNames =
      ((markedFields t).filterMap (·.subject.parameter?)).eraseDups := by
  rw [Docstring.parameterNames, fields_parse, filterMap_parameter?_eq, filterMap_parameter?_eq,
    map_key_groupTable, firstKeys, eraseDups_filterMap_eraseDups]

/-- A name is mentioned exactly if a field is about it. -/
theorem mem_parameterNames_parse {t name : Text} :
    name ∈ (Docstring.parse t).parameterNames ↔
      ∃ f ∈ markedFields t, f.subject.parameter? = some name := by
  rw [parameterNames_parse, List.mem_eraseDups, List.mem_filterMap]

/-- The parameters rule, parameter by parameter. -/
theorem parametersFindings_eq_nil_iff (c : Callable) (doc : Docstring) :
    parametersFindings c doc = [] ↔
      (∀ p ∈ c.parameters, parameterFindings doc p.name = []) ∧
        ∀ name ∈ doc.parameterNames, ∃ p ∈ c.parameters, p.name = name := by
  simp [parametersFindings, List.flatMap_eq_nil_iff, List.filter_eq_nil_iff]

/-- The returns rule is silent about a value that is described and typed, or about none. -/
theorem returnsFindings_eq_nil_iff (c : Callable) (doc : Docstring) :
    returnsFindings c doc = [] ↔
      (c.returnsValue = true →
        (∃ f, doc.returnField? = some f ∧ f.text ≠ []) ∧
          ∃ g, doc.rtypeField? = some g ∧ g.text ≠ []) ∧
      (c.returnsValue = false →
        doc.returnField? = none ∧ ∀ g, doc.rtypeField? = some g → g.text ≠ []) := by
  unfold returnsFindings
  rcases c.returnsValue with _ | _ <;> rcases doc.returnField? with _ | f <;>
    rcases doc.rtypeField? with _ | g <;> simp

/-- The returns rule reports about nothing but the value returned. -/
theorem mem_of_mem_returnsFindings {c : Callable} {doc : Docstring} {x : Finding}
    (h : x ∈ returnsFindings c doc) :
    x ∈ [Finding.missingReturn, .missingReturnDescription, .missingRtypeDescription, .missingRtype,
      .unexpectedReturn] := by
  simp only [returnsFindings, List.mem_append] at h
  rcases h with (((h | h) | h) | h) | h <;> split at h <;> simp_all

/-! ## The verdict -/

/-- What the docstring of a callable has to say, by its marker lines. -/
structure WellDocumented (c : Callable) (text : Text) : Prop where
  /-- every marker has a known tag, and names something where its tag asks for a parameter -/
  meaningful : ∀ i m, (lineAt (docLines (Text.lines text)) i).marker = some m →
    Tag.ofSpelling? m.tag ≠ none ∧
      (Tag.ofSpelling? m.tag = some .param ∨ Tag.ofSpelling? m.tag = some .type →
        m.argument ≠ none)
  /-- no two markers have the same tag and name -/
  distinct : ∀ i j key, i ≠ j → keyAt (docLines (Text.lines text)) i = some key →
    keyAt (docLines (Text.lines text)) j ≠ some key
  /-- every parameter is described, and its type is given in one of the two ways -/
  described : ∀ p ∈ c.parameters, ∃ f ∈ markedFields text, ∃ hint,
    f.subject = .param p.name hint ∧ f.text ≠ [] ∧
      (hint ≠ none ∨ ∃ g ∈ markedFields text, g.subject = .type p.name ∧ g.text ≠ [])
  /-- no field is about a parameter that is not there -/
  relevant : ∀ f ∈ markedFields text, ∀ name, f.subject.parameter? = some name →
    ∃ p ∈ c.parameters, p.name = name
  /-- a value that is returned is described and typed -/
  returned : c.returnsValue = true →
    (∃ f ∈ markedFields text, f.subject = .returns ∧ f.text ≠ []) ∧
      ∃ g ∈ markedFields text, g.subject = .rtype ∧ g.text ≠ []
  /-- where no value is returned none is described, and a type given for it says something -/
  unreturned : c.returnsValue = false →
    (∀ f ∈ markedFields text, f.subject ≠ .returns) ∧
      ∀ g ∈ markedFields text, g.subject = .rtype → g.text ≠ []

/-- A marker has a subject if its tag is known and it names something where that is asked for. -/
theorem Marker.subject?_ne_none_iff (m : Marker) :
    m.subject? ≠ none ↔
      Tag.ofSpelling? m.tag ≠ none ∧
        (Tag.ofSpelling? m.tag = some .param ∨ Tag.ofSpelling? m.tag = some .type →
          m.argument ≠ none) := by
  rw [ne_eq, m.subject?_eq_none_iff, not_or, not_and]

section Unique

variable {fs : List DocField} (hkeys : (fs.map DocField.key).Nodup)

include hkeys

/-- Where no key comes twice and `key` stands for one subject only, looking it up finds something
that says anything exactly if a field about that subject does. -/
theorem says_iff {key : Key} {s : Subject} (hkey : ∀ {s' : Subject}, s'.key = key ↔ s' = s) :
    (∃ f, lastField? fs key = some f ∧ f.text ≠ []) ↔
      ∃ f ∈ fs, f.subject = s ∧ f.text ≠ [] := by
  simp only [lastField?_eq_some_iff hkeys, DocField.key, hkey, and_assoc]

/-- What is looked up about a parameter is what the fields say. -/
theorem described_iff (name : Text) :
    (∃ f, lastField? fs ⟨.param, some name⟩ = some f ∧ f.text ≠ [] ∧
        (f.subject.typeHint? ≠ none ∨
          ∃ g, lastField? fs ⟨.type, some name⟩ = some g ∧ g.text ≠ [])) ↔
      ∃ f ∈ fs, ∃ hint, f.subject = .param name hint ∧ f.text ≠ [] ∧
        (hint ≠ none ∨ ∃ g ∈ fs, g.subject = .type name ∧ g.text ≠ []) := by
  rw [says_iff hkeys Subject.key_eq_type_iff]
  simp only [lastField?_eq_some_iff hkeys, DocField.key, Subject.key_eq_param_iff]
  constructor
  · rintro ⟨f, ⟨hf, hint, hs⟩, htext, h⟩
    exact ⟨f, hf, hint, hs, htext, by simpa [hs, Subject.typeHint?] using h⟩
  · rintro ⟨f, hf, hint, hs, htext, h⟩
    exact ⟨f, ⟨hf, hint, hs⟩, htext, by simpa [hs, Subject.typeHint?] using h⟩

theorem rtype_text_iff :
    (∀ g, lastField? fs ⟨.rtype, none⟩ = some g → g.text ≠ []) ↔
      ∀ g ∈ fs, g.subject = .rtype → g.text ≠ [] := by
  simp only [lastField?_eq_some_iff hkeys, DocField.key, Subject.key_eq_rtype_iff, and_imp]

end Unique

theorem lastField?_returns_eq_none_iff {fs : List DocField} :
    lastField? fs ⟨.returns, none⟩ = none ↔ ∀ f ∈ fs, f.subject ≠ .returns := by
  simp only [lastField?_eq_none_iff, DocField.key, ne_eq, Subject.key_eq_returns_iff]

/-- What the rules find in the docstring of a callable. -/
def Callable.findings (c : Callable) (text : Text) : List Finding :=
  fieldListFindings (Docstring.parse text) ++ parametersFindings c (Docstring.parse text) ++
    returnsFindings c (Docstring.parse text)

/-- The rules for the docstring of a callable are silent exactly when it is well documented. -/
theorem Callable.findings_eq_nil_iff (c : Callable) (text : Text) :
    c.findings text = [] ↔ WellDocumented c text := by
  rw [findings, List.append_eq_nil_iff, List.append_eq_nil_iff, fieldListFindings_parse_eq_nil_iff,
    parametersFindings_eq_nil_iff, returnsFindings_eq_nil_iff]
  simp only [parameterFindings_eq_nil_iff, paramField?_parse, typeField?_parse,
    returnField?_parse, rtypeField?_parse, mem_parameterNames_parse, Marker.subject?_ne_none_iff,
    lastField?_returns_eq_none_iff, forall_exists_index, and_imp]
  -- both sides say that no key comes twice, and under that look-ups are membership
  constructor
  · rintro ⟨⟨⟨hmeaning, hkeys⟩, hparams, hnames⟩, hret, hunret⟩
    simp only [described_iff hkeys, says_iff hkeys Subject.key_eq_returns_iff,
      says_iff hkeys Subject.key_eq_rtype_iff, rtype_text_iff hkeys] at hparams hret hunret
    exact ⟨hmeaning, (nodup_map_key_fieldsOf_iff _).mp hkeys, hparams,
      fun f hf name hname => hnames name f hf hname, hret, hunret⟩
  · rintro ⟨hmeaning, hdistinct, hparams, hnames, hret, hunret⟩
    have hkeys := (nodup_map_key_fieldsOf_iff _).mpr hdistinct
    simp only [markedFields, described_iff hkeys, says_iff hkeys Subject.key_eq_returns_iff,
      says_iff hkeys Subject.key_eq_rtype_iff, rtype_text_iff hkeys]
    exact ⟨⟨⟨hmeaning, hkeys⟩, hparams, fun name f hf hname => hnames f hf name hname⟩,
      hret, hunret⟩

namespace Declaration

variable {d : Declaration}

theorem isCallable_iff : d.isCallable = true ↔ ∃ c, d.form = .callable c := by
  unfold isCallable
  rcases d.form with path | _ | c <;> simp

/-- A callable that is not private is checked against its docstring. -/
theorem check_of_callable {c : Callable} {text : Text} (hform : d.form = .callable c)
    (hpublic : d.isPrivate = false) (hdoc : d.docstring = some text) :
    d.check = (c.findings text).map (Finding.report d) := by
  have hexempt : ¬d.isExempt = true := by simp [isExempt, hpublic]
  rw [check, if_neg hexempt, findings, hform, hdoc]
  rfl

/-- Docstrings in which the rules find the same are interchangeable. -/
theorem check_congr {t t' : Text} (h : ∀ c : Callable, c.findings t' = c.findings t)
    (d : Declaration) :
    { d with docstring := some t' }.check = { d with docstring := some t }.check := by
  have hfindings :
      { d with docstring := some t' }.findings = { d with docstring := some t }.findings := by
    unfold findings
    rcases d.form with path | _ | c
    · rfl
    · rfl
    · exact h c
  rw [check, check, hfindings]
  rfl

/-- A module or a class is only asked for a docstring, and so is a callable without one. -/
theorem check_of_presence (hexempt : d.isExempt = false)
    (h : d.isCallable = false ∨ d.docstring = none) :
    d.check = (presenceFindings d).map (Finding.report d) := by
  have hfindings : d.findings = presenceFindings d := by
    unfold findings
    rcases hform : d.form with path | _ | c
    · rfl
    · rfl
    · have hcallable : ¬d.isCallable = false := by simp [isCallable, hform]
      rw [h.resolve_left hcallable]
  rw [check, if_neg (by simp [hexempt]), hfindings]

/-- A docstring is missed exactly if there is none. -/
theorem presenceFindings_eq_nil_iff : presenceFindings d = [] ↔ d.docstring ≠ none := by
  unfold presenceFindings
  rcases d.docstring with _ | text <;> simp

end Declaration

/-- **When nothing is reported.** A declaration has no diagnostics exactly when it is a private
callable, or a module or class with a docstring, or a callable that is well documented. -/
theorem check_eq_nil_iff (d : Declaration) :
    d.check = [] ↔
      d.isCallable = true ∧ d.isPrivate = true ∨
      d.isCallable = false ∧ d.docstring ≠ none ∨
      ∃ c text, d.form = .callable c ∧ d.isPrivate = false ∧ d.docstring = some text ∧
        WellDocumented c text := by
  rcases hcallable : d.isCallable with _ | _
  · -- a module or a class
    have hexempt : d.isExempt = false := by simp [Declaration.isExempt, hcallable]
    have hform : ∀ c, d.form ≠ .callable c := fun c hc => by
      simp [Declaration.isCallable_iff.mpr ⟨c, hc⟩] at hcallable
    rw [Declaration.check_of_presence hexempt (.inl hcallable), List.map_eq_nil_iff,
      Declaration.presenceFindings_eq_nil_iff]
    simp [hform]
  · obtain ⟨c, hform⟩ := Declaration.isCallable_iff.mp hcallable
    rcases hprivate : d.isPrivate with _ | _
    · rcases hdoc : d.docstring with _ | text
      · have hexempt : d.isExempt = false := by simp [Declaration.isExempt, hprivate]
        rw [Declaration.check_of_presence hexempt (.inr hdoc), List.map_eq_nil_iff,
          Declaration.presenceFindings_eq_nil_iff]
        simp [hdoc]
      · rw [Declaration.check_of_callable hform hprivate hdoc, List.map_eq_nil_iff,
          Callable.findings_eq_nil_iff]
        simp [hform]
    · have hexempt : d.isExempt = true := by simp [Declaration.isExempt, hcallable, hprivate]
      simp [Declaration.check, hexempt]

end FieldLint
