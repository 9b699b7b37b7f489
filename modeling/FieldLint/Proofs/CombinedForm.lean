import FieldLint.Proofs.Locality
import FieldLint.Proofs.Renumber
import FieldLint.Proofs.Written

/-!
# Two ways to give the type of a parameter

The type of a parameter can be given together with its description, `:param (int) a: one`, or in a
field of its own, `:type a: int` before `:param a: one`. Taking the second form for the first one
puts one more line into the middle of a docstring. What stands before and after is read as before:

* **Reading** — `lineRecords_forms`: the record of the one line gives way to those of the two, and
  the other records stay, those after it one line further down. Lines that continued the
  description still do.
* **Rules** — `SplitsField` says this of two texts. The rules look the parameter up and find the
  same description and the same type, and no field is given twice in either form.
* **Declarations** — `check_separateLines_eq`: nothing that is said about a parameter changes, and
  no diagnostic.
-/

namespace FieldLint

/-! ## Reading the two forms -/

/-- The line, indented by `w`, that describes a parameter and gives its type. -/
def combinedLine (w name hint text : Text) : Text :=
  w ++ (Subject.param name (some hint)).written text

/-- The two lines, indented by `w`, of which the first gives the type of a parameter and the second
describes it. -/
def separateLines (w name hint text : Text) : List Text :=
  [w ++ (Subject.type name).written hint, w ++ (Subject.param name none).written text]

theorem continuedText_moved (depth k : Nat) (rest : Text) (body : List DocLine) :
    continuedText depth rest (body.map (DocLine.moved k)) = continuedText depth rest body := by
  rw [continuedText, continuedText, List.takeWhile_map, List.map_map]
  rfl

/-- A line in the middle of a docstring, with the block open that the lines before it leave. -/
theorem lineAt_docLines_append (ls : List Text) (line : Text) (ls' : List Text) :
    lineAt (docLines (ls ++ line :: ls')) ls.length =
      ⟨1 + ls.length, line, markerIn? (ls.foldl blockAfter none) line⟩ := by
  have hlength : (scanLines 1 none ls).length = ls.length := by
    rw [← List.length_map (·.text), map_text_scanLines]
  rw [docLines_eq_scanLines, scanLines_append, lineAt, List.getD_eq_getElem?_getD,
    List.getElem?_append_right (Nat.le_of_eq hlength), hlength, Nat.sub_self]
  rfl

section Read

variable {w name hint text : Text} (hw : Text.isBlank w = true) (hname : IsName name)
  (hhint : IsPhrase hint) (hline : hint.OneLine) (htext : text.OneLine)

include hname hhint hline htext

/-- The lines of the two forms are lines: they hold no line feed and end in no carriage return. -/
theorem oneLine_forms (hnewline : '\n' ∉ w) :
    ∀ l ∈ combinedLine w name hint text :: separateLines w name hint text,
      '\n' ∉ l ∧ l.getLast? ≠ some '\r' := by
  have hcut : ∀ {s : Subject} {said : Text}, s.Writable → said.OneLine →
      '\n' ∉ w ++ s.written said ∧ (w ++ s.written said).getLast? ≠ some '\r' := by
    intro s said hs hsaid
    refine ⟨?_, Subject.getLast?_written_ne hsaid⟩
    rw [List.mem_append, not_or]
    exact ⟨hnewline, Subject.newline_notMem_written hs hsaid⟩
  rw [separateLines, List.forall_mem_cons, List.forall_mem_cons, List.forall_mem_singleton]
  exact ⟨hcut ⟨hname, fun _ h => Option.some.inj h ▸ hhint⟩ htext, hcut hname hline,
    hcut ⟨hname, fun _ h => nomatch h⟩ htext⟩

include hw

/-- Where the combined line is a marker line, so are the two others in its place. The sections
before and after them leave the same records. -/
theorem fieldSections_forms {block : Option Nat}
    (hcont : continuesDirective block (combinedLine w name hint text) = false) (number : Nat)
    (dl : List DocLine) (ls : List Text) :
    ∃ said rs',
      (fieldSections (dl ++ scanLines number block (combinedLine w name hint text :: ls))).map
          FieldSection.record =
        (fieldSections dl).map FieldSection.record ++
          .field ⟨.param name (some hint), said, number⟩ :: rs' ∧
      (fieldSections (dl ++ scanLines number block (separateLines w name hint text ++ ls))).map
          FieldSection.record =
        (fieldSections dl).map FieldSection.record ++
          .field ⟨.type name, hint, number⟩ :: .field ⟨.param name none, said, number + 1⟩ ::
            rs'.map (Record.moved 1) := by
  have hcombined : (Subject.param name (some hint)).Writable :=
    ⟨hname, fun _ h => Option.some.inj h ▸ hhint⟩
  have htype : (Subject.type name).Writable := hname
  have hparam : (Subject.param name none).Writable := ⟨hname, fun _ h => nomatch h⟩
  have hx := Subject.ofLine?_written hcombined htext hw
  have hy := Subject.ofLine?_written htype hline hw
  have hz := Subject.ofLine?_written hparam htext hw
  -- the line with the type is indented as the combined line was
  have hconty : continuesDirective block (w ++ (Subject.type name).written hint) = false := by
    rw [← hcont]
    refine continuesDirective_congr (Marker.isBlank_of_ofLine? hy) (Marker.isBlank_of_ofLine? hx)
      ?_ block
    rw [Subject.indent_written _ _ hw, Subject.indent_written _ _ hw]
  refine ⟨continuedText w.length (Text.trim text)
      ((scanLines (number + 1) none ls).takeWhile DocLine.isPlain),
    (fieldSections (scanLines (number + 1) none ls)).map FieldSection.record, ?_, ?_⟩
  · rw [combinedLine, scanLines_cons_of_not_continues hx hcont, fieldSections_append rfl,
      fieldSections, List.map_append, List.map_cons, Subject.record_written hcombined hw]
  · rw [separateLines, List.cons_append, List.singleton_append,
      scanLines_cons_of_not_continues hy hconty, scanLines_cons_of_not_continues hz rfl,
      fieldSections_append rfl, fieldSections, fieldSections, List.map_append, List.map_cons,
      List.map_cons, Subject.record_written htype hw, Subject.record_written hparam hw,
      scanLines_moved, fieldSections_moved, map_record_moved, List.takeWhile_map,
      continuedText_moved]
    -- the type has no line to continue it, since the description comes right after it
    have hsaid : continuedText w.length (Text.trim hint) [] = hint := by
      rw [hhint.trim_eq, continuedText_nil hhint.trim_eq]
    exact congrArg (fun said => _ ++ Record.field ⟨.type name, said, number⟩ :: _) hsaid

variable (hnewline : '\n' ∉ w)

include hnewline

/-- **The records of a docstring with either form.** If the combined line is a marker line, its
record gives way to the records of the two lines, and those after it move one line down. -/
theorem lineRecords_forms {pre : List Text} (hpre : ∀ l ∈ pre, '\n' ∉ l) {post : List Text} :
    let combined := Text.unlines (pre ++ combinedLine w name hint text :: post)
    let separate := Text.unlines (pre ++ (separateLines w name hint text ++ post))
    (lineAt (docLines (Text.lines combined)) pre.length).isPlain = false →
    ∃ rs said rs',
      lineRecords (docLines (Text.lines combined)) =
        rs ++ .field ⟨.param name (some hint), said, 1 + pre.length⟩ :: rs' ∧
      lineRecords (docLines (Text.lines separate)) =
        rs ++ .field ⟨.type name, hint, 1 + pre.length⟩ ::
          .field ⟨.param name none, said, 1 + pre.length + 1⟩ :: rs'.map (Record.moved 1) := by
  intro combined separate hmarker
  -- the lines before and after are cut the same way around either form
  have hforms := List.forall_mem_cons.mp (oneLine_forms hname hhint hline htext hnewline)
  obtain ⟨rest, hrest⟩ := Text.lines_unlines_middle hpre post
  have hcombined : Text.lines combined =
      pre.map Text.chomp ++ combinedLine w name hint text :: rest :=
    hrest [combinedLine w name hint text] (List.cons_ne_nil _ _)
      (List.forall_mem_singleton.mpr hforms.1)
  have hseparate : Text.lines separate =
      pre.map Text.chomp ++ (separateLines w name hint text ++ rest) :=
    hrest _ (List.cons_ne_nil _ _) hforms.2
  have hlength : (pre.map Text.chomp).length = pre.length := List.length_map _
  -- a marker is seen in the combined line, so no block of explicit markup reaches it
  rw [hcombined, ← hlength, lineAt_docLines_append] at hmarker
  have hseen := Option.isSome_iff_ne_none.mp (Option.isNone_eq_false_iff.mp hmarker)
  obtain ⟨said, rs', hbefore, hafter⟩ := fieldSections_forms hw hname hhint hline htext
    (continuesDirective_of_markerIn? hseen) (1 + pre.length)
    (scanLines 1 none (pre.map Text.chomp)) rest
  rw [← hlength] at hbefore hafter ⊢
  refine ⟨(fieldSections (scanLines 1 none (pre.map Text.chomp))).map FieldSection.record, said,
    rs', ?_, ?_⟩
  · rw [hcombined, ← map_record_fieldSections, docLines_eq_scanLines, scanLines_append, hbefore]
  · rw [hseparate, ← map_record_fieldSections, docLines_eq_scanLines, scanLines_append, hafter]

end Read

/-! ## The rules on the two forms -/

/-- Where `t` has a field that describes a parameter and gives its type, `t'` has one for the type
and one for the description. But for their lines the other records of the two texts are the same,
and none of them is about that parameter. -/
structure SplitsField (t t' name hint : Text) (rs rs' : List Record) (said : Text) : Prop where
  /-- the records of the first text -/
  combined : unnumberedRecords t = rs ++ .field ⟨.param name (some hint), said, 0⟩ :: rs'
  /-- the records of the second text -/
  separate : unnumberedRecords t' =
    rs ++ .field ⟨.type name, hint, 0⟩ :: .field ⟨.param name none, said, 0⟩ :: rs'
  /-- no other record is about the parameter -/
  unique : ∀ f ∈ fieldsOf (rs ++ rs'), f.subject.parameter? ≠ some name
  /-- the type says something -/
  hint_ne_nil : hint ≠ []

theorem DocField.key_ne_of_tag_ne {f : DocField} {key : Key} (h : f.subject.tag ≠ key.tag) :
    f.key ≠ key :=
  fun hkey => h (congrArg Key.tag hkey)

theorem Record.unnumbered_moved (k : Nat) (r : Record) : (r.moved k).unnumbered = r.unnumbered := by
  cases r <;> rfl

namespace SplitsField

variable {t t' name hint said : Text} {rs rs' : List Record}

/-- Records that follow one line further down are the same but for their lines. -/
theorem of_lineRecords {number : Nat}
    (hcombined : lineRecords (docLines (Text.lines t)) =
      rs ++ .field ⟨.param name (some hint), said, number⟩ :: rs')
    (hseparate : lineRecords (docLines (Text.lines t')) =
      rs ++ .field ⟨.type name, hint, number⟩ :: .field ⟨.param name none, said, number + 1⟩ ::
        rs'.map (Record.moved 1))
    (hunique : ∀ f ∈ fieldsOf (rs ++ rs'), f.subject.parameter? ≠ some name)
    (hhint : hint ≠ []) :
    SplitsField t t' name hint (rs.map Record.unnumbered) (rs'.map Record.unnumbered) said := by
  refine ⟨?_, ?_, ?_, hhint⟩
  · rw [unnumberedRecords, hcombined, List.map_append]
    rfl
  · have hmoved : (rs'.map (Record.moved 1)).map Record.unnumbered = rs'.map Record.unnumbered := by
      rw [List.map_map]
      exact List.map_congr_left fun r _ => r.unnumbered_moved 1
    rw [unnumberedRecords, hseparate, List.map_append, List.map_cons, List.map_cons, hmoved]
    rfl
  · intro f hf
    rw [← List.map_append, fieldsOf_map_unnumbered] at hf
    obtain ⟨g, hg, rfl⟩ := List.mem_map.mp hf
    exact hunique g hg

variable (h : SplitsField t t' name hint rs rs' said)

include h

/-- The fields of the docstring with the combined form, numbers left out. -/
theorem fieldsOf_combined : fieldsOf (unnumberedRecords t) =
    fieldsOf rs ++ ⟨.param name (some hint), said, 0⟩ :: fieldsOf rs' := by
  rw [h.combined, fieldsOf_append]
  rfl

/-- The fields of the docstring with the two lines, numbers left out. -/
theorem fieldsOf_separate : fieldsOf (unnumberedRecords t') =
    fieldsOf rs ++ ⟨.type name, hint, 0⟩ :: ⟨.param name none, said, 0⟩ :: fieldsOf rs' := by
  rw [h.separate, fieldsOf_append]
  rfl

/-- The fields before and after have other keys. -/
theorem key_ne (key : Key) (hkey : key.parameter? = some name) :
    (∀ f ∈ fieldsOf rs, f.key ≠ key) ∧ ∀ f ∈ fieldsOf rs', f.key ≠ key := by
  have hother : ∀ f ∈ fieldsOf (rs ++ rs'), f.key ≠ key := by
    rintro f hf rfl
    exact h.unique f hf (f.subject.parameter?_key ▸ hkey)
  rw [fieldsOf_append] at hother
  exact ⟨fun f hf => hother f (List.mem_append_left _ hf),
    fun f hf => hother f (List.mem_append_right _ hf)⟩

/-- Keys that are not about the parameter are looked up with the same result. -/
theorem alikeAt {key : Key} (hkey : key.parameter? ≠ some name) :
    Docstring.AlikeAt key (Docstring.parse t') (Docstring.parse t) := by
  have hne : ∀ f : DocField, f.subject.parameter? = some name → f.key ≠ key := by
    rintro f hf rfl
    exact hkey (f.subject.parameter?_key.trans hf)
  rw [Docstring.AlikeAt, find?_unnumbered, find?_unnumbered, h.fieldsOf_combined,
    h.fieldsOf_separate, lastField?_insert_of_ne _ _ (hne _ rfl),
    lastField?_insert_of_ne _ _ (hne _ rfl), lastField?_insert_of_ne _ _ (hne _ rfl)]

/-- What looking up the parameter and its type finds in the first text: one field. -/
theorem find?_combined :
    lastField? (fieldsOf (unnumberedRecords t)) ⟨.param, some name⟩ =
        some ⟨.param name (some hint), said, 0⟩ ∧
      lastField? (fieldsOf (unnumberedRecords t)) ⟨.type, some name⟩ = none := by
  have hparam := h.key_ne ⟨.param, some name⟩ rfl
  have htype := h.key_ne ⟨.type, some name⟩ rfl
  have hother : (⟨.param name (some hint), said, 0⟩ : DocField).key ≠ ⟨.type, some name⟩ :=
    DocField.key_ne_of_tag_ne nofun
  rw [h.fieldsOf_combined]
  refine ⟨lastField?_insert_self _ hparam.2, ?_⟩
  rw [lastField?_insert_of_ne _ _ hother, lastField?_append, lastField?_eq_none_iff.mpr htype.1,
    lastField?_eq_none_iff.mpr htype.2]
  rfl

/-- What looking up the parameter and its type finds in the second text: one field each. -/
theorem find?_separate :
    lastField? (fieldsOf (unnumberedRecords t')) ⟨.param, some name⟩ =
        some ⟨.param name none, said, 0⟩ ∧
      lastField? (fieldsOf (unnumberedRecords t')) ⟨.type, some name⟩ =
        some ⟨.type name, hint, 0⟩ := by
  have hparam := h.key_ne ⟨.param, some name⟩ rfl
  have htype := h.key_ne ⟨.type, some name⟩ rfl
  have hother : (⟨.type name, hint, 0⟩ : DocField).key ≠ ⟨.param, some name⟩ :=
    DocField.key_ne_of_tag_ne nofun
  have hafter : ∀ f ∈ (⟨.param name none, said, 0⟩ : DocField) :: fieldsOf rs',
      f.key ≠ ⟨.type, some name⟩ :=
    List.forall_mem_cons.mpr ⟨DocField.key_ne_of_tag_ne nofun, htype.2⟩
  rw [h.fieldsOf_separate]
  refine ⟨?_, lastField?_insert_self (x := ⟨.type name, hint, 0⟩) _ hafter⟩
  rw [lastField?_insert_of_ne _ _ hother]
  exact lastField?_insert_self _ hparam.2

/-- Every parameter is described and typed as before. -/
theorem parameterDoc_eq (name' : Text) :
    (Docstring.parse t').parameterDoc name' = (Docstring.parse t).parameterDoc name' := by
  by_cases hname : name' = name
  · -- the type comes with the description in one text and from its own field in the other
    subst hname
    rw [parameterDoc_unnumbered _ _ ((find?_unnumbered t _).trans h.find?_combined.1)
        ((find?_unnumbered t _).trans h.find?_combined.2),
      parameterDoc_unnumbered _ _ ((find?_unnumbered t' _).trans h.find?_separate.1)
        ((find?_unnumbered t' _).trans h.find?_separate.2)]
    simp [Subject.typeHint?, Text.nonempty?_eq_some_iff.mpr ⟨rfl, h.hint_ne_nil⟩]
  · exact Docstring.AlikeAt.parameterDoc_eq
      (h.alikeAt (by simpa [Key.parameter?] using hname))
      (h.alikeAt (by simpa [Key.parameter?] using hname))

theorem parameterNames_eq :
    (Docstring.parse t').parameterNames = (Docstring.parse t).parameterNames := by
  rw [parameterNames_unnumbered, parameterNames_unnumbered, h.fieldsOf_combined,
    h.fieldsOf_separate, List.filterMap_append, List.filterMap_append]
  -- the name is mentioned once in one text, and twice in a row in the other
  exact eraseDups_append_cons_cons_self _ _ name

/-- None of the fields about the parameter is given twice, in either form. -/
theorem fieldListFindings_eq :
    fieldListFindings (Docstring.parse t') = fieldListFindings (Docstring.parse t) := by
  have hparam := h.key_ne ⟨.param, some name⟩ rfl
  have htype := h.key_ne ⟨.type, some name⟩ rfl
  have hcombined : replaced (fieldsOf (unnumberedRecords t)) =
      replaced (fieldsOf rs ++ fieldsOf rs') := by
    rw [h.fieldsOf_combined]
    exact replaced_insert hparam.1 hparam.2
  have hseparate : replaced (fieldsOf (unnumberedRecords t')) =
      replaced (fieldsOf rs ++ fieldsOf rs') := by
    rw [h.fieldsOf_separate, replaced_insert (x := ⟨.type name, hint, 0⟩) htype.1]
    · exact replaced_insert hparam.1 hparam.2
    · exact List.forall_mem_cons.mpr ⟨DocField.key_ne_of_tag_ne nofun, htype.2⟩
  rw [fieldListFindings_unnumbered, fieldListFindings_unnumbered, hcombined, hseparate, h.combined,
    h.separate, List.filterMap_append, List.filterMap_append]
  rfl

/-- **The rules find the same in both forms.** -/
theorem findings_eq (c : Callable) : c.findings t' = c.findings t := by
  have hparams :
      parameterFindings (Docstring.parse t') = parameterFindings (Docstring.parse t) := by
    funext name'
    rw [parameterFindings, parameterFindings, h.parameterDoc_eq]
  have hreturns := Docstring.AlikeAt.returnsFindings_eq (h.alikeAt (by simp [Key.parameter?]))
    (h.alikeAt (by simp [Key.parameter?])) c
  rw [Callable.findings, Callable.findings, h.fieldListFindings_eq, parametersFindings,
    parametersFindings, hparams, h.parameterNames_eq, hreturns]

end SplitsField

/-! ## One form in the place of the other -/

/-- If one marker line at most is about a parameter, the records other than that of this line are
not about it. -/
theorem parameter?_ne_of_keyAt {dl : List DocLine} {rs rs' : List Record} {x : DocField}
    {name : Text} (hrecords : lineRecords dl = rs ++ .field x :: rs')
    (honly : ∀ i, i + 1 ≠ x.line → (keyAt dl i).bind Key.parameter? ≠ some name) :
    ∀ f ∈ fieldsOf (rs ++ rs'), f.subject.parameter? ≠ some name := by
  intro f hf
  have hmem : f ∈ fieldsOf (lineRecords dl) := by
    rw [fieldsOf_append, List.mem_append] at hf
    rw [hrecords, fieldsOf_append, List.mem_append]
    exact hf.imp_right (List.mem_cons_of_mem x)
  obtain ⟨i, hkey, hline⟩ := keyAt_of_mem_fieldsOf hmem
  -- `f` stands on another line than `x`
  have hne : i + 1 ≠ x.line := by
    obtain ⟨r, hr, hrf⟩ := List.mem_filterMap.mp hf
    have hother := line_ne_of_lineRecords_eq hrecords r hr
    rcases r with g | m <;> cases hrf
    rw [← hline]
    exact hother
  have h := honly i hne
  rwa [hkey, Option.bind_some, DocField.key, Subject.parameter?_key] at h

/-- **The two forms are interchangeable.** Take a docstring with a marker line that describes a
parameter and gives its type, no other marker line being about that parameter. With two lines in
its place, of which the first gives the type and the second the description, the same is said about
every parameter, the same parameters are mentioned in the same order, and every declaration with
that docstring has the same diagnostics. -/
theorem check_separateLines_eq (pre post : List Text) (hpre : ∀ l ∈ pre, '\n' ∉ l)
    (w name hint text : Text) (hw : Text.isBlank w = true) (hnewline : '\n' ∉ w)
    (hname : IsName name) (hhint : IsPhrase hint) (hline : hint.OneLine) (htext : text.OneLine) :
    let combined := Text.unlines (pre ++ combinedLine w name hint text :: post)
    let separate := Text.unlines (pre ++ (separateLines w name hint text ++ post))
    let dl := docLines (Text.lines combined)
    (lineAt dl pre.length).isPlain = false →
    (∀ i ≠ pre.length, (keyAt dl i).bind Key.parameter? ≠ some name) →
    (∀ name', (Docstring.parse separate).parameterDoc name' =
      (Docstring.parse combined).parameterDoc name') ∧
    (Docstring.parse separate).parameterNames = (Docstring.parse combined).parameterNames ∧
    ∀ d : Declaration, { d with docstring := some separate }.check =
      { d with docstring := some combined }.check := by
  intro combined separate dl hmarker honly
  obtain ⟨rs, said, rs', hcombined, hseparate⟩ :=
    lineRecords_forms hw hname hhint hline htext hnewline hpre hmarker
  have hunique : ∀ f ∈ fieldsOf (rs ++ rs'), f.subject.parameter? ≠ some name := by
    refine parameter?_ne_of_keyAt hcombined fun i hi => honly i fun hix => hi ?_
    rw [hix, Nat.add_comm]
  have hsplits := SplitsField.of_lineRecords hcombined hseparate hunique hhint.ne_nil
  exact ⟨hsplits.parameterDoc_eq, hsplits.parameterNames_eq,
    Declaration.check_congr hsplits.findings_eq⟩

/-- An indented field about `a` between other fields, with a second line. -/
theorem check_separateLines_eq_sum :
    let pre := ["Add.".toList, ".. note:: x".toList, ":return: sum".toList]
    let post := ["      of two".toList, "  :note: x".toList, ":type b: int".toList]
    let combined := Text.unlines
      (pre ++ "  :param (dict[str, (int]) a: one".toList :: post)
    let separate := Text.unlines
      (pre ++ (["  :type a: dict[str, (int]".toList, "  :param a: one".toList] ++ post))
    let dl := docLines (Text.lines combined)
    (lineAt dl 3).isPlain = false ∧
    (∀ i ≠ 3, (keyAt dl i).bind Key.parameter? ≠ some "a".toList) ∧
    (∀ name, (Docstring.parse separate).parameterDoc name =
      (Docstring.parse combined).parameterDoc name) ∧
    (Docstring.parse separate).parameterNames = (Docstring.parse combined).parameterNames ∧
    ∀ d : Declaration, { d with docstring := some separate }.check =
      { d with docstring := some combined }.check := by
  intro pre post combined separate dl
  have hmarker : (lineAt dl 3).isPlain = false := by decide
  have honly : ∀ i ≠ 3, (keyAt dl i).bind Key.parameter? ≠ some "a".toList := by
    intro i hi
    rcases Nat.lt_or_ge i dl.length with hlt | hge
    · have hall : ∀ i < dl.length, i ≠ 3 → (keyAt dl i).bind Key.parameter? ≠ some "a".toList := by
        decide
      exact hall i hlt hi
    · rw [keyAt_of_length_le hge]
      exact nofun
  exact ⟨hmarker, honly, check_separateLines_eq pre post (by decide) "  ".toList "a".toList
    "dict[str, (int]".toList "one".toList (by decide) (by decide) (by decide) (by decide)
    (by decide) (by decide) hmarker honly⟩

end FieldLint
