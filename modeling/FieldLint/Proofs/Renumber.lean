import FieldLint.Proofs.Verdict

/-!
# The rules do not look at line numbers

Two docstrings can say the same at different lines. `DocField.unnumbered` forgets the line of a
field, and everything the rules ask of a docstring can be told from its `unnumberedRecords`.

Two docstrings are `Alike` when looking any key up in them finds the same field but for its line.
Everything the rules report about the parameters of the signature and about the value returned is
the same for docstrings that are alike. Each of these reports depends on two keys only, so it is the
same already where docstrings are `AlikeAt` those.
-/

namespace FieldLint

/-! ## Forgetting lines -/

/-- The field without the line it stands on. -/
def DocField.unnumbered (f : DocField) : DocField :=
  { f with line := 0 }

/-- The record without the line it stands on. -/
def Record.unnumbered : Record → Record
  | field f => field f.unnumbered
  | malformed m => malformed { m with line := 0 }

@[simp] theorem DocField.key_unnumbered (f : DocField) : f.unnumbered.key = f.key := rfl

/-- Leaving the number out of a record is giving it the number 0. -/
@[simp] theorem Marker.unnumbered_record (m : Marker) (text : Text) (line : Nat) :
    (m.record text line).unnumbered = m.record text 0 := by
  unfold Marker.record
  rcases m.subject? with _ | s <;> rfl

theorem fieldsOf_map_unnumbered (rs : List Record) :
    fieldsOf (rs.map Record.unnumbered) = (fieldsOf rs).map DocField.unnumbered := by
  rw [fieldsOf, fieldsOf, List.filterMap_map, List.map_filterMap]
  apply List.filterMap_congr
  rintro (f | m) _ <;> rfl

/-- Forgetting lines and looking up go together. -/
theorem lastField?_map_unnumbered (fs : List DocField) (key : Key) :
    lastField? (fs.map DocField.unnumbered) key = (lastField? fs key).map DocField.unnumbered :=
  lastField?_map DocField.key_unnumbered fs key

/-! ## What the rules ask -/

section Ask

variable (t : Text)

/-- The records of a text, on no particular lines. -/
def unnumberedRecords : List Record :=
  (lineRecords (docLines (Text.lines t))).map Record.unnumbered

theorem fieldsOf_unnumberedRecords :
    fieldsOf (unnumberedRecords t) = (markedFields t).map DocField.unnumbered :=
  fieldsOf_map_unnumbered _

/-- A look-up finds the same fields without numbers. -/
theorem find?_unnumbered (key : Key) :
    ((Docstring.parse t).fields.find? key).map DocField.unnumbered =
      lastField? (fieldsOf (unnumberedRecords t)) key := by
  rw [find?_fields_parse, fieldsOf_unnumberedRecords, lastField?_map_unnumbered]

/-- The names that are mentioned do not depend on numbers. -/
theorem parameterNames_unnumbered :
    (Docstring.parse t).parameterNames =
      ((fieldsOf (unnumberedRecords t)).filterMap (·.subject.parameter?)).eraseDups := by
  rw [parameterNames_parse, fieldsOf_unnumberedRecords, List.filterMap_map]
  rfl

/-- The findings about the list of fields do not depend on numbers. -/
theorem fieldListFindings_unnumbered :
    fieldListFindings (Docstring.parse t) =
      ((unnumberedRecords t).filterMap Record.malformed?).map (fun m => .unknownField m.marker) ++
        (replaced (fieldsOf (unnumberedRecords t))).map
          fun f => .duplicateField f.subject.label := by
  rw [fieldListFindings, malformed_parse, duplicates_parse, fieldsOf_unnumberedRecords,
    replaced_map DocField.key_unnumbered, List.map_map, unnumberedRecords, List.filterMap_map,
    List.map_filterMap, List.map_filterMap]
  congr 1
  apply List.filterMap_congr
  rintro (f | m) _ <;> rfl

end Ask

/-- What is said about a parameter, from the two look-ups but for their lines. -/
theorem parameterDoc_unnumbered (doc : Docstring) (name : Text) {param type : Option DocField}
    (hparam : (doc.fields.find? ⟨.param, some name⟩).map DocField.unnumbered = param)
    (htype : (doc.fields.find? ⟨.type, some name⟩).map DocField.unnumbered = type) :
    doc.parameterDoc name =
      { documented := param.isSome
        description := (param.map (·.text)).getD []
        type := (param.bind (·.subject.typeHint?)).or (type.bind (Text.nonempty? ·.text)) } := by
  subst hparam htype
  rw [Docstring.parameterDoc, Docstring.paramField?_eq, Docstring.typeField?_eq]
  rcases doc.fields.find? ⟨.param, some name⟩ with _ | f <;>
    rcases doc.fields.find? ⟨.type, some name⟩ with _ | g <;> rfl

/-! ## Docstrings that are alike -/

/-- Looking one key up finds the same, but for the line. -/
def Docstring.AlikeAt (key : Key) (doc doc' : Docstring) : Prop :=
  (doc.fields.find? key).map DocField.unnumbered = (doc'.fields.find? key).map DocField.unnumbered

/-- Looking a key up finds the same, but for the line. -/
def Docstring.Alike (doc doc' : Docstring) : Prop :=
  ∀ key, (doc.fields.find? key).map DocField.unnumbered =
    (doc'.fields.find? key).map DocField.unnumbered

namespace Docstring.AlikeAt

variable {doc doc' : Docstring}

/-- Either neither docstring has the key, or the two fields say the same. -/
theorem find?_cases {key : Key} (h : AlikeAt key doc doc') :
    (doc.fields.find? key = none ∧ doc'.fields.find? key = none) ∨
      ∃ f g, doc.fields.find? key = some f ∧ doc'.fields.find? key = some g ∧ f.text = g.text := by
  unfold AlikeAt at h
  rcases hf : doc.fields.find? key with _ | f <;> rcases hg : doc'.fields.find? key with _ | g <;>
    rw [hf, hg] at h
  · exact .inl ⟨rfl, rfl⟩
  · cases h
  · cases h
  · have htext : f.unnumbered.text = g.unnumbered.text := by rw [Option.some.inj h]
    exact .inr ⟨f, g, rfl, rfl, htext⟩

/-- What is said about a parameter depends on the two keys with its name. -/
theorem parameterDoc_eq {name : Text} (hparam : AlikeAt ⟨.param, some name⟩ doc doc')
    (htype : AlikeAt ⟨.type, some name⟩ doc doc') :
    doc.parameterDoc name = doc'.parameterDoc name := by
  rw [parameterDoc_unnumbered doc name hparam htype, parameterDoc_unnumbered doc' name rfl rfl]

/-- What is found about the value returned depends on the two keys about it. -/
theorem returnsFindings_eq (hreturn : AlikeAt ⟨.returns, none⟩ doc doc')
    (hrtype : AlikeAt ⟨.rtype, none⟩ doc doc') (c : Callable) :
    returnsFindings c doc = returnsFindings c doc' := by
  unfold returnsFindings returnField? rtypeField?
  rcases hreturn.find?_cases with ⟨hr, hr'⟩ | ⟨f, g, hr, hr', ht⟩ <;>
    rcases hrtype.find?_cases with ⟨hy, hy'⟩ | ⟨x, y, hy, hy', ht'⟩ <;>
      rw [hr, hr', hy, hy']
  · simp [ht']
  · simp [ht]
  · simp [ht, ht']

end Docstring.AlikeAt

namespace Docstring.Alike

variable {doc doc' : Docstring} (h : doc.Alike doc')

include h

/-- Docstrings that are alike have the same findings about a parameter. -/
theorem parameterFindings_eq (name : Text) :
    parameterFindings doc name = parameterFindings doc' name := by
  rw [parameterFindings, parameterFindings, AlikeAt.parameterDoc_eq (h _) (h _)]

/-- Docstrings that are alike have the same findings about the value returned. -/
theorem returnsFindings_eq (c : Callable) : returnsFindings c doc = returnsFindings c doc' :=
  AlikeAt.returnsFindings_eq (h _) (h _) c

end Docstring.Alike

end FieldLint
