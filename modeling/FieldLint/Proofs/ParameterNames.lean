import FieldLint.Proofs.Cleaned
import FieldLint.Proofs.MarkerGrammar
import FieldLint.Proofs.Mentions

/-!
# The names that fields give to parameters

A param or type marker names a parameter by the last word of its argument, without the one or two
stars in front of it.

* **Arguments** — `Marker.argument_of_ofLine?`: an argument is trimmed and has no colon, and there is
  always something of it.
* **Last words** — `EndsInWord` says which word comes last, and `endsInWord_iff` that it is the one
  that is read. The last word of an argument is never empty (`EndsInWord.word_ne_nil`).
* **Stars** — `stripStars_eq_nil_iff`: of a word made of stars alone nothing is left as a name. The
  marker has an argument all the same, so it is not malformed.
* **Docstrings** — `parse_fieldNames`: names have neither blanks nor colons, and the empty ones are
  those of stars alone.
-/

namespace FieldLint

/-! ## Arguments -/

theorem Text.mem_of_mem_trim {t : Text} {c : Char} (h : c ∈ Text.trim t) : c ∈ t :=
  (List.dropWhile_suffix _).subset ((Text.trimEnd_isPrefix _).subset h)

/-- The argument of a marker is trimmed, not empty and without colons. -/
theorem Marker.argument_of_ofLine? {line argument : Text} {m : Marker}
    (h : Marker.ofLine? line = some m) (hargument : m.argument = some argument) :
    argument ≠ [] ∧ Text.trim argument = argument ∧ ':' ∉ argument := by
  obtain ⟨p, hp, rfl⟩ := Marker.ofLine?_eq_some_iff.mp h
  by_cases hnil : Text.trim p.tail = []
  · simp [MarkerParts.marker, hnil] at hargument
  · obtain rfl : Text.trim p.tail = argument := by
      simpa [MarkerParts.marker, hnil] using hargument
    refine ⟨hnil, Text.trim_trim _, fun hmem => hp.colon_notMem_head ?_⟩
    have htail := Text.mem_of_mem_trim hmem
    exact List.mem_append_right _ (List.mem_append_right _ htail)

/-! ## Last words -/

/-- The argument ends in `word`, with `before` in front of it: no blank stands in the word, and one
stands right before it unless the word is all there is. -/
structure EndsInWord (argument before word : Text) : Prop where
  eq_append : argument = before ++ word
  notBlank_word : ∀ c ∈ word, Text.isBlankChar c = false
  isBlank_before : ∀ c, before.getLast? = some c → Text.isBlankChar c = true

/-- Every argument ends in one word, which is the one that is read. -/
theorem endsInWord_iff {argument before word : Text} :
    EndsInWord argument before word ↔
      beforeLastWord argument = before ∧ lastWord argument = word := by
  refine ⟨?_, ?_⟩
  · rintro ⟨rfl, hword, hbefore⟩
    have hstop := Text.takeWhile_dropWhile_append (p := (!Text.isBlankChar ·)) (t := word.reverse)
      (u := before.reverse) (fun c hc => by simp [hword c (List.mem_reverse.mp hc)])
      (fun c after hc => by
        have hlast : before.getLast? = some c := by rw [← List.head?_reverse, hc]; rfl
        simp [hbefore c hlast])
    rw [← List.reverse_append] at hstop
    rw [beforeLastWord, lastWord, hstop.1, hstop.2, List.reverse_reverse, List.reverse_reverse]
    exact ⟨rfl, rfl⟩
  · rintro ⟨rfl, rfl⟩
    refine ⟨?_, fun c hc => ?_, fun c hc => ?_⟩
    · rw [beforeLastWord, lastWord, ← List.reverse_append, List.takeWhile_append_dropWhile,
        List.reverse_reverse]
    · have hall := List.all_eq_true.mp (List.all_takeWhile (p := (!Text.isBlankChar ·))) c
        (List.mem_reverse.mp hc)
      simpa using hall
    · have hhead := List.head?_dropWhile_not (!Text.isBlankChar ·) argument.reverse
      rw [beforeLastWord, List.getLast?_reverse] at hc
      rw [hc] at hhead
      simpa using hhead

instance (argument before word : Text) : Decidable (EndsInWord argument before word) :=
  decidable_of_iff _ endsInWord_iff.symm

/-- The last word of a trimmed argument is a word. -/
theorem EndsInWord.word_ne_nil {argument before word : Text} (h : EndsInWord argument before word)
    (hne : argument ≠ []) (htrim : Text.trim argument = argument) : word ≠ [] := by
  rintro rfl
  obtain rfl : argument = before := by simpa using h.eq_append
  obtain ⟨init, last, rfl⟩ := (List.eq_nil_or_concat' argument).resolve_left hne
  have hlast : (init ++ [last]).getLast? = some last := List.getLast?_concat
  have hblank := h.isBlank_before last hlast
  rw [← htrim, Text.trim] at hlast
  rw [Text.getLast?_trimEnd hlast] at hblank
  cases hblank

/-! ## Stars -/

/-- One or two stars, and nothing else. -/
def IsBareStars (word : Text) : Prop :=
  word = "*".toList ∨ word = "**".toList

instance (word : Text) : Decidable (IsBareStars word) :=
  inferInstanceAs (Decidable (_ ∨ _))

theorem stripStars_isSuffix (word : Text) : stripStars word <:+ word := by
  fun_cases stripStars word with
  | case1 name => exact List.suffix_append "**".toList name
  | case2 name => exact List.suffix_cons '*' name
  | case3 => exact List.suffix_refl word

/-- Nothing is left of a word exactly if it is made of one or two stars. -/
theorem stripStars_eq_nil_iff {word : Text} (hne : word ≠ []) :
    stripStars word = [] ↔ IsBareStars word := by
  unfold IsBareStars
  fun_cases stripStars word with
  | case1 name => simp
  | case2 name htwo =>
    rcases name with _ | ⟨c, name⟩
    · simp
    · have hc : c ≠ '*' := fun hc => htwo name (by rw [hc])
      simp [hc]
  | case3 _ _ hone =>
    -- the word does not open with a star
    refine ⟨fun h => absurd h hne, ?_⟩
    rintro (rfl | rfl)
    · exact absurd rfl (hone [])
    · exact absurd rfl (hone ['*'])

/-! ## Markers -/

namespace Marker

/-- The marker should name a parameter, and the last word of its argument is made of stars alone. -/
def NamesByStars (m : Marker) : Prop :=
  (Tag.ofSpelling? m.tag = some .param ∨ Tag.ofSpelling? m.tag = some .type) ∧
    ∃ argument before word, m.argument = some argument ∧ EndsInWord argument before word ∧
      IsBareStars word

theorem parameter?_eq_some_iff {m : Marker} {name : Text} :
    m.parameter? = some name ↔
      (Tag.ofSpelling? m.tag = some .param ∨ Tag.ofSpelling? m.tag = some .type) ∧
        ∃ argument before word, m.argument = some argument ∧ EndsInWord argument before word ∧
          stripStars word = name := by
  unfold parameter?
  split
  · rename_i htag
    simp only [Option.map_eq_some_iff, endsInWord_iff, htag, true_and]
    refine ⟨?_, ?_⟩
    · rintro ⟨argument, hargument, rfl⟩
      exact ⟨argument, _, _, hargument, ⟨rfl, rfl⟩, rfl⟩
    · rintro ⟨argument, _, _, hargument, ⟨-, rfl⟩, rfl⟩
      exact ⟨argument, hargument, rfl⟩
  · rename_i htag
    simp [htag]

variable {line : Text} {m : Marker} (h : ofLine? line = some m)

include h

/-- The name that a marker gives has neither blanks nor colons. -/
theorem notMem_of_parameter? {name : Text} (hname : m.parameter? = some name) :
    (∀ c ∈ name, Text.isBlankChar c = false) ∧ ':' ∉ name := by
  obtain ⟨-, argument, before, word, hargument, hword, rfl⟩ := parameter?_eq_some_iff.mp hname
  have hsubset := (stripStars_isSuffix word).subset
  refine ⟨fun c hc => hword.notBlank_word c (hsubset hc), fun hcolon => ?_⟩
  refine (argument_of_ofLine? h hargument).2.2 ?_
  rw [hword.eq_append]
  exact List.mem_append_right _ (hsubset hcolon)

/-- A marker gives an empty name exactly if it gives stars alone. -/
theorem parameter?_eq_nil_iff : m.parameter? = some [] ↔ m.NamesByStars := by
  rw [parameter?_eq_some_iff, NamesByStars]
  refine and_congr_right fun _ => exists₃_congr fun argument before word => ?_
  refine and_congr_right fun hargument => and_congr_right fun hword => ?_
  obtain ⟨hne, htrim, -⟩ := argument_of_ofLine? h hargument
  exact stripStars_eq_nil_iff (hword.word_ne_nil hne htrim)

end Marker

/-! ## Lines and fields -/

/-- The marker of a line of a docstring is the one that the line opens with. -/
theorem exists_ofLine?_of_lineAt {ls : List Text} {i : Nat} {m : Marker}
    (h : (lineAt (docLines ls) i).marker = some m) : ∃ line, Marker.ofLine? line = some m := by
  rcases hline : ls[i]? with _ | line
  · rw [lineAt_of_length_le (by simpa using hline)] at h
    cases h
  · rw [lineAt_docLines hline] at h
    dsimp only at h
    split at h
    · cases h
    · exact ⟨line, h⟩

section Parse

variable {t : Text}

/-- The fields of a docstring and those they replaced stand on its marker lines, each about what the
marker says. -/
theorem mem_fields_append_duplicates_iff {f : DocField} :
    f ∈ (Docstring.parse t).fields ++ (Docstring.parse t).duplicates ↔
      ∃ i m, (lineAt (docLines (Text.lines t)) i).marker = some m ∧ m.subject? = some f.subject ∧
        f.text = fieldTextAt (docLines (Text.lines t)) i m ∧ f.line = i + 1 := by
  have hrecord : f ∈ (Docstring.parse t).fields ++ (Docstring.parse t).duplicates ↔
      .field f ∈ lineRecords (docLines (Text.lines t)) := by
    rw [← (records_parse_perm t).mem_iff]
    simp [FieldList.records]
  rw [hrecord, mem_lineRecords]
  refine exists₂_congr fun i m => and_congr_right fun _ => ?_
  rcases f with ⟨subject, text, line⟩
  unfold Marker.record
  rcases m.subject? with _ | s <;> simp [eq_comm]

/-- A field about a parameter stands on a line that names it. -/
theorem exists_marker_of_parameter? {f : DocField} {name : Text}
    (hf : f ∈ (Docstring.parse t).fields ++ (Docstring.parse t).duplicates)
    (hname : f.subject.parameter? = some name) :
    ∃ i m, (lineAt (docLines (Text.lines t)) i).marker = some m ∧ f.line = i + 1 ∧
      m.parameter? = some name := by
  obtain ⟨i, m, hm, hs, -, hline⟩ := mem_fields_append_duplicates_iff.mp hf
  refine ⟨i, m, hm, hline, ?_⟩
  rw [← m.bind_subject?_parameter?, hs]
  exact hname

/-- A line that names a parameter leaves a field about it. -/
theorem exists_field_of_parameter? {i : Nat} {m : Marker} {name : Text}
    (hm : (lineAt (docLines (Text.lines t)) i).marker = some m)
    (hname : m.parameter? = some name) :
    ∃ f ∈ (Docstring.parse t).fields ++ (Docstring.parse t).duplicates,
      f.line = i + 1 ∧ f.subject.parameter? = some name := by
  rw [← m.bind_subject?_parameter?, Option.bind_eq_some_iff] at hname
  obtain ⟨s, hs, hname⟩ := hname
  exact ⟨⟨s, _, i + 1⟩, mem_fields_append_duplicates_iff.mpr ⟨i, m, hm, hs, rfl, rfl⟩, rfl, hname⟩

theorem mem_parameterNames_iff {name : Text} :
    name ∈ (Docstring.parse t).parameterNames ↔
      ∃ i m, (lineAt (docLines (Text.lines t)) i).marker = some m ∧ m.parameter? = some name := by
  rw [parameterNames_parse_eq, List.mem_eraseDups, mem_filterMap_nameAt]
  simp only [nameAt, Option.bind_eq_some_iff]

end Parse

/-! ## Reports -/

/-- A parameter is reported as extra if the docstring names it and the signature does not. -/
theorem extraParam_mem_findings_iff {c : Callable} {t name : Text} :
    .extraParam name ∈ c.findings t ↔
      name ∉ c.parameters.map (·.name) ∧ name ∈ (Docstring.parse t).parameterNames := by
  have hlist : .extraParam name ∉ fieldListFindings (Docstring.parse t) := by
    simp [fieldListFindings]
  have hparam : .extraParam name ∉
      (c.parameters.map (·.name)).flatMap (parameterFindings (Docstring.parse t)) := by
    intro h
    obtain ⟨other, -, hmem⟩ := List.mem_flatMap.mp h
    rcases isAbout_of_mem_parameterFindings hmem with h | h | h <;> cases h
  have hreturns : .extraParam name ∉ returnsFindings c (Docstring.parse t) := fun h => by
    simpa using mem_of_mem_returnsFindings h
  simp only [Callable.findings, parametersFindings, List.mem_append, hlist, hparam, hreturns,
    false_or, or_false]
  simp [and_comm]

/-- The diagnostic about an extra parameter tells which parameter it is. -/
theorem Finding.report_eq_extraParam_iff {d : Declaration} {x : Finding} {name : Text} :
    x.report d = (extraParam name).report d ↔ x = .extraParam name := by
  refine ⟨fun h => ?_, fun h => by rw [h]⟩
  obtain ⟨-, hcode, hmessage, -⟩ := Diagnostic.mk.inj h
  cases x <;> cases hcode
  rw [List.append_cancel_left (List.append_cancel_right hmessage)]

/-- **The names that fields give.** The name in a param or type field, whether it was replaced or
not, has neither blanks nor colons. It is empty exactly if the last word of the argument is made of
one or two stars alone; such a marker leaves a field without a name, not a malformed one. A public
callable is told of an extra parameter with an empty name exactly if its docstring has such a marker
and its signature no such parameter. -/
theorem parse_fieldNames (t : Text) :
    let dl := docLines (Text.lines t)
    let doc := Docstring.parse t
    (∀ f ∈ doc.fields ++ doc.duplicates, ∀ name, f.subject.parameter? = some name →
      (∀ c ∈ name, Text.isBlankChar c = false) ∧ ':' ∉ name ∧
        (name = [] ↔ ∃ i m, f.line = i + 1 ∧ (lineAt dl i).marker = some m ∧ m.NamesByStars)) ∧
    (∀ i m, (lineAt dl i).marker = some m → m.NamesByStars →
      ∃ f ∈ doc.fields ++ doc.duplicates, f.line = i + 1 ∧ f.subject.parameter? = some []) ∧
    ∀ (d : Declaration) (c : Callable), d.form = .callable c → d.isPrivate = false →
      d.docstring = some t →
      ((Finding.extraParam []).report d ∈ d.check ↔
        (∀ p ∈ c.parameters, p.name ≠ []) ∧
          ∃ i m, (lineAt dl i).marker = some m ∧ m.NamesByStars) := by
  intro dl doc
  have hstars : ∀ i m, (lineAt dl i).marker = some m →
      (m.parameter? = some [] ↔ m.NamesByStars) := by
    intro i m hm
    obtain ⟨line, hline⟩ := exists_ofLine?_of_lineAt hm
    exact Marker.parameter?_eq_nil_iff hline
  refine ⟨?_, ?_, ?_⟩
  · intro f hf name hname
    obtain ⟨i, m, hm, hfi, hmname⟩ := exists_marker_of_parameter? hf hname
    obtain ⟨line, hline⟩ := exists_ofLine?_of_lineAt hm
    obtain ⟨hblank, hcolon⟩ := Marker.notMem_of_parameter? hline hmname
    refine ⟨hblank, hcolon, ?_, ?_⟩
    · rintro rfl
      exact ⟨i, m, hfi, hm, (hstars i m hm).mp hmname⟩
    · rintro ⟨j, m', hfj, hm', hstar⟩
      -- no other line has the number of the field
      obtain rfl : i = j := by omega
      obtain rfl : m = m' := Option.some.inj (hm.symm.trans hm')
      exact Option.some.inj (hmname.symm.trans ((hstars i m hm).mpr hstar))
  · intro i m hm hstar
    exact exists_field_of_parameter? hm ((hstars i m hm).mpr hstar)
  · intro d c hform hpublic hdoc
    have hreport : (Finding.extraParam []).report d ∈ d.check ↔ .extraParam [] ∈ c.findings t := by
      rw [Declaration.check_of_callable hform hpublic hdoc, List.mem_map]
      simp only [Finding.report_eq_extraParam_iff, exists_eq_right]
    rw [hreport, extraParam_mem_findings_iff, mem_parameterNames_iff]
    exact and_congr (by simp) (exists₂_congr fun i m => and_congr_right fun hm => hstars i m hm)

/-- A star alone is taken for a parameter without a name. The field is not malformed, and the
parameter is reported as one that is not there. -/
theorem parse_bare_star :
    let t := ":param *: rest".toList
    let doc := Docstring.parse t
    let d : Declaration := ⟨.callable ⟨.function, [], none, false⟩, "add".toList, 3, some t, false⟩
    doc.fields = [⟨.param [] none, "rest".toList, 1⟩] ∧ doc.malformed = [] ∧
      doc.parameterNames = [[]] ∧
      d.check = [⟨.error, .extraParam, "Additional ':param ' in docstring.".toList,
        ⟨"add".toList, 3⟩⟩] := by
  decide

end FieldLint
