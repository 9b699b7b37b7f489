import FieldLint.Proofs.Verdict

/-!
# Names in the order of their first mention

The parameters that a docstring mentions are collected from its table, where a field that repeats a
key takes the place of the first one with that key. Both a description and a type may mention a
parameter, each any number of times. In the order of the marker lines this comes to:

* `nameAt` — the parameter that a line names, if it is a param or type marker line;
* `parameterNames_parse_eq` — the names on the lines, each once;
* `pairwise_eraseDups_filterMap_range` — of two such names the one that is mentioned first comes
  first;
* `parameterNames_firstMentions` — so it is with the names of a docstring, and with the parameters
  that are reported because the signature does not have them.
-/

namespace FieldLint

/-! ## Names on lines -/

/-- The parameter a marker names: the last word of its argument, without stars, if the marker
describes a parameter or gives its type. -/
def Marker.parameter? (m : Marker) : Option Text :=
  if Tag.ofSpelling? m.tag = some .param ∨ Tag.ofSpelling? m.tag = some .type then
    m.argument.map fun argument => stripStars (lastWord argument)
  else none

/-- The name in the subject of a marker is the one the marker mentions. -/
theorem Marker.bind_subject?_parameter? (m : Marker) :
    m.subject?.bind Subject.parameter? = m.parameter? := by
  unfold subject? parameter?
  rcases Tag.ofSpelling? m.tag with _ | (_ | _ | _ | _ | _) <;> rcases m.argument with _ | argument <;>
    rfl

/-- The parameter that line `i` names, if it is a marker line that names one. -/
def nameAt (dl : List DocLine) (i : Nat) : Option Text :=
  (lineAt dl i).marker.bind Marker.parameter?

theorem bind_keyAt_parameter? (dl : List DocLine) (i : Nat) :
    (keyAt dl i).bind Key.parameter? = nameAt dl i := by
  rw [keyAt, nameAt]
  rcases (lineAt dl i).marker with _ | m
  · rfl
  · rw [Option.bind_some, Option.bind_some, ← m.bind_subject?_parameter?, Option.bind_map]
    exact Option.bind_congr fun s _ => s.parameter?_key

theorem nameAt_of_length_le {dl : List DocLine} {i : Nat} (h : dl.length ≤ i) :
    nameAt dl i = none := by
  rw [← bind_keyAt_parameter?, keyAt_of_length_le h]
  rfl

/-- **The names of a docstring are those on its lines**, each once. -/
theorem parameterNames_parse_eq (t : Text) :
    (Docstring.parse t).parameterNames =
      ((List.range (docLines (Text.lines t)).length).filterMap
        (nameAt (docLines (Text.lines t)))).eraseDups := by
  rw [parameterNames_parse, filterMap_parameter?_eq, markedFields, map_key_fieldsOf,
    List.filterMap_filterMap]
  exact congrArg List.eraseDups (List.filterMap_congr fun i _ => bind_keyAt_parameter? _ i)

/-! ## First mentions -/

/-- Of two values that are left when a sequence is cleared of repetitions, the one that comes first
there occurs before the other does. -/
theorem pairwise_eraseDups_filterMap_range {β : Type} [BEq β] [LawfulBEq β] (f : Nat → Option β)
    (n : Nat) :
    ((List.range n).filterMap f).eraseDups.Pairwise fun a b =>
      ∃ i, f i = some a ∧ ∀ j ≤ i, f j ≠ some b := by
  classical
  induction n with
  | zero => simp
  | succ n ih =>
    rw [List.range_succ, List.filterMap_append]
    rcases hn : f n with _ | b
    · simpa [hn] using ih
    · have hlast : [n].filterMap f = [b] := by simp [hn]
      rw [hlast, eraseDups_concat]
      by_cases hb : b ∈ (List.range n).filterMap f
      · rwa [if_pos hb]
      · -- a new value comes last, and every other one occurs before it
        rw [if_neg hb, List.pairwise_append]
        refine ⟨ih, List.pairwise_singleton _ _, ?_⟩
        intro a ha b' hb'
        obtain rfl := List.mem_singleton.mp hb'
        obtain ⟨i, hi, hia⟩ := List.mem_filterMap.mp (List.mem_eraseDups.mp ha)
        refine ⟨i, hia, fun j hj hjb => hb ?_⟩
        have hjn : j < n := Nat.lt_of_le_of_lt hj (List.mem_range.mp hi)
        exact List.mem_filterMap.mpr ⟨j, List.mem_range.mpr hjn, hjb⟩

/-- A name is mentioned exactly if some line mentions it. -/
theorem mem_filterMap_nameAt {dl : List DocLine} {name : Text} :
    name ∈ (List.range dl.length).filterMap (nameAt dl) ↔ ∃ i, nameAt dl i = some name := by
  rw [List.mem_filterMap]
  refine exists_congr fun i => and_iff_right_of_imp fun h => ?_
  rw [List.mem_range]
  by_contra hi
  rw [nameAt_of_length_le (Nat.not_lt.mp hi)] at h
  cases h

/-! ## Reports -/

/-- The finding is about a parameter of the signature. -/
def Finding.IsAbout (f : Finding) (name : Text) : Prop :=
  f = .missingParam name ∨ f = .missingParamDescription name ∨ f = .missingParamType name

/-- What is found about a parameter names it. -/
theorem isAbout_of_mem_parameterFindings {doc : Docstring} {name : Text} {f : Finding}
    (h : f ∈ parameterFindings doc name) : f.IsAbout name := by
  unfold parameterFindings at h
  dsimp only at h
  split at h
  · rcases List.mem_append.mp h with h | h
    · split at h
      · exact .inr (.inl (List.mem_singleton.mp h))
      · cases h
    · split at h
      · exact .inr (.inr (List.mem_singleton.mp h))
      · cases h
  · exact .inl (List.mem_singleton.mp h)

/-- **Names in the order of their first mention.** The parameters that a docstring mentions are the
names on its param and type marker lines, each once, in the order in which they are first mentioned,
however often and in whichever form they come again. Checking the parameters of a callable reports
first what is wrong with those of its signature and then, as one error each and in that order, the
mentioned ones that the signature does not have. -/
theorem parameterNames_firstMentions (t : Text) :
    let dl := docLines (Text.lines t)
    let doc := Docstring.parse t
    let names := doc.parameterNames
    (names.Nodup ∧ (∀ name, name ∈ names ↔ ∃ i, nameAt dl i = some name) ∧
      names.Pairwise fun a b => ∃ i, nameAt dl i = some a ∧ ∀ j ≤ i, nameAt dl j ≠ some b) ∧
    ∀ (d : Declaration) (c : Callable), ∃ about : List Diagnostic,
      (parametersFindings c doc).map (Finding.report d) =
        about ++ (names.filter fun name => name ∉ c.parameters.map (·.name)).map (fun name =>
          ⟨.error, .extraParam, "Additional ':param ".toList ++ name ++ "' in docstring.".toList,
            ⟨d.name, d.line⟩⟩) ∧
      ∀ x ∈ about, ∃ p ∈ c.parameters, ∃ f : Finding, f.IsAbout p.name ∧ x = f.report d := by
  intro dl doc names
  have hnames : names = ((List.range dl.length).filterMap (nameAt dl)).eraseDups :=
    parameterNames_parse_eq t
  refine ⟨⟨?_, ?_, ?_⟩, ?_⟩
  · rw [hnames]
    exact nodup_eraseDups _
  · intro name
    rw [hnames, List.mem_eraseDups, mem_filterMap_nameAt]
  · rw [hnames]
    exact pairwise_eraseDups_filterMap_range (nameAt dl) dl.length
  · intro d c
    refine ⟨((c.parameters.map (·.name)).flatMap (parameterFindings doc)).map (Finding.report d),
      ?_, ?_⟩
    · rw [parametersFindings, List.map_append, List.map_map]
      simp only [List.contains_eq_mem, decide_not]
      rfl
    · intro x hx
      obtain ⟨f, hf, rfl⟩ := List.mem_map.mp hx
      obtain ⟨name, hname, hf⟩ := List.mem_flatMap.mp hf
      obtain ⟨p, hp, rfl⟩ := List.mem_map.mp hname
      exact ⟨p, hp, f, isAbout_of_mem_parameterFindings hf, rfl⟩

end FieldLint
