import Mathlib.Tactic.MkIffOfInductiveProp
import FieldLint.Proofs.MarkerGrammar
import FieldLint.Proofs.Records

/-!
# Lines that open with an inline role

Prose may open with an inline role: names between colons and a backtick right after the last colon,
as in ``:class:`Sum` `` or, with the name of a domain in front, ``:py:class:`Sum` ``.

* **One name** — the backtick follows the second colon, so the line is no marker line.
* **Several names** — a name follows the second colon. Reading looks no further than there, so the
  line is taken for a marker line with the first name as its tag, unless its text has a line
  terminator (`OpensWithRole.ofLine?_eq`).
* **Docstrings** — a line without a marker leaves no record, and it does not end the field it is
  indented under (`Continues.of_deeper`).
-/

namespace FieldLint

/-! ## Single lines -/

/-- The names of a role with a colon after each of them. -/
def roleNames (names : List Text) : Text :=
  names.flatMap (· ++ [':'])

/-- The line opens with an inline role: a colon, names of letters and underscores with a colon after
each, a backtick, and anything. -/
@[mk_iff] structure OpensWithRole (line : Text) (names : List Text) (tail : Text) : Prop where
  /-- the role has a name -/
  names_ne_nil : names ≠ []
  /-- every name is a word -/
  name_ne_nil : ∀ name ∈ names, name ≠ []
  /-- of letters and underscores -/
  isTagChar_of_mem : ∀ name ∈ names, ∀ c ∈ name, Marker.isTagChar c = true
  /-- the trimmed line opens with the role; `tail` is what follows the backtick -/
  trim_eq : Text.trim line = ':' :: (roleNames names ++ '\x60' :: tail)

instance (line : Text) (names : List Text) (tail : Text) :
    Decidable (OpensWithRole line names tail) :=
  decidable_of_iff (names ≠ [] ∧ names.all (!·.isEmpty) = true ∧
    names.all (·.all Marker.isTagChar) = true ∧
    Text.trim line = ':' :: (roleNames names ++ '\x60' :: tail)) (by simp [opensWithRole_iff])

/-- No letter or underscore ends a line. -/
theorem Marker.isTerminator_of_isTagChar {c : Char} (h : isTagChar c = true) :
    Text.isTerminator c = false := by
  by_contra hc
  simp only [Text.isTerminator, Bool.not_eq_false, Bool.or_eq_true, beq_iff_eq] at hc
  obtain ((rfl | rfl) | rfl) | rfl := hc
  all_goals exact absurd (isBlankChar_of_isTagChar h) (by decide)

namespace OpensWithRole

variable {line tail first : Text} {others : List Text}
  (h : OpensWithRole line (first :: others) tail)

include h

theorem colon_notMem_first : ':' ∉ first := fun hmem =>
  absurd (h.isTagChar_of_mem first List.mem_cons_self ':' hmem) (by decide)

/-- What follows the second colon has a line terminator only if what follows the backtick has. -/
theorem oneLine_rest_iff : Text.OneLine (roleNames others ++ '\x60' :: tail) ↔ tail.OneLine := by
  constructor
  · intro hrest c hc
    exact hrest c (List.mem_append_right _ (List.mem_cons_of_mem _ hc))
  · intro htail c hc
    rcases List.mem_append.mp hc with hc | hc
    · obtain ⟨name, hname, hc⟩ := List.mem_flatMap.mp hc
      rcases List.mem_append.mp hc with hc | hc
      · exact Marker.isTerminator_of_isTagChar
          (h.isTagChar_of_mem name (List.mem_cons_of_mem _ hname) c hc)
      · obtain rfl := List.mem_singleton.mp hc
        rfl
    · rcases List.mem_cons.mp hc with rfl | hc
      · rfl
      · exact htail c hc

/-- A backtick follows the second colon exactly if there is one name. -/
theorem head?_rest_iff :
    (roleNames others ++ '\x60' :: tail).head? = some '\x60' ↔ others = [] := by
  constructor
  · intro hhead
    rcases others with _ | ⟨second, others⟩
    · rfl
    · obtain ⟨c, word, rfl⟩ := List.exists_cons_of_ne_nil (h.name_ne_nil second (by simp))
      have hc := h.isTagChar_of_mem (c :: word) (by simp) c List.mem_cons_self
      obtain rfl : c = '\x60' := by simpa [roleNames] using hhead
      exact absurd hc (by decide)
  · rintro rfl
    rfl

/-- The parts of a line that opens with a role, if it is a marker line. -/
theorem spells_iff (p : MarkerParts) :
    p.Spells (Text.trim line) ↔
      p = ⟨[], first, [], roleNames others ++ '\x60' :: tail⟩ ∧ others ≠ [] ∧ tail.OneLine := by
  have hline : Text.trim line = ':' :: (first ++ ':' :: (roleNames others ++ '\x60' :: tail)) := by
    simp [h.trim_eq, roleNames]
  have hhead : Marker.IsHead [] first [] :=
    ⟨rfl, h.name_ne_nil first List.mem_cons_self, h.isTagChar_of_mem first List.mem_cons_self,
      .inl rfl⟩
  constructor
  · intro hp
    -- the parts and the role cut the line at the same second colon
    have hbody := List.cons.inj (hp.eq_text.symm.trans hline)
    obtain ⟨hfirst, hrest⟩ :=
      Marker.append_colon_inj hp.colon_notMem_head h.colon_notMem_first hbody.2
    obtain ⟨hgap, htag, htail⟩ := hp.isHead.unique hhead (by simpa [MarkerParts.head] using hfirst)
    refine ⟨MarkerParts.ext hgap htag htail hrest, ?_, ?_⟩
    · rw [ne_eq, ← h.head?_rest_iff, ← hrest]
      exact hp.head?_rest
    · rw [← h.oneLine_rest_iff, ← hrest]
      exact hp.oneLine_rest
  · rintro ⟨rfl, hothers, htail⟩
    refine ⟨?_, ?_, hhead, ?_, h.oneLine_rest_iff.mpr htail⟩
    · simpa [MarkerParts.text, MarkerParts.head] using hline
    · simpa [MarkerParts.head] using h.colon_notMem_first
    · rwa [ne_eq, h.head?_rest_iff]

/-- **How a role is read.** With one name, or with a line terminator after the backtick, the line has
no marker. With more names it has: the first name is the tag, and what follows it is the text. -/
theorem ofLine?_eq :
    Marker.ofLine? line =
      if others ≠ [] ∧ tail.OneLine then
        some ⟨first, none, Text.trim (roleNames others ++ '\x60' :: tail)⟩
      else none := by
  split
  · rename_i hcond
    refine Marker.ofLine?_eq_some_iff.mpr ⟨_, (h.spells_iff _).mpr ⟨rfl, hcond⟩, rfl⟩
  · rename_i hcond
    rw [Option.eq_none_iff_forall_ne_some]
    intro m hm
    obtain ⟨p, hp, -⟩ := Marker.ofLine?_eq_some_iff.mp hm
    exact hcond ((h.spells_iff p).mp hp).2

end OpensWithRole

/-! ## Docstrings -/

/-- A plain line that is indented deeper than a marker line continues its field if all lines in
between do. -/
theorem Continues.of_deeper {dl : List DocLine} {i l : Nat} (hil : i < l)
    (hi : (lineAt dl i).isPlain = false) (hl : (lineAt dl l).isPlain = true)
    (hbetween : ∀ k < l, i < k → Continues dl i k)
    (hdeep : (lineAt dl i).indent < (lineAt dl l).indent) : Continues dl i l := by
  refine ⟨⟨hil, hi, fun k hk hik => ?_⟩, fun k hk hik hblank => ?_⟩
  · obtain hk | rfl := Nat.lt_or_eq_of_le hk
    · exact (hbetween k hk hik).1.isPlain
    · exact hl
  · obtain hk | rfl := Nat.lt_or_eq_of_le hk
    · exact (hbetween k hk hik).2 k (Nat.le_refl k) hik hblank
    · exact hdeep

section Parse

variable {t line : Text} {l : Nat} (hline : (Text.lines t)[l]? = some line)
  (hnone : Marker.ofLine? line = none)

include hline hnone

theorem isPlain_lineAt_of_ofLine? : (lineAt (docLines (Text.lines t)) l).isPlain = true := by
  rw [lineAt_docLines hline, DocLine.isPlain, hnone]
  split <;> rfl

/-- A line without a marker leaves no record. -/
theorem line_ne_of_mem_records {r : Record} (hr : r ∈ (Docstring.parse t).records) :
    r.line ≠ l + 1 := by
  intro hrl
  have hmem : r ∈ lineRecords (docLines (Text.lines t)) := by
    rw [toFieldList_parse t] at hr
    exact (FieldList.records_ofRecords_perm _).mem_iff.mp hr
  obtain ⟨i, m, hm, rfl⟩ := mem_lineRecords.mp hmem
  obtain rfl : i = l := by
    rw [Marker.line_record] at hrl
    omega
  have hplain := isPlain_lineAt_of_ofLine? hline hnone
  simp [DocLine.isPlain, hm] at hplain

end Parse

/-- **Roles in prose.** A line that opens with an inline role has no marker exactly when the role has
one name or a line terminator stands after its backtick; any other is taken for a marker line with
the first name as its tag and no argument. A line without a marker leaves no record in any docstring,
neither a field nor a duplicate nor a malformed field, and continues the field of a marker line that
it is indented under, if all lines in between do. -/
theorem parse_of_opensWithRole {line tail : Text} {names : List Text}
    (h : OpensWithRole line names tail) :
    (Marker.ofLine? line = none ↔ names.length = 1 ∨ ¬tail.OneLine) ∧
    (∀ m, Marker.ofLine? line = some m → names.head? = some m.tag ∧ m.argument = none) ∧
    (Marker.ofLine? line = none → ∀ t l, (Text.lines t)[l]? = some line →
      let dl := docLines (Text.lines t)
      (∀ r ∈ (Docstring.parse t).records, r.line ≠ l + 1) ∧
      ∀ i < l, (lineAt dl i).isPlain = false → (∀ k < l, i < k → Continues dl i k) →
        (lineAt dl i).indent < (lineAt dl l).indent → Continues dl i l) := by
  obtain ⟨first, others, rfl⟩ := List.exists_cons_of_ne_nil h.names_ne_nil
  refine ⟨?_, ?_, ?_⟩
  · have hlength : (first :: others).length = 1 ↔ others = [] := by simp
    rw [h.ofLine?_eq, hlength, ite_eq_right_iff]
    simp [imp_iff_not_or]
  · intro m hm
    rw [h.ofLine?_eq] at hm
    split at hm
    · obtain rfl := Option.some.inj hm
      exact ⟨rfl, rfl⟩
    · cases hm
  · intro hnone t l hline dl
    refine ⟨fun r hr => line_ne_of_mem_records hline hnone hr, ?_⟩
    intro i hil hi hbetween hdeep
    exact .of_deeper hil hi (isPlain_lineAt_of_ofLine? hline hnone) hbetween hdeep

/-- A role with one name goes on with the text of the field it is indented under, after a blank
line. -/
theorem parse_of_opensWithRole_sum :
    let line := "    :class:`Sum` of two".toList
    let t := ":param a: See\n\n    :class:`Sum` of two\n:return: it".toList
    OpensWithRole line ["class".toList] "Sum` of two".toList ∧ (Text.lines t)[2]? = some line ∧
      Marker.ofLine? line = none ∧ (∀ r ∈ (Docstring.parse t).records, r.line ≠ 3) ∧
      Continues (docLines (Text.lines t)) 0 2 ∧
      (Docstring.parse t).fields =
        [⟨.param "a".toList none, "See :class:`Sum` of two".toList, 1⟩,
          ⟨.returns, "it".toList, 4⟩] := by
  intro line t
  have hrole : OpensWithRole line ["class".toList] "Sum` of two".toList := by decide
  have hline : (Text.lines t)[2]? = some line := by decide
  obtain ⟨hiff, -, hprose⟩ := parse_of_opensWithRole hrole
  have hnone : Marker.ofLine? line = none := hiff.mpr (.inl rfl)
  obtain ⟨hrecords, hcontinues⟩ := hprose hnone t 2 hline
  exact ⟨hrole, hline, hnone, hrecords,
    hcontinues 0 (by decide) (by decide) (by decide) (by decide), by decide⟩

/-- A role with the name of a domain in front is taken for a marker: it opens a malformed field and
ends the field it is indented under. -/
theorem ofLine?_domain_role :
    let line := "    :py:class:`Sum` of two".toList
    let d := Docstring.parse ":param a: See\n    :py:class:`Sum` of two".toList
    OpensWithRole line ["py".toList, "class".toList] "Sum` of two".toList ∧
      Marker.ofLine? line = some ⟨"py".toList, none, "class:`Sum` of two".toList⟩ ∧
      d.fields = [⟨.param "a".toList none, "See".toList, 1⟩] ∧
      d.malformed = [⟨"py".toList, "class:`Sum` of two".toList, 2⟩] :=
  ⟨by decide, by decide, by decide, by decide⟩

end FieldLint
