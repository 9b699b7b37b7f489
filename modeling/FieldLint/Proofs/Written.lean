import Mathlib.Data.List.TakeWhile
import Mathlib.Tactic.MkIffOfInductiveProp
import FieldLint.Proofs.MarkerGrammar
import FieldLint.Proofs.Records
import FieldLint.Proofs.Scan

/-!
# Writing fields and reading them back

A field can be written on one line: its label between two colons, a space and its text. This module
says when the line tells everything about the field.

* **Words** — `IsName` and `IsPhrase` are the texts that can stand between the colons as the name of
  a parameter, and as a type or an exception.
* **Markers** — `Marker.ofLine?_written`: a written marker is read back, however far it is indented.
* **Fields** — `Subject.written` is the line of a field, and `Subject.subject?_marker` says that the
  subject is found again in its marker, through parentheses, stars and blanks.
* **Docstrings** — `parse_written`: a docstring made of written fields is read as these fields.
-/

namespace FieldLint

/-! ## Names and phrases -/

/-- A name that a marker can give to a parameter: not empty, without blanks and colons, and without
a star in front. -/
@[mk_iff] structure IsName (name : Text) : Prop where
  ne_nil : name ≠ []
  notBlank : ∀ c ∈ name, Text.isBlankChar c = false
  colon_notMem : ':' ∉ name
  head_ne_star : name.head? ≠ some '*'

/-- A text that can be the whole argument of a marker: not empty, trimmed, without colons and on one
line. -/
@[mk_iff] structure IsPhrase (phrase : Text) : Prop where
  ne_nil : phrase ≠ []
  trim_eq : Text.trim phrase = phrase
  colon_notMem : ':' ∉ phrase
  newline_notMem : '\n' ∉ phrase

instance (name : Text) : Decidable (IsName name) :=
  decidable_of_iff (name ≠ [] ∧ name.all (!Text.isBlankChar ·) = true ∧ ':' ∉ name ∧
    name.head? ≠ some '*') (by simp [isName_iff])

instance (phrase : Text) : Decidable (IsPhrase phrase) :=
  decidable_of_iff _ (isPhrase_iff phrase).symm

theorem IsName.isPhrase {name : Text} (h : IsName name) : IsPhrase name where
  ne_nil := h.ne_nil
  trim_eq := Text.trim_of_notBlank h.notBlank
  colon_notMem := h.colon_notMem
  newline_notMem hmem := absurd (h.notBlank '\n' hmem) (by decide)

/-- The argument `(hint) name`. -/
def combinedArgument (hint name : Text) : Text :=
  '(' :: (hint ++ ')' :: ' ' :: name)

theorem isPhrase_combinedArgument {hint name : Text} (hhint : IsPhrase hint) (hname : IsName name) :
    IsPhrase (combinedArgument hint name) where
  ne_nil := List.cons_ne_nil _ _
  trim_eq := by
    -- the name ends in a character that is not blank
    obtain ⟨before, last, rfl⟩ := (List.eq_nil_or_concat' name).resolve_left hname.ne_nil
    have hlast := hname.notBlank last (by simp)
    have heq : combinedArgument hint (before ++ [last]) =
        '(' :: ((hint ++ ')' :: ' ' :: before) ++ [last]) := by
      simp [combinedArgument]
    rw [heq, Text.trim_eq_self (by decide) hlast]
  colon_notMem := by
    simp [combinedArgument, hhint.colon_notMem, hname.colon_notMem]
  newline_notMem := by
    simp [combinedArgument, hhint.newline_notMem, hname.isPhrase.newline_notMem]

/-! ## Reading arguments -/

theorem stripStars_of_isName {name : Text} (h : IsName name) : stripStars name = name := by
  have hstar := h.head_ne_star
  unfold stripStars
  split <;> simp_all

/-- A word after a space is the last one. -/
theorem lastWord_append {name : Text} (h : ∀ c ∈ name, Text.isBlankChar c = false) (t : Text) :
    lastWord (t ++ ' ' :: name) = name ∧ beforeLastWord (t ++ ' ' :: name) = t ++ [' '] := by
  have hrev : (t ++ ' ' :: name).reverse = name.reverse ++ ' ' :: t.reverse := by simp
  have hname : ∀ c ∈ name.reverse, (!Text.isBlankChar c) = true := by
    intro c hc
    simp [h c (List.mem_reverse.mp hc)]
  constructor
  · rw [lastWord, hrev, List.takeWhile_append_of_pos hname,
      List.takeWhile_cons_of_neg (by decide), List.append_nil, List.reverse_reverse]
  · rw [beforeLastWord, hrev, List.dropWhile_append_of_pos hname,
      List.dropWhile_cons_of_neg (by decide)]
    simp

/-- A type and a name that are written together are read apart again. -/
theorem readParameter_combinedArgument {hint name : Text} (hhint : IsPhrase hint)
    (hname : IsName name) : readParameter (combinedArgument hint name) = (name, some hint) := by
  have hsplit : combinedArgument hint name = ('(' :: (hint ++ [')'])) ++ ' ' :: name := by
    simp [combinedArgument]
  obtain ⟨hlast, hbefore⟩ := lastWord_append hname.notBlank ('(' :: (hint ++ [')']))
  have htrim : Text.trim (('(' :: (hint ++ [')'])) ++ [' ']) = '(' :: (hint ++ [')']) := by
    have hpad : Text.Padded ('(' :: (hint ++ [')'])) (('(' :: (hint ++ [')'])) ++ [' ']) :=
      ⟨[' '], by decide, rfl⟩
    rw [hpad.trim_eq, Text.trim_eq_self (by decide) (by decide)]
  have hstrip : stripParentheses ('(' :: (hint ++ [')'])) = hint := by
    simp [stripParentheses, hhint.trim_eq]
  rw [readParameter, hsplit, hlast, hbefore, htrim, hstrip, stripStars_of_isName hname,
    Text.nonempty?_eq_some_iff.mpr ⟨rfl, hhint.ne_nil⟩]

/-- A name alone is read as the name, without a type. -/
theorem readParameter_of_isName {name : Text} (h : IsName name) :
    readParameter name = (name, none) := by
  have hall : ∀ c ∈ name.reverse, (!Text.isBlankChar c) = true := by
    intro c hc
    simp [h.notBlank c (List.mem_reverse.mp hc)]
  have hlast : lastWord name = name := by
    rw [lastWord, List.takeWhile_eq_self_iff.mpr hall, List.reverse_reverse]
  have hbefore : beforeLastWord name = [] := by
    rw [beforeLastWord, List.dropWhile_eq_nil_iff.mpr hall, List.reverse_nil]
  rw [readParameter, hlast, hbefore, stripStars_of_isName h]
  rfl

/-! ## Writing markers -/

namespace Marker

/-- The line of a marker: its label between colons, a space and the text. -/
def written (m : Marker) : Text :=
  ':' :: (m.label ++ ':' :: ' ' :: m.rest)

/-- A marker whose parts can be told apart once it is written. -/
structure Writable (m : Marker) : Prop where
  /-- the tag is a word -/
  tag_ne_nil : m.tag ≠ []
  /-- of letters and underscores -/
  isTagChar_of_mem : ∀ c ∈ m.tag, isTagChar c = true
  /-- the argument is a phrase -/
  isPhrase_argument : ∀ a, m.argument = some a → IsPhrase a
  /-- the text is on one line -/
  isTerminator_of_mem : ∀ c ∈ m.rest, Text.isTerminator c = false

variable {m : Marker} (hm : m.Writable)

include hm

theorem colon_notMem_label : ':' ∉ m.label := by
  have htag : ':' ∉ m.tag := fun hmem => absurd (hm.isTagChar_of_mem ':' hmem) (by decide)
  unfold label
  rcases ha : m.argument with _ | a
  · exact htag
  · simp [htag, (hm.isPhrase_argument a ha).colon_notMem]

/-- A label is read as its tag and its argument. -/
theorem readHead_label : readHead m.label = some (m.tag, m.argument) := by
  have hhead : ∀ tail, atGap tail = true → IsHead [] m.tag tail := fun tail hgap =>
    ⟨rfl, hm.tag_ne_nil, hm.isTagChar_of_mem, atGap_iff.mp hgap⟩
  rw [readHead_eq_some_iff]
  unfold label
  rcases ha : m.argument with _ | a
  · -- the tag is all there is
    exact ⟨[], [], hhead [] rfl, by simp, rfl⟩
  · -- the tag ends at the space before the argument
    have hphrase := hm.isPhrase_argument a ha
    have htrim : Text.trim (' ' :: a) = a := by
      rw [Text.trim_cons_of_isBlankChar (by decide), hphrase.trim_eq]
    refine ⟨[], ' ' :: a, hhead (' ' :: a) rfl, rfl, ?_⟩
    rw [htrim, Text.nonempty?_eq_some_iff.mpr ⟨rfl, hphrase.ne_nil⟩]

/-- After a space a text on one line is the text of a field, with or without blanks at its end. -/
theorem isFieldText_rest : isFieldText (Text.trimEnd (' ' :: m.rest)) = true := by
  obtain ⟨rest, hrest⟩ := Text.trimEnd_isPrefix (' ' :: m.rest)
  have hhead : (Text.trimEnd (' ' :: m.rest)).head? ≠ some '\x60' := by
    rcases ht : Text.trimEnd (' ' :: m.rest) with _ | ⟨c, t⟩
    · simp
    · rw [ht, List.cons_append, List.cons.injEq] at hrest
      rw [List.head?_cons, hrest.1]
      decide
  refine isFieldText_iff.mpr ⟨hhead, fun c hc => ?_⟩
  rcases List.mem_cons.mp ((Text.trimEnd_isPrefix _).subset hc) with rfl | hc
  · decide
  · exact hm.isTerminator_of_mem c hc

/-- **A written marker is read back**, wherever its line is indented to; its text is trimmed. -/
theorem ofLine?_written {w : Text} (hw : Text.isBlank w = true) :
    ofLine? (w ++ m.written) = some { m with rest := Text.trim m.rest } := by
  have hcolon : Text.isBlankChar ':' = false := by decide
  have htrim : Text.trim (w ++ m.written) =
      ':' :: (m.label ++ ':' :: Text.trimEnd (' ' :: m.rest)) := by
    rw [Text.trim, Text.trimStart_append_of_isBlank hw, written,
      Text.trimStart_cons_of_notBlank hcolon, ← List.cons_append, Text.trimEnd_append_cons hcolon,
      List.cons_append]
  have hrest : Text.trim (Text.trimEnd (' ' :: m.rest)) = Text.trim m.rest := by
    rw [← (Text.padded_trimEnd _).trim_eq, Text.trim_cons_of_isBlankChar (by decide)]
  exact ofTrimmed?_eq_some_iff.mpr ⟨m.label, Text.trimEnd (' ' :: m.rest), htrim,
    colon_notMem_label hm, isFieldText_rest hm, readHead_label hm, hrest.symm⟩

end Marker

/-! ## Writing fields -/

namespace Tag

theorem name_ne_nil (tag : Tag) : tag.name ≠ [] := by
  cases tag <;> decide

theorem isTagChar_of_mem_name (tag : Tag) : ∀ c ∈ tag.name, Marker.isTagChar c = true := by
  rw [← List.all_eq_true]
  cases tag <;> decide

/-- The name of a tag is one of its spellings. -/
theorem ofSpelling?_name (tag : Tag) : ofSpelling? tag.name = some tag := by
  cases tag <;> decide

end Tag

namespace Subject

/-- The argument with which a marker names the subject. -/
def argument? : Subject → Option Text
  | param name none => some name
  | param name (some hint) => some (combinedArgument hint name)
  | type name => some name
  | returns => none
  | rtype => none
  | raises exception => exception

/-- The marker of a field about the subject. -/
def marker (s : Subject) (text : Text) : Marker :=
  ⟨s.tag.name, s.argument?, text⟩

/-- A field about the subject on one line: `:param (hint) name: text`, `:param name: text`,
`:type name: text`, `:return: text`, `:rtype: text`, `:raises name: text` or `:raises: text`. -/
def written (s : Subject) (text : Text) : Text :=
  (s.marker text).written

/-- The subject can be told from its marker: parameters have names, hints and exceptions are
phrases. -/
def Writable : Subject → Prop
  | param name hint => IsName name ∧ ∀ h, hint = some h → IsPhrase h
  | type name => IsName name
  | returns => True
  | rtype => True
  | raises exception => ∀ e, exception = some e → IsPhrase e

instance : DecidablePred Writable
  | param name hint => inferInstanceAs (Decidable (IsName name ∧ ∀ h ∈ hint, IsPhrase h))
  | type name => inferInstanceAs (Decidable (IsName name))
  | returns => inferInstanceAs (Decidable True)
  | rtype => inferInstanceAs (Decidable True)
  | raises exception => inferInstanceAs (Decidable (∀ e ∈ exception, IsPhrase e))

theorem isPhrase_argument {s : Subject} (hs : s.Writable) {a : Text} (ha : s.argument? = some a) :
    IsPhrase a := by
  rcases s with ⟨name, _ | hint⟩ | name | _ | _ | exception
  · cases ha
    exact hs.1.isPhrase
  · cases ha
    exact isPhrase_combinedArgument (hs.2 hint rfl) hs.1
  · cases ha
    exact IsName.isPhrase hs
  · cases ha
  · cases ha
  · exact hs a ha

/-- The marker of a field that can be written can be written. -/
theorem writable_marker {s : Subject} (hs : s.Writable) {text : Text} (ht : text.OneLine) :
    (s.marker text).Writable where
  tag_ne_nil := s.tag.name_ne_nil
  isTagChar_of_mem := s.tag.isTagChar_of_mem_name
  isPhrase_argument _ ha := isPhrase_argument hs ha
  isTerminator_of_mem := ht

/-- The marker of a field about a subject is about that subject. -/
theorem subject?_marker {s : Subject} (hs : s.Writable) (text : Text) :
    (s.marker text).subject? = some s := by
  have htag : Tag.ofSpelling? (s.marker text).tag = some s.tag := s.tag.ofSpelling?_name
  rw [Marker.subject?, htag]
  rcases s with ⟨name, _ | hint⟩ | name | _ | _ | exception
  · simp [tag, marker, argument?, readParameter_of_isName hs.1]
  · simp [tag, marker, argument?, readParameter_combinedArgument (hs.2 hint rfl) hs.1]
  · simp [tag, marker, argument?, readParameter_of_isName hs]
  · rfl
  · rfl
  · rfl

/-- The marker of a field leaves that field. -/
theorem record_marker {s : Subject} (hs : s.Writable) (rest text : Text) (line : Nat) :
    (s.marker rest).record text line = .field ⟨s, text, line⟩ := by
  rw [Marker.record, subject?_marker hs]

section Line

variable {s : Subject} {text w : Text}

/-- The line of a field about a subject is read as a marker about that subject. -/
theorem ofLine?_written (hs : s.Writable) (ht : text.OneLine) (hw : Text.isBlank w = true) :
    Marker.ofLine? (w ++ s.written text) = some (s.marker (Text.trim text)) :=
  Marker.ofLine?_written (writable_marker hs ht) hw

theorem indent_written (s : Subject) (text : Text) (hw : Text.isBlank w = true) :
    Text.indent (w ++ s.written text) = w.length := by
  have hblank : ∀ c ∈ w, Text.isBlankChar c = true := by simpa [Text.isBlank] using hw
  rw [Text.indent, List.takeWhile_append_of_pos hblank, written, Marker.written,
    List.takeWhile_cons_of_neg (by decide), List.append_nil]

/-- A field is written on one line. -/
theorem newline_notMem_written (hs : s.Writable) (ht : text.OneLine) :
    '\n' ∉ s.written text := by
  have htag : '\n' ∉ s.tag.name := fun hmem =>
    absurd (s.tag.isTagChar_of_mem_name _ hmem) (by decide)
  have hlabel : '\n' ∉ (s.marker text).label := by
    unfold Marker.label
    rcases ha : (s.marker text).argument with _ | a
    · exact htag
    · simp [marker, htag, (isPhrase_argument hs ha).newline_notMem]
  have hrest : '\n' ∉ (s.marker text).rest := fun hmem => absurd (ht _ hmem) (by decide)
  simp [written, Marker.written, hlabel, hrest]

/-- The line of a field ends in its text or in the space before it. -/
theorem getLast?_written_ne (ht : text.OneLine) :
    (w ++ s.written text).getLast? ≠ some '\r' := by
  have hsplit : w ++ s.written text =
      (w ++ ':' :: ((s.marker text).label ++ [':'])) ++ ' ' :: text := by
    simp [written, Marker.written, marker]
  intro hlast
  rw [hsplit, List.getLast?_append_of_ne_nil _ (List.cons_ne_nil _ _)] at hlast
  rcases List.mem_cons.mp (List.mem_of_getLast? hlast) with h | h
  · cases h
  · exact absurd (ht _ h) (by decide)

end Line

end Subject

/-! ## Lists of fields -/

namespace DocField

/-- The field on one line. -/
def written (f : DocField) : Text :=
  f.subject.written f.text

/-- The field can be read back from its line: its subject can be told from its marker, and its text
is trimmed and on one line. -/
@[mk_iff] structure Writable (f : DocField) : Prop where
  writable_subject : f.subject.Writable
  trim_text : Text.trim f.text = f.text
  oneLine_text : f.text.OneLine

instance (f : DocField) : Decidable f.Writable :=
  decidable_of_iff _ (writable_iff f).symm

end DocField

/-- Fields on the lines that follow each other from `number` on. -/
def numbered (number : Nat) (fs : List DocField) : List DocField :=
  (fs.zipIdx number).map fun (f, i) => { f with line := i }

/-- Folding one trimmed piece changes nothing. -/
theorem foldText_singleton {t : Text} (h : Text.trim t = t) : foldText [t] = t := by
  rcases t with _ | ⟨c, t⟩
  · rfl
  · simp [foldText, h]

/-- What a field says whose marker is indented by `depth`: the rest of the marker line and the lines
that continue it. -/
def continuedText (depth : Nat) (rest : Text) (body : List DocLine) : Text :=
  foldText (rest :: (body.takeWhile fun l => l.isBlank || depth < l.indent).map (·.text))

/-- A field without further lines says what its marker line says. -/
theorem continuedText_nil {rest : Text} (h : Text.trim rest = rest) (depth : Nat) :
    continuedText depth rest [] = rest :=
  foldText_singleton h

/-- The record of a section that opens with a written field. -/
theorem Subject.record_written {s : Subject} (hs : s.Writable) {w : Text}
    (hw : Text.isBlank w = true) (text rest : Text) (number : Nat) (m : Option Marker)
    (body : List DocLine) :
    (FieldSection.mk (s.marker rest) ⟨number, w ++ s.written text, m⟩ body).record =
      .field ⟨s, continuedText w.length rest body, number⟩ := by
  rw [FieldSection.record, record_marker hs, FieldSection.text, FieldSection.continuation,
    continuedText, ← s.indent_written text hw]
  rfl

/-- Where no key comes twice, the table is the sequence of fields itself. -/
theorem groupTable_of_nodup {fs : List DocField} (h : (fs.map DocField.key).Nodup) :
    groupTable fs = fs := by
  induction fs using List.reverseRecOn with
  | nil => rfl
  | append_singleton fs f ih =>
    rw [List.map_append, List.map_singleton, List.nodup_append] at h
    have hnew : lastField? fs f.key = none := by
      rw [lastField?_eq_none_iff]
      intro g hg hkey
      exact h.2.2 _ (List.mem_map_of_mem hg) _ (List.mem_singleton.mpr rfl) hkey
    rw [← put_groupTable, FieldTable.put_eq, find?_groupTable, hnew, ih h.1]
    rfl

/-- A written field is a marker line at the margin. -/
theorem DocField.Writable.scanLines_cons {f : DocField} (hf : f.Writable) (number : Nat)
    (block : Option Nat) (ls : List Text) :
    scanLines number block (f.written :: ls) =
      ⟨number, f.written, some (f.subject.marker f.text)⟩ :: scanLines (number + 1) none ls := by
  have hmarker : Marker.ofLine? f.written = some (f.subject.marker f.text) := by
    have h := Subject.ofLine?_written (w := []) hf.writable_subject hf.oneLine_text rfl
    rwa [hf.trim_text] at h
  exact scanLines_cons_marker hmarker (f.subject.indent_written (w := []) f.text rfl) number block
    ls

/-- Each written field is a section of its own: it leaves its record, and no prose. -/
theorem fieldSections_written {fs : List DocField} (hfs : ∀ f ∈ fs, f.Writable) (number : Nat)
    (block : Option Nat) :
    let dl := scanLines number block (fs.map DocField.written)
    (fieldSections dl).map FieldSection.record = (numbered number fs).map .field ∧
      (fieldSections dl).flatMap FieldSection.prose = [] ∧ dl.takeWhile DocLine.isPlain = [] := by
  induction fs generalizing number block with
  | nil => exact ⟨rfl, rfl, rfl⟩
  | cons f fs ih =>
    rw [List.forall_mem_cons] at hfs
    obtain ⟨hrecords, hprose, hhead⟩ := ih hfs.2 (number + 1) none
    have hrecord : (FieldSection.mk (f.subject.marker f.text)
        ⟨number, f.written, some (f.subject.marker f.text)⟩ []).record =
          .field { f with line := number } := by
      have h := Subject.record_written (w := []) hfs.1.writable_subject rfl f.text f.text number
        (some (f.subject.marker f.text)) []
      rwa [continuedText_nil hfs.1.trim_text] at h
    simp only [List.map_cons, hfs.1.scanLines_cons, fieldSections, hhead]
    refine ⟨?_, ?_, rfl⟩
    · rw [hrecord, hrecords]
      rfl
    · rw [List.flatMap_cons, hprose]
      rfl

/-- Fields with different keys go to the table one after the other. -/
theorem FieldList.ofRecords_map_field {fs : List DocField} (h : (fs.map DocField.key).Nodup) :
    ofRecords (fs.map .field) = ⟨fs, [], []⟩ := by
  have hfields : fieldsOf (fs.map .field) = fs := by
    rw [fieldsOf, List.filterMap_map]
    exact List.filterMap_some
  have hmalformed : (fs.map Record.field).filterMap Record.malformed? = [] := by
    simp [Record.malformed?]
  rw [ofRecords_eq, hfields, hmalformed, groupTable_of_nodup h, (replaced_eq_nil_iff fs).mpr h]

/-- Numbering fields keeps their keys. -/
theorem map_key_numbered (number : Nat) (fs : List DocField) :
    (numbered number fs).map DocField.key = fs.map DocField.key := by
  induction fs generalizing number with
  | nil => rfl
  | cons f fs ih => exact congrArg (f.key :: ·) (ih (number + 1))

/-- Written lines are cut where they were joined. -/
theorem lines_written {fs : List DocField} (hfs : ∀ f ∈ fs, f.Writable) (hne : fs ≠ []) :
    Text.lines (Text.unlines (fs.map DocField.written)) = fs.map DocField.written := by
  refine Text.lines_unlines (by simpa using hne) fun l hl => ?_
  obtain ⟨f, hf, rfl⟩ := List.mem_map.mp hl
  have h := hfs f hf
  exact ⟨Subject.newline_notMem_written h.writable_subject h.oneLine_text,
    Subject.getLast?_written_ne (w := []) h.oneLine_text⟩

/-- **Reading undoes writing.** A docstring made of the lines of fields with different keys holds
these fields in their order, each on its own line, and nothing else. -/
theorem parse_written (fs : List DocField) (hkeys : (fs.map DocField.key).Nodup)
    (hfs : ∀ f ∈ fs, f.Writable) :
    Docstring.parse (Text.unlines (fs.map DocField.written)) =
      { fields := numbered 1 fs
        duplicates := []
        malformed := []
        description := []
        epilogue := [] } := by
  by_cases hne : fs = []
  · -- nothing written is the empty text, which is one blank line
    rw [hne]
    rfl
  · obtain ⟨hrecords, hprose, hhead⟩ := fieldSections_written hfs 1 none
    rw [Docstring.parse, lines_written hfs hne, Docstring.ofLines, docLines_eq_scanLines, hrecords,
      hprose, hhead, FieldList.ofRecords_map_field (by rwa [map_key_numbered])]
    rfl

/-- Fields of every form, with parentheses, backticks and colons where they could be misread. -/
def sumFields : List DocField :=
  [⟨.param "a".toList (some "dict[str, (int]".toList), ":type b: one".toList, 9⟩,
    ⟨.param "b".toList none, "`two`".toList, 9⟩,
    ⟨.type "b".toList, "int or :class:`Sum`".toList, 9⟩,
    ⟨.returns, [], 9⟩,
    ⟨.rtype, "int".toList, 9⟩,
    ⟨.raises (some "Value Error".toList), "never".toList, 9⟩,
    ⟨.raises none, "(seldom)".toList, 9⟩]

/-- The fields of `sumFields`, written and read back. -/
theorem parse_written_sumFields :
    (sumFields.map DocField.key).Nodup ∧ (∀ f ∈ sumFields, f.Writable) ∧
    sumFields.map DocField.written =
      [":param (dict[str, (int]) a: :type b: one".toList, ":param b: `two`".toList,
        ":type b: int or :class:`Sum`".toList, ":return: ".toList, ":rtype: int".toList,
        ":raises Value Error: never".toList, ":raises: (seldom)".toList] ∧
    Docstring.parse (Text.unlines (sumFields.map DocField.written)) =
      { fields := numbered 1 sumFields
        duplicates := []
        malformed := []
        description := []
        epilogue := [] } := by
  have hkeys : (sumFields.map DocField.key).Nodup := by decide
  have hfields : ∀ f ∈ sumFields, f.Writable := by decide
  exact ⟨hkeys, hfields, by decide, parse_written sumFields hkeys hfields⟩

end FieldLint
