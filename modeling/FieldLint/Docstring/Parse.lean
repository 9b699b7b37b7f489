import FieldLint.Docstring.Directive
import FieldLint.Docstring.Field
import FieldLint.Docstring.Fold

/-!
# Docstrings with a field list

A docstring is read line by line.

* **Lines.** A line outside explicit markup that opens with a marker is a marker line.
* **Sections.** A marker line and the lines up to the next marker line form a section. Its first
  lines, as long as they are blank or indented deeper than the marker, continue the field; the
  others are prose.
* **Description and epilogue.** What stands before the first marker line is the description; the
  prose of the sections is the epilogue.
* **Records.** Each section leaves one record. A field that repeats the key of an earlier one takes
  its place in the table, and the earlier one is kept as a duplicate.
-/

namespace FieldLint

/-! ## Lines and sections -/

/-- A line of a docstring. -/
structure DocLine where
  /-- its number, the first line being 1 -/
  number : Nat
  /-- the line itself -/
  text : Text
  /-- the marker it opens with -/
  marker : Option Marker
  deriving DecidableEq, Repr

namespace DocLine

/-- The line has nothing but blanks. -/
def isBlank (l : DocLine) : Bool :=
  Text.isBlank l.text

/-- How far the line is indented. -/
def indent (l : DocLine) : Nat :=
  Text.indent l.text

/-- The line opens no field. -/
def isPlain (l : DocLine) : Bool :=
  l.marker.isNone

end DocLine

/-- Number the lines of a docstring and find the markers outside explicit markup. -/
def docLines (texts : List Text) : List DocLine :=
  ((texts.zip (directiveFlags none texts)).zipIdx 1).map fun ((text, inDirective), number) =>
    ⟨number, text, if inDirective then none else Marker.ofLine? text⟩

/-- A marker line with the plain lines that follow it. -/
structure FieldSection where
  /-- the marker -/
  marker : Marker
  /-- the marker line -/
  opener : DocLine
  /-- the lines up to the next marker line -/
  body : List DocLine
  deriving DecidableEq, Repr

namespace FieldSection

/-- The line can continue the field: it is blank or indented deeper than the marker. -/
def admits (s : FieldSection) (l : DocLine) : Bool :=
  l.isBlank || s.opener.indent < l.indent

/-- The lines that continue the field. -/
def continuation (s : FieldSection) : List DocLine :=
  s.body.takeWhile s.admits

/-- The prose after the field: the other lines that are not blank, trimmed. -/
def prose (s : FieldSection) : List Text :=
  ((s.body.dropWhile s.admits).filter (!·.isBlank)).map (Text.trim ·.text)

/-- What the field says. -/
def text (s : FieldSection) : Text :=
  foldText (s.marker.rest :: s.continuation.map (·.text))

/-- What the section leaves behind. -/
def record (s : FieldSection) : Record :=
  s.marker.record s.text s.opener.number

end FieldSection

/-- The sections of a list of lines, in order. -/
def fieldSections : List DocLine → List FieldSection
  | [] => []
  | line :: rest =>
    match line.marker with
    | none => fieldSections rest
    | some marker => ⟨marker, line, rest.takeWhile DocLine.isPlain⟩ :: fieldSections rest

/-! ## The table of fields -/

/-- The fields of a docstring in order of the first appearance of their keys. -/
abbrev FieldTable := List DocField

namespace FieldTable

/-- The field with a key. Keys are compared by the words that stand for them. -/
def find? (table : FieldTable) (key : Key) : Option DocField :=
  List.find? (fun f => f.key.text == key.text) table

/-- Put a field in the place of the one with its key, or at the end if there is none. -/
def put (table : FieldTable) (f : DocField) : FieldTable :=
  if (find? table f.key).isSome then table.map fun g => if g.key.text = f.key.text then f else g
  else table ++ [f]

end FieldTable

/-- The records of a docstring, sorted into their lists. -/
structure FieldList where
  /-- the last field with each key, in order of first appearance -/
  fields : FieldTable
  /-- the fields that a later one with the same key replaced -/
  duplicates : List DocField
  /-- the fields without a subject -/
  malformed : List MalformedField
  deriving DecidableEq, Repr

namespace FieldList

/-- No record yet. -/
def empty : FieldList := ⟨[], [], []⟩

/-- Add the record of one more marker line. -/
def add (l : FieldList) : Record → FieldList
  | .malformed m => { l with malformed := l.malformed ++ [m] }
  | .field f =>
    { l with
      fields := l.fields.put f
      duplicates := l.duplicates ++ (l.fields.find? f.key).toList }

/-- The lists of a sequence of records. -/
def ofRecords (records : List Record) : FieldList :=
  records.foldl add empty

end FieldList

/-! ## Parsing -/

/-- A docstring, read. -/
structure Docstring extends FieldList where
  /-- the text before the first marker line, trimmed -/
  description : Text
  /-- the prose after the fields -/
  epilogue : Text
  deriving DecidableEq, Repr

namespace Docstring

/-- Read a docstring from its lines. -/
def ofLines (lines : List DocLine) : Docstring :=
  let sections := fieldSections lines
  { toFieldList := FieldList.ofRecords (sections.map FieldSection.record)
    description := Text.trim (Text.unlines ((lines.takeWhile DocLine.isPlain).map (·.text)))
    epilogue := Text.unlines (sections.flatMap FieldSection.prose) }

/-- Read a docstring. Every text can be read. -/
def parse (text : Text) : Docstring :=
  ofLines (docLines (Text.lines text))

/-! ## Looking things up -/

/-- The field that describes a parameter. -/
def paramField? (d : Docstring) (name : Text) : Option DocField :=
  (d.fields.find? ⟨.param, some name⟩).filter (·.subject.tag == .param)

/-- The field that gives the type of a parameter. -/
def typeField? (d : Docstring) (name : Text) : Option DocField :=
  (d.fields.find? ⟨.type, some name⟩).filter (·.subject.tag == .type)

/-- The field that describes the value returned. -/
def returnField? (d : Docstring) : Option DocField :=
  d.fields.find? ⟨.returns, none⟩

/-- The field that gives the type of the value returned. -/
def rtypeField? (d : Docstring) : Option DocField :=
  d.fields.find? ⟨.rtype, none⟩

/-- The parameters that fields are about, each once, in order of first appearance. -/
def parameterNames (d : Docstring) : List Text :=
  (d.fields.filterMap fun f => f.subject.parameter?).eraseDups

end Docstring

/-- What a docstring says about one parameter. -/
structure ParameterDoc where
  /-- some field describes the parameter -/
  documented : Bool
  /-- the description, empty without one -/
  description : Text
  /-- the type, given with the description or in a field of its own -/
  type : Option Text
  deriving DecidableEq, Repr

/-- What a docstring says about the parameter `name`. A type given with the description wins over
one in a field of its own, and an empty type is none. -/
def Docstring.parameterDoc (d : Docstring) (name : Text) : ParameterDoc :=
  let param := d.paramField? name
  let declared := (d.typeField? name).bind fun f => Text.nonempty? f.text
  { documented := param.isSome
    description := (param.map (·.text)).getD []
    type := (param.bind fun f => f.subject.typeHint?).or declared }

end FieldLint
