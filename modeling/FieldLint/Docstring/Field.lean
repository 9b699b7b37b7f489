import FieldLint.Docstring.Marker

/-!
# Fields

What a marker line stands for once its tag is understood.

* `Tag`: the five kinds of field, each with the spellings that mean it.
* `Subject`: what a field is about: a parameter, a parameter's type, the returned value, its type,
  or an exception.
* `Key`: the kind of a field and the name it is about. Two fields with the same key say the same
  thing twice.
* `DocField` and `MalformedField`: the records a marker line leaves behind.
-/

namespace FieldLint

/-! ## Tags and keys -/

/-- The kinds of field. -/
inductive Tag where
  | param
  | type
  | returns
  | rtype
  | raises
  deriving DecidableEq, Repr

namespace Tag

/-- The spelling a tag is written with in keys and messages. -/
def name : Tag → Text
  | param => "param".toList
  | type => "type".toList
  | returns => "return".toList
  | rtype => "rtype".toList
  | raises => "raises".toList

/-- Every spelling of a tag in a docstring, with the tag it means. -/
def spellings : List (Text × Tag) :=
  [("param".toList, param), ("parameter".toList, param), ("arg".toList, param),
    ("argument".toList, param), ("key".toList, param), ("keyword".toList, param),
    ("type".toList, type),
    ("return".toList, returns), ("returns".toList, returns),
    ("rtype".toList, rtype),
    ("raises".toList, raises), ("raise".toList, raises), ("except".toList, raises),
    ("exception".toList, raises)]

/-- The tag a spelling means. -/
def ofSpelling? (spelling : Text) : Option Tag :=
  spellings.lookup spelling

end Tag

/-- What makes two fields the same: the tag and the name. -/
structure Key where
  /-- the kind of field -/
  tag : Tag
  /-- the name it is about, if it has one -/
  name : Option Text
  deriving DecidableEq, Repr

/-- A key in one word: the tag, or the tag and the name around a colon. -/
def Key.text (key : Key) : Text :=
  match key.name with
  | none => key.tag.name
  | some name => key.tag.name ++ ':' :: name

/-- No two tags share a name. -/
theorem Tag.name_inj {tag tag' : Tag} : tag.name = tag'.name ↔ tag = tag' := by
  cases tag <;> cases tag' <;> decide

/-- The name of a tag has no colon. -/
theorem Tag.ne_colon_of_mem_name (tag : Tag) : ∀ c ∈ tag.name, (c != ':') = true := by
  rw [← List.all_eq_true]
  cases tag <;> decide

/-- Up to its first colon, the word of a key is the name of its tag. -/
theorem Key.takeWhile_text (key : Key) : key.text.takeWhile (· != ':') = key.tag.name := by
  have happ : ∀ rest : Text, (key.tag.name ++ rest).takeWhile (· != ':') =
      key.tag.name ++ rest.takeWhile (· != ':') := fun rest =>
    List.takeWhile_append_of_pos key.tag.ne_colon_of_mem_name
  unfold text
  cases key.name with
  | none => simpa using happ []
  | some name => rw [happ, List.takeWhile_cons_of_neg (by decide), List.append_nil]

/-- Different keys have different words, whatever characters their names hold. -/
theorem Key.text_inj {key key' : Key} : key.text = key'.text ↔ key = key' := by
  refine ⟨fun h => ?_, fun h => by rw [h]⟩
  have htag : key.tag = key'.tag := by
    rw [← Tag.name_inj, ← takeWhile_text, ← takeWhile_text, h]
  obtain ⟨tag, name⟩ := key
  obtain ⟨tag', name'⟩ := key'
  obtain rfl : tag = tag' := htag
  cases name <;> cases name' <;> simp_all [text]

/-! ## What a field is about -/

/-- The subject of a field. -/
inductive Subject where
  /-- a parameter, possibly with its type -/
  | param (name : Text) (typeHint : Option Text)
  /-- the type of a parameter -/
  | type (name : Text)
  /-- the value returned -/
  | returns
  /-- the type of the value returned -/
  | rtype
  /-- an exception, possibly named -/
  | raises (exception : Option Text)
  deriving DecidableEq, Repr

namespace Subject

/-- The kind of field. -/
def tag : Subject → Tag
  | param _ _ => .param
  | type _ => .type
  | returns => .returns
  | rtype => .rtype
  | raises _ => .raises

/-- The name the field is about. -/
def name? : Subject → Option Text
  | param name _ => some name
  | type name => some name
  | returns => none
  | rtype => none
  | raises exception => exception

/-- The type given together with a parameter. -/
def typeHint? : Subject → Option Text
  | param _ typeHint => typeHint
  | _ => none

/-- The parameter the field is about. -/
def parameter? : Subject → Option Text
  | param name _ => some name
  | type name => some name
  | _ => none

/-- The key of a field with this subject. -/
def key (s : Subject) : Key :=
  ⟨s.tag, s.name?⟩

/-- The subject as it is quoted in a message: the tag and, after a space, the name. -/
def label (s : Subject) : Text :=
  match s.name? with
  | none => s.tag.name
  | some name => s.tag.name ++ ' ' :: name

end Subject

/-! ## Reading the argument of a marker -/

/-- A name without the one or two stars in front of it. -/
def stripStars : Text → Text
  | '*' :: '*' :: name => name
  | '*' :: name => name
  | name => name

/-- The inside of a text that opens with `(` and ends with `)`, trimmed; any other text itself. -/
def stripParentheses : Text → Text
  | '(' :: rest =>
    if rest.getLast? = some ')' then Text.trim rest.dropLast else '(' :: rest
  | t => t

/-- The last word of an argument. -/
def lastWord (argument : Text) : Text :=
  (argument.reverse.takeWhile (!Text.isBlankChar ·)).reverse

/-- What stands before the last word of an argument. -/
def beforeLastWord (argument : Text) : Text :=
  (argument.reverse.dropWhile (!Text.isBlankChar ·)).reverse

/-- Read `(int) a`, `int a` or `a` as a parameter name and the type before it. -/
def readParameter (argument : Text) : Text × Option Text :=
  (stripStars (lastWord argument),
    Text.nonempty? (stripParentheses (Text.trim (beforeLastWord argument))))

/-- What the field opened by a marker is about. A tag nobody knows has no subject, nor has a
parameter or type marker that names nothing. -/
def Marker.subject? (m : Marker) : Option Subject :=
  match Tag.ofSpelling? m.tag with
  | none => none
  | some .param => m.argument.map fun argument =>
      .param (readParameter argument).1 (readParameter argument).2
  | some .type => m.argument.map fun argument => .type (readParameter argument).1
  | some .returns => some .returns
  | some .rtype => some .rtype
  | some .raises => some (.raises m.argument)

/-! ## Records -/

/-- A field of a docstring. -/
structure DocField where
  /-- what the field is about -/
  subject : Subject
  /-- what it says, folded into one line -/
  text : Text
  /-- the number of the marker line, the first line being 1 -/
  line : Nat
  deriving DecidableEq, Repr

/-- The key of a field. -/
def DocField.key (f : DocField) : Key :=
  f.subject.key

/-- A field without a subject. -/
structure MalformedField where
  /-- the marker as written -/
  marker : Text
  /-- what the field says, folded into one line -/
  text : Text
  /-- the number of the marker line, the first line being 1 -/
  line : Nat
  deriving DecidableEq, Repr

/-- What one marker line leaves behind. -/
inductive Record where
  | field (f : DocField)
  | malformed (f : MalformedField)
  deriving DecidableEq, Repr

/-- The record of a marker line whose field says `text`. -/
def Marker.record (m : Marker) (text : Text) (line : Nat) : Record :=
  match m.subject? with
  | some subject => .field ⟨subject, text, line⟩
  | none => .malformed ⟨m.label, text, line⟩

end FieldLint
