import FieldLint.Text.Lines

/-!
# Field markers

A field of a docstring opens with a marker: `:tag:` or `:tag argument:`, followed by text. The line
is trimmed first. What stands between the two colons holds no colon; it is a tag of ASCII letters
and underscores, possibly after blanks, and then nothing or a blank and the argument. The text
after the second colon stays on one line.

A backtick right after the second colon makes the line prose that opens with an inline role, such
as ``:class:`Foo` ``, and not a marker.
-/

namespace FieldLint

/-- What a marker line says. -/
structure Marker where
  /-- the word after the first colon, as written -/
  tag : Text
  /-- what follows the tag, trimmed; never empty -/
  argument : Option Text
  /-- the trimmed text after the second colon -/
  rest : Text
  deriving DecidableEq, Repr

namespace Marker

/-- A character of a tag. -/
def isTagChar (c : Char) : Bool :=
  c.isAlpha || c == '_'

/-- The text opens with a blank, or there is none of it. -/
def atGap : Text → Bool
  | [] => true
  | c :: _ => Text.isBlankChar c

/-- The text after a second colon makes the line a marker: no backtick opens it, and it has no
line terminator. -/
def isFieldText (t : Text) : Bool :=
  t.head? != some '\x60' && !t.any Text.isTerminator

/-- Read what stands between the colons as a tag and its argument. -/
def readHead (head : Text) : Option (Text × Option Text) :=
  let body := Text.trimStart head
  let tag := body.takeWhile isTagChar
  let tail := body.dropWhile isTagChar
  if !tag.isEmpty && atGap tail then some (tag, Text.nonempty? (Text.trim tail)) else none

/-- Read a trimmed line. -/
def ofTrimmed? : Text → Option Marker
  | ':' :: body =>
    match body.dropWhile (· != ':') with
    | [] => none
    | _ :: rest =>
      if isFieldText rest then
        (readHead (body.takeWhile (· != ':'))).map fun (tag, argument) =>
          ⟨tag, argument, Text.trim rest⟩
      else none
  | _ => none

/-- The marker a line opens with, if it does. -/
def ofLine? (line : Text) : Option Marker :=
  ofTrimmed? (Text.trim line)

/-- A marker as it is quoted in a message: the tag and, after a space, its argument. -/
def label (m : Marker) : Text :=
  match m.argument with
  | none => m.tag
  | some argument => m.tag ++ ' ' :: argument

end Marker

end FieldLint
