import FieldLint.Report.Layout

/-!
# Console output

Colours, and the notes that tell what a run is doing.

A run says what is to be decorated and what is to be told. How that looks is not its business:
`Paint.apply` stands in the place of the `chalk` package and `Status.print` in that of the `ora`
package, whose output goes to the error output. Left out are what the first does beyond its basic
colours (other palettes, a decoration inside another) and the moving display of the second on a
terminal: without one it prints a line for each note.
-/

namespace FieldLint

namespace Command

/-- A decoration of console text. -/
inductive Paint where
  | gray
  | red
  | green
  | yellow
  | cyan
  | bold
  deriving DecidableEq, Repr

namespace Paint

/-- The number that switches the decoration on. -/
def on : Paint → Nat
  | gray => 90
  | red => 31
  | green => 32
  | yellow => 33
  | cyan => 36
  | bold => 1

/-- The number that switches the decoration off. -/
def off : Paint → Nat
  | bold => 22
  | _ => 39

/-- The control sequence with a number. -/
def sequence (n : Nat) : Text :=
  '\x1b' :: '[' :: Text.ofNat n ++ ['m']

/-- Switch the decoration off before every line end and on again after it. -/
def acrossLines (p : Paint) : Text → Text
  | [] => []
  | '\r' :: '\n' :: rest => sequence p.off ++ '\r' :: '\n' :: sequence p.on ++ acrossLines p rest
  | '\n' :: rest => sequence p.off ++ '\n' :: sequence p.on ++ acrossLines p rest
  | c :: rest => c :: acrossLines p rest

/-- Decorate a text, if there is colour and something to decorate. -/
def apply (color : Bool) (p : Paint) (t : Text) : Text :=
  if color && !t.isEmpty then sequence p.on ++ p.acrossLines t ++ sequence p.off else t

end Paint

/-- How a report looks on a console. -/
def consoleStyle (paint : Paint → Text → Text) : Style where
  divider := paint .gray
  path := paint .bold
  header := paint .cyan
  error := paint .red
  warning := paint .yellow
  summary := paint .bold

/-- Something that the display of progress is told. -/
inductive Status where
  /-- something starts -/
  | started (text : Text)
  /-- something went well -/
  | succeeded (text : Text)
  /-- something needs attention -/
  | warned (text : Text)
  /-- something went wrong -/
  | failed (text : Text)
  deriving DecidableEq, Repr

/-- The lines that the display of progress prints. -/
def Status.print (color : Bool) : Status → List Text
  | started text => ["- ".toList ++ text]
  | succeeded text => [Paint.apply color .green ['✔'] ++ ' ' :: text]
  | warned text => [Paint.apply color .yellow ['⚠'] ++ ' ' :: text]
  | failed text => [Paint.apply color .red ['✖'] ++ ' ' :: text]

/-- Something a run tells about itself. -/
inductive Note where
  /-- how far it is -/
  | status (s : Status)
  /-- a file was found -/
  | found (path : Text)
  deriving DecidableEq, Repr

end Command

end FieldLint
