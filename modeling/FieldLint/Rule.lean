import FieldLint.Diagnostic
import FieldLint.Docstring.Parse

/-!
# Rules

A declaration is checked against its docstring, rule by rule and in this order:

* **Presence.** Every declaration has a docstring. For a module or a class this is the only rule.
* **Field list.** No marker is without meaning, and no field is given twice.
* **Parameters.** Each parameter of the signature is described and typed, in the order of the
  signature; then each parameter that only the docstring has is reported.
* **Returns.** A value is described and typed if there is one, and not described if there is none.
-/

namespace FieldLint

/-! ## The rules -/

/-- What is missing when a declaration has no docstring. -/
def missingDocstringOf : Form → Finding
  | .module _ => .missingModuleDocstring
  | .classdef => .missingClassDocstring
  | .callable _ => .missingDocstring

/-- The presence rule. -/
def presenceFindings (d : Declaration) : List Finding :=
  match d.docstring with
  | some _ => []
  | none => [missingDocstringOf d.form]

/-- The field list rule: markers without meaning, then fields given twice. -/
def fieldListFindings (doc : Docstring) : List Finding :=
  doc.malformed.map (fun m => .unknownField m.marker) ++
    doc.duplicates.map (fun f => .duplicateField f.subject.label)

/-- What is wrong with the documentation of one parameter of the signature. A parameter nobody
describes is reported once, whatever else is missing. -/
def parameterFindings (doc : Docstring) (name : Text) : List Finding :=
  let said := doc.parameterDoc name
  if said.documented then
    (if said.description.isEmpty then [.missingParamDescription name] else []) ++
      (if said.type.isNone then [.missingParamType name] else [])
  else [.missingParam name]

/-- The parameters rule. -/
def parametersFindings (c : Callable) (doc : Docstring) : List Finding :=
  let names := c.parameters.map (·.name)
  names.flatMap (parameterFindings doc) ++
    (doc.parameterNames.filter (!names.contains ·)).map .extraParam

/-- The returns rule. -/
def returnsFindings (c : Callable) (doc : Docstring) : List Finding :=
  let returned := doc.returnField?
  let typed := doc.rtypeField?
  (if c.returnsValue && returned.isNone then [.missingReturn] else []) ++
    (if returned.any (·.text.isEmpty) then [.missingReturnDescription] else []) ++
    (if typed.any (·.text.isEmpty) then [.missingRtypeDescription] else []) ++
    (if c.returnsValue && returned.isSome && typed.isNone then [.missingRtype] else []) ++
    (if !c.returnsValue && returned.isSome then [.unexpectedReturn] else [])

/-! ## Checking a declaration -/

/-- What is wrong with the documentation of a declaration that is not exempt. -/
def Declaration.findings (d : Declaration) : List Finding :=
  match d.form, d.docstring with
  | .callable c, some text =>
    let doc := Docstring.parse text
    fieldListFindings doc ++ parametersFindings c doc ++ returnsFindings c doc
  | _, _ => presenceFindings d

/-- The diagnostics of a declaration. An exempt one has none. -/
def Declaration.check (d : Declaration) : List Diagnostic :=
  if d.isExempt then [] else d.findings.map (Finding.report d)

end FieldLint
