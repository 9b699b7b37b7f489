import FieldLint.Signature

/-!
# Diagnostics

A `Finding` says what is wrong; its severity, its code and its wording follow from it. A
`Diagnostic` is a finding put into words at the place it was found.
-/

namespace FieldLint

/-- How much a diagnostic weighs. -/
inductive Severity where
  | error
  | warning
  deriving DecidableEq, Repr

/-- The kind of a diagnostic, stable across wordings. -/
inductive Code where
  | missingModuleDocstring
  | missingClassDocstring
  | missingDocstring
  | unknownField
  | duplicateField
  | extraParam
  | missingParamDescription
  | missingParamType
  | missingParam
  | missingReturn
  | missingReturnDescription
  | missingRtypeDescription
  | missingRtype
  | unexpectedReturn
  deriving DecidableEq, Repr

namespace Code

/-- The name of a code in output. -/
def name : Code → String
  | missingModuleDocstring => "missing-module-docstring"
  | missingClassDocstring => "missing-class-docstring"
  | missingDocstring => "missing-docstring"
  | unknownField => "unknown-field"
  | duplicateField => "duplicate-field"
  | extraParam => "extra-param"
  | missingParamDescription => "missing-param-description"
  | missingParamType => "missing-param-type"
  | missingParam => "missing-param"
  | missingReturn => "missing-return"
  | missingReturnDescription => "missing-return-description"
  | missingRtypeDescription => "missing-rtype-description"
  | missingRtype => "missing-rtype"
  | unexpectedReturn => "unexpected-return"

/-- All codes. -/
def all : List Code :=
  [missingModuleDocstring, missingClassDocstring, missingDocstring, unknownField, duplicateField,
    extraParam, missingParamDescription, missingParamType, missingParam, missingReturn,
    missingReturnDescription, missingRtypeDescription, missingRtype, unexpectedReturn]

/-- The code with a name. -/
def ofName? (name : String) : Option Code :=
  all.find? fun code => code.name == name

end Code

/-- Where a diagnostic belongs: a declaration, by its name and line. -/
structure Location where
  /-- the name of the declaration -/
  name : Text
  /-- the line it starts on -/
  line : Nat
  deriving DecidableEq, Repr

/-- One thing to mend. -/
structure Diagnostic where
  /-- how much it weighs -/
  severity : Severity
  /-- what kind of thing it is -/
  code : Code
  /-- what it is, in words -/
  message : Text
  /-- where it is -/
  location : Location
  deriving DecidableEq, Repr

namespace Diagnostic

/-- The diagnostic is an error. -/
def isError (d : Diagnostic) : Bool :=
  d.severity == .error

/-- The diagnostic is a warning. -/
def isWarning (d : Diagnostic) : Bool :=
  d.severity == .warning

end Diagnostic

/-- What can be wrong with the documentation of a declaration. -/
inductive Finding where
  /-- a module has no docstring -/
  | missingModuleDocstring
  /-- a class has no docstring -/
  | missingClassDocstring
  /-- a callable has no docstring -/
  | missingDocstring
  /-- a marker has no meaning -/
  | unknownField (marker : Text)
  /-- a field is given twice -/
  | duplicateField (label : Text)
  /-- a field is about a parameter that is not there -/
  | extraParam (name : Text)
  /-- no field describes a parameter -/
  | missingParam (name : Text)
  /-- the field of a parameter says nothing -/
  | missingParamDescription (name : Text)
  /-- the type of a parameter is not given -/
  | missingParamType (name : Text)
  /-- the value returned is not described -/
  | missingReturn
  /-- the field about the value returned says nothing -/
  | missingReturnDescription
  /-- the field about the type returned says nothing -/
  | missingRtypeDescription
  /-- the type returned is not given -/
  | missingRtype
  /-- a value is described, and none is returned -/
  | unexpectedReturn
  deriving DecidableEq, Repr

namespace Finding

/-- The code of a finding. -/
def code : Finding → Code
  | missingModuleDocstring => .missingModuleDocstring
  | missingClassDocstring => .missingClassDocstring
  | missingDocstring => .missingDocstring
  | unknownField _ => .unknownField
  | duplicateField _ => .duplicateField
  | extraParam _ => .extraParam
  | missingParam _ => .missingParam
  | missingParamDescription _ => .missingParamDescription
  | missingParamType _ => .missingParamType
  | missingReturn => .missingReturn
  | missingReturnDescription => .missingReturnDescription
  | missingRtypeDescription => .missingRtypeDescription
  | missingRtype => .missingRtype
  | unexpectedReturn => .unexpectedReturn

/-- A finding is an error, but for slips in the field list and types left out. -/
def severity : Finding → Severity
  | unknownField _ => .warning
  | duplicateField _ => .warning
  | missingParamType _ => .warning
  | missingRtype => .warning
  | _ => .error

/-- A finding in words. -/
def message : Finding → Text
  | missingModuleDocstring => "Docstring for module is missing".toList
  | missingClassDocstring => "Docstring for class is missing".toList
  | missingDocstring => "Docstring missing".toList
  | unknownField marker => "Unknown field ':".toList ++ marker ++ ":' in docstring.".toList
  | duplicateField label => "Duplicate ':".toList ++ label ++ ":' in docstring.".toList
  | extraParam name => "Additional ':param ".toList ++ name ++ "' in docstring.".toList
  | missingParam name => "Missing :param for parameter: ".toList ++ name
  | missingParamDescription name => "No description in docstring for parameter: ".toList ++ name
  | missingParamType name => "No type in docstring for parameter: ".toList ++ name
  | missingReturn => "':return: \x7bdescription\x7d' is missing.".toList
  | missingReturnDescription => "Description after 'return': missing".toList
  | missingRtypeDescription => "Description after 'rtype': missing".toList
  | missingRtype => "':rtype: \x7bdescription\x7d' is missing.".toList
  | unexpectedReturn =>
    "Docstring describes return values but function does not return anything!".toList

/-- The finding as a diagnostic of a declaration. -/
def report (d : Declaration) (f : Finding) : Diagnostic :=
  ⟨f.severity, f.code, f.message, ⟨d.name, d.line⟩⟩

end Finding

end FieldLint
