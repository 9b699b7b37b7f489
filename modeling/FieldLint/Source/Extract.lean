import FieldLint.Docstring.Clean
import FieldLint.Signature
import FieldLint.Source.Literal

/-!
# Declarations of a source

From the syntax tree of a module to its signature.

* **Statements.** A declaration is a class or function definition, possibly decorated, that stands
  directly in the body of the module or of another declaration. One inside any other statement is
  not found, nor is one without a name.
* **Docstrings.** The first statement of a body is its docstring when it is a literal on its own.
* **Parameters.** Separators and anything that is not a parameter are skipped. The first parameter
  of a method is its receiver.
* **Values.** A body gives a value when a `return` with something after it or a `yield` stands in
  it, outside nested definitions and lambdas.

A tree with an error node anywhere cannot be analysed.
-/

namespace FieldLint

/-! ## Names of files -/

/-- The last segment of a path, slashes at the end aside. -/
def baseName (path : Text) : Text :=
  ((path.reverse.dropWhile (· == '/')).takeWhile (· != '/')).reverse

/-- A file name without the suffix of a Python file; a name that is only the suffix stays. -/
def moduleStem (name : Text) : Text :=
  if ".py".toList.isSuffixOf name && 3 < name.length then name.take (name.length - 3) else name

namespace Tree

/-! ## Bodies -/

/-- The docstring of a body with these children. -/
def docstringOf? (source : Text) (body : List Tree) : Option Text :=
  match body.find? (!·.isComment) with
  | some (.node i [literal]) =>
    if i.kind = "expression_statement" then (literal.literal? source).bind cleanDocstring else none
  | _ => none

/-- Kinds of nodes whose values belong to another callable. -/
def isNestedScope (kind : String) : Bool :=
  kind == "function_definition" || kind == "class_definition" || kind == "lambda"

/-- A return statement with these children gives a value. -/
def returnsSomething (parts : List Tree) : Bool :=
  parts.any fun c => c.kind != "return" && c.kind != "comment"

mutual

/-- The node gives a value of the callable around it. -/
def givesValue : Tree → Bool
  | node i cs =>
    if isNestedScope i.kind then false
    else if i.kind = "return_statement" then returnsSomething cs
    else (i.kind == "yield" && !cs.isEmpty) || anyGivesValue cs

/-- Some of the nodes gives a value of the callable around it. -/
def anyGivesValue : List Tree → Bool
  | [] => false
  | t :: rest => givesValue t || anyGivesValue rest

end

/-! ## Parameters -/

/-- The kinds of a parameter that takes any number of arguments. -/
def isSplatKind (kind : String) : Bool :=
  kind == "list_splat_pattern" || kind == "dictionary_splat_pattern"

/-- A parameter without type and default. -/
def plainParameter? (source : Text) (t : Tree) : Option Parameter :=
  if t.kind = "identifier" then some ⟨t.text source, false⟩
  else if isSplatKind t.kind then
    (t.child? "identifier").map fun name => ⟨name.text source, false⟩
  else none

/-- The parameter a child of a parameter list declares. -/
def parameter? (source : Text) (t : Tree) : Option Parameter :=
  if t.kind = "default_parameter" ∨ t.kind = "typed_default_parameter" then
    (t.childByField? "name").map fun name => ⟨name.text source, true⟩
  else if t.kind = "typed_parameter" then
    (t.children.find? fun c => c.kind == "identifier" || isSplatKind c.kind).bind
      (plainParameter? source)
  else plainParameter? source t

/-- All parameters of a function definition with these children. -/
def parametersOf (source : Text) (parts : List Tree) : List Parameter :=
  match parts.find? fun c => c.field == some "parameters" with
  | none => []
  | some list => list.children.filterMap (parameter? source)

/-! ## Decorators -/

/-- The expression after the sign of a decorator, without call arguments. -/
def decoratorTarget? (decorator : Tree) : Option Tree :=
  match decorator.children.find? fun c => c.kind != "@" && c.kind != "comment" with
  | none => none
  | some expression =>
    if expression.kind = "call" then expression.childByField? "function" else some expression

/-- The last segment of a dotted name. -/
def lastSegment (dotted : Text) : Text :=
  Text.trim ((Text.splitAt '.' dotted).getLastD [])

/-- The names of the decorators among the children of a decorated definition. -/
def decoratorNames (source : Text) (parts : List Tree) : List Text :=
  (parts.filter fun c => c.kind == "decorator").filterMap fun decorator =>
    (decoratorTarget? decorator).map fun target => lastSegment (target.text source)

/-! ## Definitions -/

/-- Where a definition stands. -/
inductive Scope where
  | module
  | classBody
  | callableBody
  deriving DecidableEq, Repr

/-- How a function definition is declared, by where it stands and how it is decorated. -/
def Scope.callableKind (scope : Scope) (decorators : List Text) : CallableKind :=
  if scope = .classBody then
    if decorators.contains "staticmethod".toList then .staticmethod else .method
  else .function

/-- What a callable with these parameters takes. The first parameter of a method is its receiver. -/
def callableOf (kind : CallableKind) (parameters : List Parameter) (returnsValue : Bool) :
    Callable :=
  match kind, parameters with
  | .method, receiver :: rest => ⟨kind, rest, some receiver.name, returnsValue⟩
  | _, _ => ⟨kind, parameters, none, returnsValue⟩

/-- The children of the body among the children of a definition, if there is a body. -/
def bodyOf? (parts : List Tree) : Option (List Tree) :=
  (parts.find? fun c => c.field == some "body").map children

/-- The declaration a class or function definition makes, without the ones in its body. -/
def declarationOf? (source : Text) (scope : Scope) (decorators : List Text) (t : Tree) :
    Option Declaration :=
  match t.childByField? "name" with
  | none => none
  | some nameNode =>
    let name := nameNode.text source
    let body := bodyOf? t.children
    let docstring := body.bind (docstringOf? source)
    if t.kind = "class_definition" then
      some ⟨.classdef, name, t.line, docstring, isPrivateName name⟩
    else if t.kind = "function_definition" then
      let callable := callableOf (scope.callableKind decorators) (parametersOf source t.children)
        (body.any anyGivesValue)
      some ⟨.callable callable, name, t.line, docstring, isPrivateName name⟩
    else none

/-- The scope of the body of a definition. -/
def innerScope (kind : String) : Scope :=
  if kind = "class_definition" then .classBody else .callableBody

mutual

/-- The declarations of a statement: one if it is a definition, none otherwise. -/
def ofStatement (source : Text) (scope : Scope) : Tree → List Signature
  | node i cs =>
    if i.kind = "comment" then []
    else if i.kind = "decorated_definition" then
      ofDecorated source scope (decoratorNames source cs) cs
    else
      match declarationOf? source scope [] (node i cs) with
      | none => []
      | some d => [.node d (ofBody source (innerScope i.kind) cs)]

/-- The declaration of the definition among the children of a decorated one. -/
def ofDecorated (source : Text) (scope : Scope) (decorators : List Text) :
    List Tree → List Signature
  | [] => []
  | node i cs :: rest =>
    if i.field = some "definition" then
      match declarationOf? source scope decorators (node i cs) with
      | none => []
      | some d => [.node d (ofBody source (innerScope i.kind) cs)]
    else ofDecorated source scope decorators rest

/-- The declarations in the body among the children of a definition. -/
def ofBody (source : Text) (scope : Scope) : List Tree → List Signature
  | [] => []
  | node i cs :: rest =>
    if i.field = some "body" then ofStatements source scope cs
    else ofBody source scope rest

/-- The declarations of the statements of a body. -/
def ofStatements (source : Text) (scope : Scope) : List Tree → List Signature
  | [] => []
  | t :: rest => ofStatement source scope t ++ ofStatements source scope rest

end

end Tree

/-! ## Modules -/

/-- Why a source cannot be analysed. -/
structure SyntaxFault where
  /-- the line of the first error -/
  line : Nat
  deriving DecidableEq, Repr

/-- The fault in words. -/
def SyntaxFault.message (f : SyntaxFault) : Text :=
  "syntax error at line ".toList ++ Text.ofNat f.line

/-- The declaration a module makes, without the ones in it. -/
def moduleDeclaration (source filePath : Text) (root : Tree) : Declaration :=
  let name := baseName filePath
  ⟨.module filePath, name, 0, Tree.docstringOf? source root.children,
    isPrivateName (moduleStem name)⟩

/-- The signature of a module, from its source and the syntax tree of it. -/
def extractModule (source filePath : Text) (root : Tree) : Except SyntaxFault Signature :=
  match (root.findAll "ERROR").head? with
  | some error => .error ⟨error.line⟩
  | none =>
    .ok (.node (moduleDeclaration source filePath root)
      (Tree.ofStatements source .module root.children))

end FieldLint
