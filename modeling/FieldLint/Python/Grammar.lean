import FieldLint.Python.Pattern

/-!
# The grammar of Python

The statements and expressions of Python 3 as patterns, and a few older forms that are still met
in sources: `print` and `exec` statements and the `<>` operator.

The trees keep what a reader of declarations needs: definitions with their names, parameters, bodies
and decorators under their fields, literals, and where values are returned. Operators of one level
share one node.

* **Expressions** are read by level, each level once, so nested brackets cost no repeated work.
* **Targets.** What stands left of `=`, after `for` or after `as` is read as an expression and then
  checked.
* **Soft keywords.** `match`, `case`, `type`, `print` and `exec` are names wherever the statement
  they could open does not follow.

This stands in the place of the grammar of the `tree-sitter-python` package, which is more generous
in a few places that are left out: a block needs a statement here, a name for an exception follows
`as` and not a comma, and comments make no nodes.
-/

namespace FieldLint

namespace Python

/-- The rules of the grammar. -/
inductive Rule where
  -- files, lines and blocks
  | file
  | statement
  | simpleLine
  | smallStatement
  | block
  -- simple statements
  | expressionStatement
  | rightSide
  | returnStatement
  | raiseStatement
  | importStatement
  | importedNames
  | dottedName
  | deleteStatement
  | assertStatement
  | scopeStatement
  | typeAlias
  | printStatement
  | execStatement
  -- definitions
  | decorated
  | decorator
  | definition
  | classDefinition
  | functionDefinition
  | parameters
  | parameter
  | lambdaParameters
  | lambdaParameter
  | typeParameters
  | typeParameter
  -- compound statements
  | ifStatement
  | whileStatement
  | forStatement
  | tryStatement
  | exceptClause
  | withStatement
  | withItem
  | matchStatement
  | caseClause
  | elseClause
  -- patterns of a match statement
  | casePatterns
  | casePattern
  | closedPattern
  | literalPattern
  | signedNumber
  | classPatternArguments
  | mappingItem
  -- expressions
  | starExpressions
  | starExpression
  | starNamed
  | namedExpression
  | expression
  | lambda
  | boolean
  | inversion
  | comparison
  | arithmetic
  | factor
  | power
  | primary
  | suffix
  | arguments
  | argument
  | slice
  | atom
  | strings
  | stringLiteral
  | interpolation
  | parenthesized
  | list
  | dictionaryOrSet
  | dictionaryItem
  | comprehension
  | comprehensionClause
  | targets
  | targetItem
  | yieldExpression
  deriving DecidableEq, Repr

namespace Rule

open Pattern

/-! ## Checks on trees -/

/-- The tree is a leaf of a sign. -/
def isSign (text : String) (t : Tree) : Bool :=
  t.kind == text && !t.info.isNamed

mutual

/-- A place that holds one value: a name, an attribute or an element, possibly in parentheses. -/
def isPlace : Tree → Bool
  | .node info children =>
    info.kind == "identifier" || info.kind == "attribute" || info.kind == "subscript" ||
      (info.kind == "parenthesized_expression" && arePlaces children)

/-- All of the trees that are no signs are places. -/
def arePlaces : List Tree → Bool
  | [] => true
  | t :: rest => (!t.info.isNamed || isPlace t) && arePlaces rest

end

mutual

/-- The expression can be assigned to: it is made of places by tuples, lists, parentheses and
stars. -/
def isTarget : Tree → Bool
  | .node info children =>
    info.kind == "identifier" || info.kind == "attribute" || info.kind == "subscript" ||
      ((info.kind == "parenthesized_expression" || info.kind == "tuple" || info.kind == "list" ||
        info.kind == "list_splat") && areTargets children)

/-- All of the trees that are no signs can be assigned to. -/
def areTargets : List Tree → Bool
  | [] => true
  | t :: rest => (!t.info.isNamed || isTarget t) && areTargets rest

end

/-- The operators that assign and compute at once. -/
def augmentedOperators : List String :=
  ["+=", "-=", "*=", "/=", "//=", "%=", "@=", "&=", "|=", "^=", ">>=", "<<=", "**="]

/-- The trees cut at every leaf of a sign. -/
def splitAtSign (text : String) : List Tree → List (List Tree)
  | [] => [[]]
  | t :: rest =>
    if isSign text t then [] :: splitAtSign text rest
    else (splitAtSign text rest).modifyHead (t :: ·)

/-- Every side of an assignment but the last can be assigned to. -/
def areLeftSides (sides : List (List Tree)) : Bool :=
  sides.dropLast.all fun side => !side.isEmpty && areTargets side

/-- The tree is the sign of an assignment that needs a single place on its left. -/
def isPlaceSign (t : Tree) : Bool :=
  isSign ":" t || (!t.info.isNamed && augmentedOperators.contains t.kind)

/-- Tell apart the statements that start with an expression: an annotated or augmented assignment
needs one place on its left, a plain one needs targets, and anything else is taken as it is. -/
def shapeExpressionStatement (trees : List Tree) : Option (List Tree) :=
  if trees.any isPlaceSign then
    match trees with
    | first :: second :: _ =>
      if isPlace first && isPlaceSign second then
        some [branch "expression_statement" [branch "assignment" trees]]
      else none
    | _ => none
  else if trees.any (isSign "=") then
    if areLeftSides (splitAtSign "=" trees) then
      some [branch "expression_statement" [branch "assignment" trees]]
    else none
  else some [branch "expression_statement" trees]

/-- An expression alone, or a name bound to one. -/
def shapeNamed (trees : List Tree) : Option (List Tree) :=
  match trees with
  | [t] => some [t]
  | first :: _ =>
    if first.kind == "identifier" then some [branch "named_expression" trees] else none
  | [] => none

/-- What an argument is: an expression, a keyword with its value, a name bound to an expression, or
a generator. -/
def shapeArgument (trees : List Tree) : Option (List Tree) :=
  match trees with
  | [t] => some [t]
  | first :: second :: _ =>
    if isSign "=" second then
      if first.kind == "identifier" then some [branch "keyword_argument" trees] else none
    else if isSign ":=" second then
      if first.kind == "identifier" then some [branch "named_expression" trees] else none
    else some [branch "generator_expression" trees]
  | [] => none

/-- The trees hold a clause of a comprehension. -/
def hasClause (trees : List Tree) : Bool :=
  trees.any fun t => t.kind == "for_in_clause"

/-- What parentheses hold: a generator, one expression, or a tuple. -/
def shapeParenthesized (trees : List Tree) : Option (List Tree) :=
  if hasClause trees then some [branch "generator_expression" trees]
  else if trees.length == 3 then some [branch "parenthesized_expression" trees]
  else some [branch "tuple" trees]

/-- What square brackets hold: a comprehension or a list. -/
def shapeList (trees : List Tree) : Option (List Tree) :=
  some [branch (if hasClause trees then "list_comprehension" else "list") trees]

/-- The tree is an item of a dictionary. -/
def isDictionaryItem (t : Tree) : Bool :=
  t.kind == "pair" || t.kind == "dictionary_splat"

/-- What braces hold: items of a dictionary or elements of a set, but not both. -/
def shapeBraces (trees : List Tree) : Option (List Tree) :=
  let items := trees.filter fun t =>
    t.info.isNamed && t.kind != "for_in_clause" && t.kind != "if_clause"
  if items.all isDictionaryItem then
    some [branch (if hasClause trees then "dictionary_comprehension" else "dictionary") trees]
  else if items.all fun t => !isDictionaryItem t then
    some [branch (if hasClause trees then "set_comprehension" else "set") trees]
  else none

/-- The field of a node under which what it is applied to stands. -/
def headField (kind : String) : String :=
  if kind == "call" then "function" else if kind == "attribute" then "object" else "value"

/-- Put what a suffix is applied to in front of it. -/
def applySuffix (head : Tree) : Tree → Tree
  | .node info children =>
    .node { info with start := head.info.start, row := head.info.row }
      (withField (headField info.kind) head :: children)

/-- An atom with its suffixes, from the innermost to the outermost. -/
def shapePrimary (trees : List Tree) : Option (List Tree) :=
  match trees with
  | [] => none
  | head :: suffixes => some [suffixes.foldl applySuffix head]

/-- The kind of a parameter, by the signs in it. -/
def shapeParameter (trees : List Tree) : Option (List Tree) :=
  match trees with
  | [t] => some [t]
  | first :: rest =>
    let kind :=
      if !rest.any (isSign "=") then "typed_parameter"
      else if rest.any (isSign ":") then "typed_default_parameter"
      else "default_parameter"
    some [branch kind (withField "name" first :: rest)]
  | [] => none

/-! ## Pieces that several rules share -/

/-- The end of a simple statement. -/
def statementEnd : Pattern Rule :=
  alt (skip (.kind .newline)) (sign ";")

/-- A colon and the block after it. -/
def suite : Pattern Rule :=
  seq (sign ":") (under "body" (rule block))

/-- A header, a colon and a block. -/
def clause (kind : String) (header : List (Pattern Rule)) : Pattern Rule :=
  node kind (seq (all header) suite)

/-- The last clause of a `try`. -/
def finallyClause : Pattern Rule :=
  clause "finally_clause" [sign "finally"]

/-- An operator that compares. -/
def comparator : Pattern Rule :=
  any [oneSign ["<", ">", "==", ">=", "<=", "!=", "<>", "in"], seq (sign "not") (sign "in"),
    seq (sign "is") (opt (sign "not"))]

/-- What follows the first element of a list: the clauses of a comprehension, or the other
elements. -/
def listTail : Pattern Rule :=
  alt (rule comprehension)
    (seq (many (seq (sign ",") (rule starNamed))) (opt (sign ",")))

/-! ## Files, lines and blocks -/

/-- Rules for files, lines and blocks. -/
def layoutPattern : Rule → Option (Pattern Rule)
  | file => some (node "module" (seq (many (rule statement)) (skip (.kind .finish))))
  | statement => some (any
      [rule decorated, rule definition, rule ifStatement, rule whileStatement, rule forStatement,
        rule tryStatement, rule withStatement, rule matchStatement, rule simpleLine])
  | simpleLine => some (all
      [sepBy ";" (rule smallStatement), opt (sign ";"), skip (.kind .newline)])
  | smallStatement => some (any
      [node "pass_statement" (sign "pass"), node "break_statement" (sign "break"),
        node "continue_statement" (sign "continue"), rule returnStatement, rule raiseStatement,
        rule importStatement, rule deleteStatement, rule assertStatement, rule scopeStatement,
        rule typeAlias, seq (rule expressionStatement) (look statementEnd), rule printStatement,
        rule execStatement])
  | block => some (node "block" (alt
      (all [skip (.kind .newline), skip (.kind .indent), atLeastOne (rule statement),
        skip (.kind .dedent)])
      (rule simpleLine)))
  | _ => none

/-! ## Simple statements -/

/-- Rules for simple statements. -/
def simplePattern : Rule → Option (Pattern Rule)
  | expressionStatement => some (shape
      (seq (rule rightSide) (any
        [all [sign ":", rule expression, opt (seq (sign "=") (rule rightSide))],
          seq (token (.sign augmentedOperators)) (rule rightSide),
          many (seq (sign "=") (rule rightSide))]))
      shapeExpressionStatement)
  | rightSide => some (alt (rule yieldExpression) (rule starExpressions))
  | returnStatement => some (node "return_statement"
      (seq (sign "return") (opt (rule starExpressions))))
  | raiseStatement => some (node "raise_statement"
      (seq (sign "raise")
        (opt (seq (rule expression) (opt (seq (sign "from") (rule expression)))))))
  | importStatement => some (alt
      (node "import_statement" (seq (sign "import") (sepBy ","
        (seq (rule dottedName) (opt (seq (sign "as") name))))))
      (node "import_from_statement" (all
        [sign "from",
          alt (seq (atLeastOne (oneSign [".", "..."])) (opt (rule dottedName))) (rule dottedName),
          sign "import",
          any [sign "*", all [sign "(", commaList (rule importedNames), sign ")"],
            sepBy "," (rule importedNames)]])))
  | importedNames => some (fold "aliased_import" (seq name (opt (seq (sign "as") name))))
  | dottedName => some (node "dotted_name" (sepBy "." name))
  | deleteStatement => some (node "delete_statement"
      (seq (sign "del") (commaList (rule starExpression))))
  | assertStatement => some (node "assert_statement"
      (seq (sign "assert") (seq (rule expression) (opt (seq (sign ",") (rule expression))))))
  | scopeStatement => some (alt
      (node "global_statement" (seq (sign "global") (sepBy "," name)))
      (node "nonlocal_statement" (seq (sign "nonlocal") (sepBy "," name))))
  | typeAlias => some (node "type_alias_statement" (all
      [token (.word "type"), name, opt (rule typeParameters), sign "=", rule expression]))
  | printStatement => some (node "print_statement" (seq (token (.word "print"))
      (alt
        (all [sign ">>", rule expression, many (seq (sign ",") (rule expression)),
          opt (sign ",")])
        (commaList (rule expression)))))
  | execStatement => some (node "exec_statement" (seq (token (.word "exec"))
      (commaList (rule expression))))
  | _ => none

/-! ## Definitions -/

/-- Rules for definitions and their parameters. -/
def definitionPattern : Rule → Option (Pattern Rule)
  | decorated => some (node "decorated_definition"
      (seq (atLeastOne (rule decorator)) (under "definition" (rule definition))))
  | decorator => some (node "decorator"
      (all [sign "@", rule namedExpression, skip (.kind .newline)]))
  | definition => some (alt (rule classDefinition) (rule functionDefinition))
  | classDefinition => some (clause "class_definition"
      [sign "class", under "name" name, opt (rule typeParameters), opt (rule arguments)])
  | functionDefinition => some (clause "function_definition"
      [opt (sign "async"), sign "def", under "name" name, opt (rule typeParameters),
        under "parameters" (rule parameters), opt (seq (sign "->") (rule expression))])
  | parameters => some (node "parameters"
      (all [sign "(", opt (commaList (rule parameter)), sign ")"]))
  | parameter => some (any
      [shape
          (all [name, opt (seq (sign ":") (rule expression)),
            opt (seq (sign "=") (rule expression))])
          shapeParameter,
        shape
          (seq (node "list_splat_pattern" (seq (sign "*") name))
            (opt (seq (sign ":") (rule starExpression))))
          shapeParameter,
        shape
          (seq (node "dictionary_splat_pattern" (seq (sign "**") name))
            (opt (seq (sign ":") (rule expression))))
          shapeParameter,
        node "keyword_separator" (sign "*"),
        node "positional_separator" (sign "/")])
  | lambdaParameters => some (node "lambda_parameters" (commaList (rule lambdaParameter)))
  | lambdaParameter => some (any
      [shape (seq name (opt (seq (sign "=") (rule expression)))) shapeParameter,
        node "list_splat_pattern" (seq (sign "*") name),
        node "dictionary_splat_pattern" (seq (sign "**") name),
        node "keyword_separator" (sign "*"),
        node "positional_separator" (sign "/")])
  | typeParameters => some (node "type_parameter"
      (all [sign "[", commaList (rule typeParameter), sign "]"]))
  | typeParameter => some (node "type"
      (all [opt (oneSign ["*", "**"]), name, opt (seq (sign ":") (rule expression)),
        opt (seq (sign "=") (rule starExpression))]))
  | _ => none

/-! ## Compound statements -/

/-- Rules for compound statements. -/
def compoundPattern : Rule → Option (Pattern Rule)
  | ifStatement => some (node "if_statement" (all
      [sign "if", rule namedExpression, suite,
        many (clause "elif_clause" [sign "elif", rule namedExpression]),
        opt (rule elseClause)]))
  | whileStatement => some (node "while_statement" (all
      [sign "while", rule namedExpression, suite, opt (rule elseClause)]))
  | forStatement => some (node "for_statement" (all
      [opt (sign "async"), sign "for", rule targets, sign "in", rule starExpressions, suite,
        opt (rule elseClause)]))
  | tryStatement => some (node "try_statement" (all
      [sign "try", suite,
        alt
          (all [atLeastOne (rule exceptClause), opt (rule elseClause), opt finallyClause])
          finallyClause]))
  | exceptClause => some (clause "except_clause"
      [sign "except", opt (sign "*"),
        opt (seq (rule expression) (opt (seq (sign "as") name)))])
  | withStatement => some (clause "with_statement"
      [opt (sign "async"), sign "with",
        alt
          (all [sign "(", commaList (rule withItem), sign ")", look (sign ":")])
          (sepBy "," (rule withItem))])
  | withItem => some (node "with_item"
      (seq (rule expression) (opt (seq (sign "as") (rule targetItem)))))
  | matchStatement => some (node "match_statement" (all
      [token (.word "match"), commaList (rule starNamed), sign ":", skip (.kind .newline),
        skip (.kind .indent), atLeastOne (rule caseClause), skip (.kind .dedent)]))
  | caseClause => some (clause "case_clause"
      [token (.word "case"), rule casePatterns,
        opt (seq (sign "if") (rule namedExpression))])
  | elseClause => some (clause "else_clause" [sign "else"])
  | _ => none

/-! ## Patterns of a match statement -/

/-- Rules for the patterns of a match statement. -/
def casePatternPattern : Rule → Option (Pattern Rule)
  | casePatterns => some (commaList (rule casePattern))
  | casePattern => some (node "case_pattern" (alt
      (seq (sign "*") name)
      (seq (sepBy "|" (rule closedPattern)) (opt (seq (sign "as") name)))))
  | closedPattern => some (any
      [rule literalPattern,
        seq (rule dottedName) (opt (rule classPatternArguments)),
        all [sign "(", opt (rule casePatterns), sign ")"],
        all [sign "[", opt (rule casePatterns), sign "]"],
        all [sign "\x7b", opt (commaList (rule mappingItem)), sign "\x7d"]])
  | literalPattern => some (any
      [oneSign ["None", "True", "False"], rule strings,
        seq (rule signedNumber) (opt (seq (oneSign ["+", "-"]) (token (.kind .number))))])
  | signedNumber => some (seq (opt (sign "-")) (token (.kind .number)))
  | classPatternArguments => some (all
      [sign "(",
        opt (commaList (alt (all [name, sign "=", rule casePattern]) (rule casePattern))),
        sign ")"])
  | mappingItem => some (alt
      (seq (sign "**") name)
      (all [alt (rule literalPattern) (rule dottedName), sign ":", rule casePattern]))
  | _ => none

/-! ## Expressions -/

/-- Rules for the levels of expressions, from the loosest to the tightest. -/
def levelPattern : Rule → Option (Pattern Rule)
  | starExpressions => some (commaList (rule starExpression))
  | starExpression => some (alt
      (node "list_splat" (seq (sign "*") (rule arithmetic)))
      (rule expression))
  | starNamed => some (alt
      (node "list_splat" (seq (sign "*") (rule arithmetic)))
      (rule namedExpression))
  | namedExpression => some (shape
      (seq (rule expression) (opt (seq (sign ":=") (rule expression))))
      shapeNamed)
  | expression => some (alt (rule lambda) (fold "conditional_expression"
      (seq (rule boolean)
        (opt (all [sign "if", rule boolean, sign "else", rule expression])))))
  | lambda => some (node "lambda" (all
      [sign "lambda", opt (rule lambdaParameters), sign ":", rule expression]))
  | boolean => some (fold "boolean_operator"
      (seq (rule inversion) (many (seq (oneSign ["and", "or"]) (rule inversion)))))
  | inversion => some (alt
      (node "not_operator" (seq (sign "not") (rule inversion)))
      (rule comparison))
  | comparison => some (fold "comparison_operator"
      (seq (rule arithmetic) (many (seq comparator (rule arithmetic)))))
  | arithmetic => some (fold "binary_operator"
      (seq (rule factor)
        (many (seq (oneSign ["+", "-", "*", "/", "//", "%", "@", "&", "|", "^", "<<", ">>"])
          (rule factor)))))
  | factor => some (alt
      (node "unary_operator" (seq (oneSign ["+", "-", "~"]) (rule factor)))
      (rule power))
  | power => some (fold "binary_operator"
      (seq
        (alt (node "await" (seq (sign "await") (rule primary))) (rule primary))
        (opt (seq (sign "**") (rule factor)))))
  | yieldExpression => some (node "yield" (seq (sign "yield") (alt
      (seq (sign "from") (rule expression))
      (opt (rule starExpressions)))))
  | targets => some ((commaList (rule targetItem)).when areTargets)
  | targetItem => some ((alt
      (node "list_splat" (seq (sign "*") (rule arithmetic)))
      (rule arithmetic)).when areTargets)
  | _ => none

/-- Rules for atoms and what can follow them. -/
def atomPattern : Rule → Option (Pattern Rule)
  | primary => some (shape (seq (rule atom) (many (rule suffix))) shapePrimary)
  | suffix => some (any
      [node "attribute" (seq (sign ".") name),
        node "call" (rule arguments),
        node "subscript" (all [sign "[", commaList (rule slice), sign "]"])])
  | arguments => some (node "argument_list"
      (all [sign "(", opt (commaList (rule argument)), sign ")"]))
  | argument => some (any
      [node "list_splat" (seq (sign "*") (rule expression)),
        node "dictionary_splat" (seq (sign "**") (rule expression)),
        shape
          (seq (rule expression) (any
            [seq (sign "=") (rule expression), seq (sign ":=") (rule expression),
              rule comprehension, empty]))
          shapeArgument])
  | slice => some (alt
      (node "slice" (all [opt (rule expression), sign ":", opt (rule expression),
        opt (seq (sign ":") (opt (rule expression)))]))
      (rule starNamed))
  | atom => some (any
      [name, token (.kind .number), rule strings, rule parenthesized, rule list,
        rule dictionaryOrSet, node "constant" (oneSign ["None", "True", "False", "..."])])
  | strings => some (fold "concatenated_string" (atLeastOne (rule stringLiteral)))
  | stringLiteral => some (alt
      (token (.kind .string))
      (node "string" (all
        [token (.kind .formatStart), many (rule interpolation), token (.kind .formatEnd)])))
  | interpolation => some (node "interpolation" (all
      [sign "\x7b", rule rightSide, opt (sign "="), opt (seq (sign "!") name),
        opt (seq (sign ":") (many (rule interpolation))), sign "\x7d"]))
  | parenthesized => some (shape
      (all [sign "(",
        any [rule yieldExpression, seq (rule starNamed) listTail, empty],
        sign ")"])
      shapeParenthesized)
  | list => some (shape
      (all [sign "[", opt (seq (rule starNamed) listTail), sign "]"])
      shapeList)
  | dictionaryOrSet => some (shape
      (all [sign "\x7b",
        opt (seq (rule dictionaryItem) (alt (rule comprehension)
          (seq (many (seq (sign ",") (rule dictionaryItem))) (opt (sign ","))))),
        sign "\x7d"])
      shapeBraces)
  | dictionaryItem => some (alt
      (node "dictionary_splat" (seq (sign "**") (rule arithmetic)))
      (fold "pair" (seq (rule starNamed) (opt (seq (sign ":") (rule expression))))))
  | comprehension => some (atLeastOne (rule comprehensionClause))
  | comprehensionClause => some (seq
      (node "for_in_clause" (all
        [opt (sign "async"), sign "for", rule targets, sign "in", rule boolean]))
      (many (node "if_clause" (seq (sign "if") (rule boolean)))))
  | _ => none

/-- The pattern of a rule. -/
def pattern (r : Rule) : Pattern Rule :=
  ((layoutPattern r).or ((simplePattern r).or ((definitionPattern r).or ((compoundPattern r).or
    ((casePatternPattern r).or ((levelPattern r).or (atomPattern r))))))).getD empty

end Rule

end Python

end FieldLint
