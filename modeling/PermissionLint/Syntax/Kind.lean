/-
The kinds of node of a concrete syntax tree.

Every kind has a name.  Nodes that carry meaning of their own are *named*; punctuation and keywords
are not, and their kind is their own spelling (`Kind.mark`).  Comments and line continuations may
stand between any two tokens, and a tree keeps them as extra nodes.
-/

namespace PermissionLint.Syntax

/-- What a node of the concrete syntax tree is. -/
inductive Kind where
  /-- A keyword or a punctuation mark, by its spelling. -/
  | mark (spelling : String)
  /-- The whole file. -/
  | root
  /-- The statements below a header. -/
  | block
  | comment
  | lineContinuation
  -- simple statements
  | importStatement
  | futureImportStatement
  | importFromStatement
  | printStatement
  | assertStatement
  | expressionStatement
  | returnStatement
  | deleteStatement
  | raiseStatement
  | passStatement
  | breakStatement
  | continueStatement
  | globalStatement
  | nonlocalStatement
  | execStatement
  | typeAliasStatement
  -- compound statements and definitions
  | ifStatement
  | forStatement
  | whileStatement
  | tryStatement
  | withStatement
  | matchStatement
  | functionDefinition
  | classDefinition
  | decoratedDefinition
  -- parts of compound statements
  | elifClause
  | elseClause
  | exceptClause
  | exceptGroupClause
  | finallyClause
  | caseClause
  | withClause
  | withItem
  | decorator
  -- parts of imports and of `print`
  | importPrefix
  | relativeImport
  | dottedName
  | aliasedImport
  | wildcardImport
  | chevron
  -- parts of definitions
  | parameters
  | lambdaParameters
  | typedParameter
  | defaultParameter
  | typedDefaultParameter
  | keywordSeparator
  | positionalSeparator
  | typeParameter
  | argumentList
  | keywordArgument
  -- types
  | typeNode
  | splatType
  | genericType
  | unionType
  | constrainedType
  | memberType
  -- targets of assignments and loops
  | tuplePattern
  | listPattern
  | patternList
  | listSplatPattern
  | dictionarySplatPattern
  -- patterns of `case`
  | casePattern
  | asPattern
  | asPatternTarget
  | keywordPattern
  | splatPattern
  | classPattern
  | unionPattern
  | dictPattern
  | complexPattern
  -- expressions
  | identifier
  | integer
  | float
  | trueLiteral
  | falseLiteral
  | noneLiteral
  | ellipsis
  | string
  | stringStart
  | stringContent
  | stringEnd
  | escapeSequence
  | escapeInterpolation
  | interpolation
  | typeConversion
  | formatSpecifier
  | formatExpression
  | concatenatedString
  | list
  | tuple
  | set
  | dictionary
  | pair
  | expressionList
  | listSplat
  | dictionarySplat
  | parenthesizedExpression
  | parenthesizedListSplat
  | listComprehension
  | setComprehension
  | dictionaryComprehension
  | generatorExpression
  | forInClause
  | ifClause
  | attributeRef
  | subscript
  | slice
  | call
  | unaryOperator
  | binaryOperator
  | comparisonOperator
  | notOperator
  | booleanOperator
  | conditionalExpression
  | namedExpression
  | lambda
  | awaitExpression
  | yieldExpression
  | assignment
  | augmentedAssignment
  deriving DecidableEq, Repr

namespace Kind

/-- The name a kind is reported by. -/
def name : Kind → String
  | mark spelling => spelling
  | root => "module"
  | block => "block"
  | comment => "comment"
  | lineContinuation => "line_continuation"
  | importStatement => "import_statement"
  | futureImportStatement => "future_import_statement"
  | importFromStatement => "import_from_statement"
  | printStatement => "print_statement"
  | assertStatement => "assert_statement"
  | expressionStatement => "expression_statement"
  | returnStatement => "return_statement"
  | deleteStatement => "delete_statement"
  | raiseStatement => "raise_statement"
  | passStatement => "pass_statement"
  | breakStatement => "break_statement"
  | continueStatement => "continue_statement"
  | globalStatement => "global_statement"
  | nonlocalStatement => "nonlocal_statement"
  | execStatement => "exec_statement"
  | typeAliasStatement => "type_alias_statement"
  | ifStatement => "if_statement"
  | forStatement => "for_statement"
  | whileStatement => "while_statement"
  | tryStatement => "try_statement"
  | withStatement => "with_statement"
  | matchStatement => "match_statement"
  | functionDefinition => "function_definition"
  | classDefinition => "class_definition"
  | decoratedDefinition => "decorated_definition"
  | elifClause => "elif_clause"
  | elseClause => "else_clause"
  | exceptClause => "except_clause"
  | exceptGroupClause => "except_group_clause"
  | finallyClause => "finally_clause"
  | caseClause => "case_clause"
  | withClause => "with_clause"
  | withItem => "with_item"
  | decorator => "decorator"
  | importPrefix => "import_prefix"
  | relativeImport => "relative_import"
  | dottedName => "dotted_name"
  | aliasedImport => "aliased_import"
  | wildcardImport => "wildcard_import"
  | chevron => "chevron"
  | parameters => "parameters"
  | lambdaParameters => "lambda_parameters"
  | typedParameter => "typed_parameter"
  | defaultParameter => "default_parameter"
  | typedDefaultParameter => "typed_default_parameter"
  | keywordSeparator => "keyword_separator"
  | positionalSeparator => "positional_separator"
  | typeParameter => "type_parameter"
  | argumentList => "argument_list"
  | keywordArgument => "keyword_argument"
  | typeNode => "type"
  | splatType => "splat_type"
  | genericType => "generic_type"
  | unionType => "union_type"
  | constrainedType => "constrained_type"
  | memberType => "member_type"
  | tuplePattern => "tuple_pattern"
  | listPattern => "list_pattern"
  | patternList => "pattern_list"
  | listSplatPattern => "list_splat_pattern"
  | dictionarySplatPattern => "dictionary_splat_pattern"
  | casePattern => "case_pattern"
  | asPattern => "as_pattern"
  | asPatternTarget => "as_pattern_target"
  | keywordPattern => "keyword_pattern"
  | splatPattern => "splat_pattern"
  | classPattern => "class_pattern"
  | unionPattern => "union_pattern"
  | dictPattern => "dict_pattern"
  | complexPattern => "complex_pattern"
  | identifier => "identifier"
  | integer => "integer"
  | float => "float"
  | trueLiteral => "true"
  | falseLiteral => "false"
  | noneLiteral => "none"
  | ellipsis => "ellipsis"
  | string => "string"
  | stringStart => "string_start"
  | stringContent => "string_content"
  | stringEnd => "string_end"
  | escapeSequence => "escape_sequence"
  | escapeInterpolation => "escape_interpolation"
  | interpolation => "interpolation"
  | typeConversion => "type_conversion"
  | formatSpecifier => "format_specifier"
  | formatExpression => "format_expression"
  | concatenatedString => "concatenated_string"
  | list => "list"
  | tuple => "tuple"
  | set => "set"
  | dictionary => "dictionary"
  | pair => "pair"
  | expressionList => "expression_list"
  | listSplat => "list_splat"
  | dictionarySplat => "dictionary_splat"
  | parenthesizedExpression => "parenthesized_expression"
  | parenthesizedListSplat => "parenthesized_list_splat"
  | listComprehension => "list_comprehension"
  | setComprehension => "set_comprehension"
  | dictionaryComprehension => "dictionary_comprehension"
  | generatorExpression => "generator_expression"
  | forInClause => "for_in_clause"
  | ifClause => "if_clause"
  | attributeRef => "attribute"
  | subscript => "subscript"
  | slice => "slice"
  | call => "call"
  | unaryOperator => "unary_operator"
  | binaryOperator => "binary_operator"
  | comparisonOperator => "comparison_operator"
  | notOperator => "not_operator"
  | booleanOperator => "boolean_operator"
  | conditionalExpression => "conditional_expression"
  | namedExpression => "named_expression"
  | lambda => "lambda"
  | awaitExpression => "await"
  | yieldExpression => "yield"
  | assignment => "assignment"
  | augmentedAssignment => "augmented_assignment"

/-- A kind is named unless it is a keyword or a punctuation mark. -/
def isNamed : Kind → Bool
  | mark _ => false
  | _ => true

/-- The clauses whose blocks belong to the enclosing compound statement. -/
def isClause : Kind → Bool
  | elifClause | elseClause | exceptClause | exceptGroupClause | finallyClause | caseClause => true
  | _ => false

end Kind

end PermissionLint.Syntax
