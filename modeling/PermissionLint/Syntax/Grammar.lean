/-
The grammar of the language, as one pattern for each rule.

The grammar accepts more than the language proper: statements of older versions (`print x`,
`exec x`, `except A, b`), targets of any shape, empty blocks, `return` outside of functions.  It is
ordered: where two readings are possible the first one that fits is taken, so for instance an
assignment is tried before an expression and a `match` statement before a call of a function named
`match`.

Rules are named only where the grammar is recursive; everything else is a definition.  Inside a
phrase `settle` marks the places where the phrase may be complete.
-/
import PermissionLint.Syntax.Pattern

namespace PermissionLint.Syntax

/-- The recursive rules of the grammar. -/
inductive Production where
  /-- An expression. -/
  | expression
  /-- An expression that is no bare conditional, as in the clauses of a comprehension. -/
  | clauseExpression
  /-- An operand of `and` and `or`. -/
  | negation
  /-- An operand of the binary operators, possibly with operators before it. -/
  | signed
  /-- A primary with its calls, subscripts and attributes. -/
  | primary
  /-- A starred expression in parentheses, possibly in several pairs of them. -/
  | enclosedSplat
  /-- An expression that begins with a starred name, in one or more pairs of parentheses. -/
  | enclosedExpression
  /-- One or more expressions, as one node. -/
  | expressions
  /-- A target of an assignment or a loop. -/
  | target
  /-- An assignment on the right of another one. -/
  | assignment
  /-- A type, as in an annotation. -/
  | type
  /-- A braced expression of a format string. -/
  | interpolation
  /-- A braced expression of a format specifier. -/
  | formatExpression
  /-- A pattern of `case`. -/
  | casePattern
  /-- A pattern of `case` without `as` and without a keyword. -/
  | simplePattern
  /-- A statement. -/
  | statement
  deriving DecidableEq, Repr

namespace Grammar

open Pattern

/-- A pattern of this grammar. -/
abbrev P := Pattern Production

/-! ## Names and literals -/

/-- A name that is no reserved word. -/
def name : P := token .identifier .name

/-- A word that may be a name in an expression. -/
def softName : P := token .identifier .softName

/-- What can begin an operand, so that `await` before it is no name. -/
def operandAhead : P :=
  oneOf ["-", "+", "~", "(", "[", "\x7b", "...", "*"] <|> openString
    <|> token .float .float <|> token .integer .integer <|> softName
    <|> keyword "True" <|> keyword "False" <|> keyword "None"

/-- A name in an expression. -/
def simpleName : P := ahead false (keyword "await" >> pause >> operandAhead) >> softName

def expression : P := rule .expression

def expressions : P := rule .expressions

/-- Text, escape sequences and braced expressions between the delimiters of a string.  Where a line
break stops the text of a string, white space is passed over and a comment is no text. -/
def stringPart : P :=
  stringText
    <|> (textStops
      >> (fragment .escapeSequence .escape <|> fragment (.mark "\\") .backslash
        <|> (blanks >> (aside <|> rule .interpolation))))

def string : P := node .string (openString >> many stringPart >> closeString) >> pause

/-- A string, or several in a row. -/
def strings : P := framed (string >> opt (several string >> wrap .concatenatedString))

/-- What stands between the braces of a format string. -/
def interpolated : P :=
  fragment (.mark "\x7b") (.punct "\x7b")
    >> expect { closer := true, quote := true }
    >> ending .bracket
      ((node .yieldExpression
          (keyword "yield" >> settle >> ((keyword "from" >> expression) <|> opt expressions))
        <|> expressions)
      >> opt (op "=" >> settle)
      >> opt (token .typeConversion .conversion >> settle)
      >> opt (node .formatSpecifier
          (punct ":" >> many
            (blanks >> (fragment (.mark "text") .formatText <|> rule .formatExpression))
            >> settle)))
    >> punct "\x7d"

/-! ## Targets -/

/-- A name, an attribute or a subscript. -/
def place : P :=
  framed (rule .primary >> lastIs true [.identifier, .attributeRef, .subscript])

def starPattern : P := node .listSplatPattern (punct "*" >> place)

/-- A target behind a comma: what follows a star there is one place. -/
def laterTarget : P := (starPattern >> settle) <|> rule .target

/-- The targets behind the first one. -/
def moreTargets : P := opt (laterTarget >> many (comma >> laterTarget) >> opt comma)

/-- Targets in brackets. -/
def innerTargets : P := rule .target >> opt (comma >> moreTargets)

/-- Targets in parentheses. -/
def tuplePattern (inner : P) : P := node .tuplePattern (bracketed "(" ")" inner)

/-- Targets in square brackets. -/
def listPattern (inner : P) : P := node .listPattern (bracketed "[" "]" inner)

/-- Brackets that are a target as a whole. -/
def wholly (brackets : P) : P := brackets >> settle >> ahead false (oneOf [".", "(", "["])

def target : P :=
  wholly (tuplePattern (opt innerTargets) <|> listPattern (opt innerTargets))
    <|> ((place <|> starPattern) >> settle)

/-- The first target of an assignment.  The line does not end behind targets in brackets, which are
complete only before the mark of the assignment. -/
def firstTarget : P :=
  wholly (tuplePattern skip <|> listPattern skip)
    <|> ending .construct (wholly (tuplePattern innerTargets <|> listPattern innerTargets))
    <|> ((place <|> starPattern) >> settle)

/-- One or more targets, as one node.  `e` says what may follow the targets behind the first
comma. -/
def targets (e : P → P) : P :=
  framed (firstTarget >> opt (e (comma >> moreTargets) >> wrap .patternList))

/-- The targets of a loop. -/
def loopTargets : P := ending .construct (targets id)

/-! ## Collections and comprehensions -/

def yieldExpression : P :=
  node .yieldExpression
    (keyword "yield" >> settle >> ((keyword "from" >> expression) <|> opt expressions))

/-- A starred element: any expression may follow the star. -/
def listSplat : P := node .listSplat (punct "*" >> expression)

def dictionarySplat : P := node .dictionarySplat (op "**" >> expression)

/-- An element ends here. -/
def elementEnd : P := ahead true (oneOf [",", ")", "]", "\x7d"])

/-- A starred expression in parentheses, possibly in several pairs of them, as a node of the given
kind. -/
def splatParentheses (kind : Kind) : P :=
  node kind (starEnclosed true >> bracketed "(" ")" (rule .enclosedSplat <|> listSplat))

/-- An expression that begins with a starred name, in parentheses. -/
def enclosedExpression : P :=
  bracketed "(" ")" (rule .enclosedExpression <|> (ahead true (punct "*") >> expression))

/-- An element that begins with no star.  A star behind parentheses belongs to a name if the
parentheses can be read that way, and otherwise to all that follows it inside of them; the
parentheses are then the whole element. -/
def plainElement (kind : Kind) : P :=
  (starEnclosed false >> expression)
    <|> (starEnclosed true
      >> ((ahead true (rule .enclosedExpression) >> expression)
        <|> (splatParentheses kind >> elementEnd)
        <|> (ahead false (splatParentheses kind) >> expression)))

/-- Where two stars are a mark of their own, they are not read as one star before another. -/
def single (p : P) : P := ahead false (op "**") >> p

def element : P := yieldExpression <|> listSplat <|> plainElement .parenthesizedListSplat

/-- The elements after the first one, up to the closing bracket. -/
def moreElements : P := many (comma >> element) >> opt comma

/-- A starred expression in parentheses as the first of several elements. -/
def leadingSplat (kind : Kind) : P := splatParentheses kind >> ahead true (op ",")


/-- A lambda in the iterated part of a comprehension, whose body is no bare conditional. -/
def forInClause (lambda : P) : P :=
  let iterated : P := lambda <|> rule .clauseExpression
  node .forInClause
    (opt (keyword "async") >> keyword "for" >> loopTargets >> keyword "in"
      >> iterated >> many (comma >> ahead false (keyword "async") >> iterated) >> opt comma)

def ifClause : P := node .ifClause (keyword "if" >> rule .clauseExpression)

/-! ## Parameters -/

def doubleStarPattern : P := node .dictionarySplatPattern (op "**" >> place)

/-- The separators that are no parameters themselves. -/
def separator : P :=
  (token .keywordSeparator (.op "*") <|> token .positionalSeparator (.op "/")) >> settle

/-- A parameter without a type. -/
def plainParameter : P :=
  framed ((name <|> tuplePattern (opt innerTargets)) >> settle
    >> opt (op "=" >> expression >> wrap .defaultParameter))
  <|> doubleStarPattern <|> starPattern <|> separator

def typed : P := op ":" >> rule .type

/-- A parameter with or without a type. -/
def parameter : P :=
  framed (name >> settle
    >> opt ((typed >> op "=" >> expression >> wrap .typedDefaultParameter)
      <|> (typed >> wrap .typedParameter)
      <|> (op "=" >> expression >> wrap .defaultParameter)))
  <|> framed (tuplePattern (opt innerTargets) >> opt (op "=" >> expression >> wrap .defaultParameter))
  <|> framed ((doubleStarPattern <|> starPattern) >> opt (typed >> wrap .typedParameter))
  <|> separator

/-- A lambda with the given body. -/
def lambdaWith (body : P) : P :=
  node .lambda
    (keyword "lambda"
      >> ending .construct (opt (node .lambdaParameters (commaList plainParameter)))
      >> op ":" >> body)

/-- The lambda of the iterated part of a comprehension. -/
def clauseLambda : P := lambdaWith (rule .clauseExpression)

def comprehensionClauses : P :=
  forInClause clauseLambda >> many (forInClause clauseLambda <|> ifClause)

/-! ## Brackets -/

/-- Elements of which the first one is starred, as a tuple. -/
def splatTuple (first : P) : P := first >> moreElements >> op ")" >> wrap .tuple

/-- `(...)`: a tuple, a generator or a parenthesised expression.

A single starred expression in parentheses is a tuple at the very end of the text.  Elsewhere the
star belongs to a name if the inside can be read that way, and the inside is then no tuple. -/
def parenthesized : P :=
  framed (opening "("
    >> ending .bracket
      ((op ")" >> wrap .tuple)
        <|> splatTuple (listSplat >> ahead true (op "," <|> (op ")" >> textEnd)))
        <|> splatTuple (splatParentheses .parenthesizedListSplat
          >> ahead true (op "," <|> (op ")" >> textEnd)))
        <|> ((yieldExpression <|> plainElement .parenthesizedListSplat)
          >> ((comprehensionClauses >> op ")" >> wrap .generatorExpression)
            <|> (lastIs false [.parenthesizedListSplat] >> op ")" >> wrap .parenthesizedExpression)
            <|> (moreElements >> op ")" >> wrap .tuple)))
        <|> splatTuple listSplat))

/-- `[...]`: a list or a list comprehension. -/
def listDisplay : P :=
  framed (opening "["
    >> ending .bracket
      ((op "]" >> wrap .list)
        <|> (ahead true (punct "*") >> expression >> op "]" >> wrap .list)
        <|> ((listSplat <|> leadingSplat .parenthesizedListSplat) >> moreElements >> op "]"
          >> wrap .list)
        <|> (yieldExpression >> moreElements >> op "]" >> wrap .list)
        <|> (plainElement .parenthesizedListSplat
          >> ((comprehensionClauses >> op "]" >> wrap .listComprehension)
            <|> (moreElements >> op "]" >> wrap .list)))))

def pair : P := node .pair (expression >> op ":" >> expression)

def dictionaryItem : P := dictionarySplat <|> pair

def moreItems : P := many (comma >> dictionaryItem) >> opt comma

/-- `{...}`: a dictionary, a set or a comprehension of either. -/
def braceDisplay : P :=
  framed (opening "\x7b"
    >> ending .bracket
      ((opt comma >> op "\x7d" >> wrap .dictionary)
        <|> (dictionarySplat >> moreItems >> op "\x7d" >> wrap .dictionary)
        <|> (single listSplat >> moreElements >> op "\x7d" >> wrap .set)
        <|> (yieldExpression >> moreElements >> op "\x7d" >> wrap .set)
        <|> (framed (single expression >> opt (op ":" >> expression >> wrap .pair))
          >> ((lastIs true [.pair]
              >> ((comprehensionClauses >> op "\x7d" >> wrap .dictionaryComprehension)
                <|> (moreItems >> op "\x7d" >> wrap .dictionary)))
            <|> (lastIs false [.pair]
              >> ((comprehensionClauses >> op "\x7d" >> wrap .setComprehension)
                <|> (moreElements >> op "\x7d" >> wrap .set)))))))

/-! ## Primaries -/

def keywordArgument : P :=
  node .keywordArgument (softName >> op "=" >> part .value expression)

def argument : P :=
  keywordArgument <|> dictionarySplat
    <|> (single (listSplat <|> plainElement .parenthesizedExpression))

def moreArguments : P := many (comma >> argument) >> opt comma

/-- Arguments: a list, or a generator that needs no parentheses of its own.  `first` is tried
before other expressions as the first argument. -/
def argumentsAfter (first : P) : P :=
  framed (opening "("
    >> ending .bracket
      ((opt comma >> op ")" >> wrap .argumentList)
        <|> ((keywordArgument <|> dictionarySplat <|> single (listSplat <|> first))
          >> moreArguments >> op ")" >> wrap .argumentList)
        <|> (single (plainElement .parenthesizedExpression)
          >> ((comprehensionClauses >> op ")" >> wrap .generatorExpression)
            <|> (moreArguments >> op ")" >> wrap .argumentList)))))

/-- The bases of a class. -/
def bases : P := argumentsAfter listSplat

/-- The arguments of a call.  A starred expression in parentheses is the first argument before a
comma and at the very end of the text. -/
def arguments : P :=
  argumentsAfter
    (leadingSplat .parenthesizedExpression
      <|> (splatParentheses .parenthesizedExpression >> ahead true (op ")" >> textEnd)))

def sliceTail : P :=
  op ":" >> settle >> opt expression >> opt (op ":" >> settle >> opt expression) >> wrap .slice

def index : P := framed ((expression >> opt sliceTail) <|> sliceTail)

/-- A call, a subscript or an attribute of what stands before. -/
def trailer : P :=
  (op "." >> label .object >> part .attributeName name >> settle >> wrap .attributeRef)
  <|> (ahead true (op "(") >> label .function >> part .arguments arguments >> settle >> wrap .call)
  <|> (op "[" >> ending .bracket (commaList index >> op "]") >> settle >> wrap .subscript)

/-- A starred name, attribute or subscript. -/
def starredPlace : P := node .listSplat (punct "*" >> place)

/-- At the very end of the text all attributes and subscripts are those of the place behind the
star. -/
def lastStarred : P := starredPlace >> settle >> textEnd

/-- A starred name, whose attributes and subscripts are those of the starred name. -/
def starredName : P := node .listSplat (punct "*" >> simpleName)

def atom : P :=
  strings
  <|> ((token .float .float <|> token .integer .integer <|> token .ellipsis (.op "...")
      <|> token .trueLiteral (.keyword "True") <|> token .falseLiteral (.keyword "False")
      <|> token .noneLiteral (.keyword "None")
      <|> parenthesized <|> listDisplay <|> braceDisplay <|> starredName <|> starredPlace <|> simpleName)
    >> settle)

def primary : P := framed (atom >> many trailer)

/-! ## Operators -/

def signed : P :=
  node .unaryOperator (oneOf ["+", "-", "~"] >> rule .signed)
  <|> node .awaitExpression (keyword "await" >> pause >> ahead true operandAhead >> rule .signed)
  <|> framed (rule .primary >> opt (op "**" >> rule .signed >> wrap .binaryOperator))

def binary : P :=
  framed (rule .signed
    >> many (oneOf ["+", "-", "*", "/", "//", "%", "@", "|", "&", "^", "<<", ">>"] >> rule .signed
      >> wrap .binaryOperator))

def comparisonMark : P :=
  oneOf ["<", "<=", "==", "!=", ">=", ">", "<>"] <|> keyword "in"
  <|> (keyword "not" >> keyword "in")
  <|> (keyword "is" >> opt (keyword "not"))

def comparison : P :=
  framed (binary >> opt (several (comparisonMark >> binary) >> wrap .comparisonOperator))

def lambda : P := lambdaWith expression

def conjunction : P :=
  framed (rule .negation >> many (keyword "and" >> rule .negation >> wrap .booleanOperator))

def disjunction : P :=
  framed (conjunction >> many (keyword "or" >> conjunction >> wrap .booleanOperator))

/-- An expression that is no bare conditional. -/
def clauseExpression : P :=
  framed (disjunction
    >> many (keyword "as" >> node .asPatternTarget disjunction >> wrap .asPattern))

/-- The name of a named expression and the mark after it. -/
def namedMark : P := simpleName >> settle >> op ":="

def namedExpression : P := node .namedExpression (namedMark >> disjunction)

def negation : P :=
  node .notOperator (keyword "not" >> rule .negation)
  <|> lambda <|> namedExpression
  <|> (ahead false namedMark >> comparison)

def conditional : P :=
  framed (rule .clauseExpression
    >> opt (keyword "if" >> ending .construct expression >> keyword "else" >> expression
      >> wrap .conditionalExpression))

def expressionList : P :=
  framed (expression
    >> opt (comma >> opt (expression >> many (comma >> expression) >> opt comma)
      >> wrap .expressionList))

/-! ## Types -/

def typeParameters : P := node .typeParameter (bracketed "[" "]" (commaList (rule .type)))

/-- A mark that goes on with an expression and cannot follow a type. -/
def operatorAhead : P :=
  oneOf ["(", "[", "+", "-", "*", "**", "/", "//", "%", "@", "&", "^", "<<", ">>", "<", "<=", "==",
    "!=", ">=", ">", "<>"]
  <|> keyword "and" <|> keyword "or" <|> keyword "not" <|> keyword "in" <|> keyword "is"
  <|> keyword "if" <|> keyword "as"

/-- A type that is no expression. -/
def namedType : P :=
  node .splatType (op "**" >> name >> settle)
  <|> (node .splatType
      (punct "*" >> ahead false (keyword "type") >> token .identifier .plainName >> settle)
    >> ahead false operatorAhead)
  <|> node .genericType (token .identifier .plainName >> settle >> typeParameters)

/-- An expression as a type.  A plain name before a bracket is no expression there. -/
def expressionType : P :=
  lastStarred
  <|> (ahead false (token .identifier .plainName >> settle >> op "[") >> single expression)

/-- A type that does not go on after a colon. -/
def unconstrainedType : P :=
  framed (namedType
    >> many ((op "|" >> node .typeNode namedType >> wrap .unionType)
      <|> (op "." >> name >> settle >> wrap .memberType))
    >> opt (op "|" >> node .typeNode expressionType >> wrap .unionType))
  <|> expressionType

def type : P :=
  node .typeNode (framed (unconstrainedType >> opt (op ":" >> rule .type >> wrap .constrainedType)))

/-! ## Assignments -/

/-- The end of a simple statement. -/
def statementEnd : P := ahead true (op ";" <|> newline)

/-- Several targets as a value, of which the first one is in brackets and the comma behind it on
another line. -/
def brokenTargets : P :=
  framed ((tuplePattern innerTargets <|> listPattern innerTargets)
    >> settle >> ahead true newline >> ending .construct settle
    >> comma >> moreTargets >> wrap .patternList)
  >> statementEnd

/-- The right side of an assignment. -/
def rightHandSide : P :=
  rule .assignment <|> yieldExpression <|> lastStarred <|> brokenTargets <|> expressions

def augmentedMark : P :=
  oneOf ["+=", "-=", "*=", "/=", "@=", "//=", "%=", "**=", ">>=", "<<=", "&=", "^=", "|="]

/-- An assignment to the given targets. -/
def assignmentTo (targets : P) : P :=
  framed (targets >> label .left
    >> ((op "=" >> part .right rightHandSide >> wrap .assignment)
      <|> (op ":" >> part .typeHint (rule .type) >> opt (op "=" >> part .right rightHandSide)
        >> wrap .assignment)
      <|> (augmentedMark >> part .right rightHandSide >> wrap .augmentedAssignment)))

/-- An assignment as a statement.  The line does not end behind a comma between its targets. -/
def assignment : P := assignmentTo (targets (ending .construct))

/-- An assignment on the right of another one.  Several targets are also an expression there, so
the line may end behind each of them. -/
def chainedAssignment : P := assignmentTo (targets id)

/-! ## Simple statements -/

def dottedName : P := node .dottedName (name >> settle >> many (op "." >> name >> settle))

def importedName : P :=
  framed (dottedName >> opt (keyword "as" >> name >> settle >> wrap .aliasedImport))

def importList : P := commaList importedName

def importedNames : P := bracketed "(" ")" importList <|> importList

def importStatement : P := node .importStatement (keyword "import" >> importList)

def futureImport : P :=
  node .futureImportStatement
    (keyword "from" >> keyword "__future__" >> keyword "import" >> importedNames)

def relativeImport : P :=
  node .relativeImport
    (node .importPrefix (several (punct ".")) >> settle >> opt (ending .construct dottedName))

def importFrom : P :=
  node .importFromStatement
    (keyword "from" >> ahead false (keyword "__future__")
      >> ending .construct (relativeImport <|> dottedName) >> keyword "import"
      >> ((token .wildcardImport (.op "*") >> settle) <|> importedNames))

def printChevron : P :=
  node .printStatement
    (keyword "print" >> pause >> node .chevron (op ">>" >> expression)
      >> many (comma >> expression) >> opt comma)

def printStatement : P := node .printStatement (keyword "print" >> pause >> commaList expression)

def execStatement : P :=
  node .execStatement
    (keyword "exec" >> pause >> (string <|> (name >> settle))
      >> opt (keyword "in" >> strictList expression))

def typeAlias : P :=
  node .typeAliasStatement
    (keyword "type" >> pause >> ending .construct (rule .type) >> op "=" >> rule .type)

def expressionStatement : P :=
  node .expressionStatement
    (assignment <|> yieldExpression <|> lastStarred <|> commaList expression)

def wordStatement (kind : Kind) (word : String) : P := node kind (keyword word >> settle)

def simpleStatement : P :=
  ending .line
    (importStatement <|> futureImport <|> importFrom
    <|> node .assertStatement (keyword "assert" >> strictList expression)
    <|> node .returnStatement (keyword "return" >> settle >> opt expressions)
    <|> node .deleteStatement (keyword "del" >> expressions)
    <|> node .raiseStatement
      (keyword "raise" >> settle >> opt expressions >> opt (keyword "from" >> expression))
    <|> wordStatement .passStatement "pass"
    <|> wordStatement .breakStatement "break"
    <|> wordStatement .continueStatement "continue"
    <|> node .globalStatement (keyword "global" >> strictList (name >> settle))
    <|> node .nonlocalStatement (keyword "nonlocal" >> strictList (name >> settle))
    <|> printChevron
    <|> (execStatement >> statementEnd)
    <|> (typeAlias >> statementEnd)
    <|> (expressionStatement >> statementEnd)
    <|> printStatement)

/-- Simple statements on one line. -/
def simpleStatements : P :=
  simpleStatement >> many (op ";" >> expect { newline := true, quote := true } >> simpleStatement)
    >> opt (op ";" >> expect { newline := true, quote := true }) >> newline

/-! ## Compound statements -/

/-- Makes a block of the frame, empty or not. -/
def wrapBlock : P := wrap .block <|> blank .block

/-- A colon and the statements below it. -/
def suite : P :=
  op ":" >> expect .suite
    >> part .body (framed
      ((indent >> many (rule .statement) >> dedent >> wrapBlock)
        <|> (simpleStatements >> wrapBlock)
        <|> (newline >> blank .block)))

/-- The mark of a construct that may suspend. -/
def asyncMark : P := opt (ending .line (keyword "async" >> pause))

/-- An expression in a header. -/
def condition : P := ending .construct expression

def elseClause : P := node .elseClause (keyword "else" >> suite)

def ifStatement : P :=
  node .ifStatement
    (keyword "if" >> condition >> suite
      >> many (node .elifClause (keyword "elif" >> condition >> suite))
      >> opt elseClause)

def forStatement : P :=
  node .forStatement
    (asyncMark >> keyword "for" >> loopTargets >> keyword "in"
      >> ending .construct expressions >> suite >> opt elseClause)

def whileStatement : P :=
  node .whileStatement (keyword "while" >> condition >> suite >> opt elseClause)

def tryStatement : P :=
  node .tryStatement
    (keyword "try" >> suite
      >> many (node .exceptClause
          (keyword "except" >> opt (punct "*") >> opt (ending .construct (strictList expression))
            >> suite))
      >> opt elseClause
      >> opt (node .finallyClause (keyword "finally" >> suite)))

def withItem : P := node .withItem expression

def withStatement : P :=
  node .withStatement
    (asyncMark >> keyword "with"
      >> ((node .withClause (ending .construct (bracketed "(" ")" (commaList withItem)))
          >> ahead true (op ":"))
        <|> node .withClause (ending .construct (commaList withItem)))
      >> suite)

def functionDefinition : P :=
  node .functionDefinition
    (asyncMark >> keyword "def" >> part .name name >> opt typeParameters
      >> node .parameters (ending .construct (bracketed "(" ")" (opt (commaList parameter))))
      >> opt (op "->" >> ending .construct (node .typeNode unconstrainedType))
      >> suite)

def classDefinition : P :=
  node .classDefinition
    (keyword "class" >> part .name name >> opt typeParameters
      >> opt (part .superclasses
        (ending .construct (bases >> lastIs true [.argumentList]) >> settle))
      >> suite)

def decoratedDefinition : P :=
  node .decoratedDefinition
    (several (node .decorator (op "@" >> ending .line expression >> newline))
      >> part .definition (classDefinition <|> functionDefinition))

/-! ## Pattern matching -/

def number : P := (token .float .float <|> token .integer .integer) >> settle

def patternList : P := commaList (rule .casePattern)

def patternDottedName : P :=
  node .dottedName (token .identifier .patternName >> settle >> many (op "." >> name >> settle))

def splatPattern : P := node .splatPattern ((op "**" <|> op "*") >> name >> settle)

def dictPattern : P :=
  node .dictPattern
    (bracketed "\x7b" "\x7d"
      (opt (commaList
        (splatPattern <|> (rule .simplePattern >> op ":" >> rule .casePattern)))))

def closedPattern : P :=
  framed (patternDottedName
    >> opt (bracketed "(" ")" (opt patternList) >> wrap .classPattern))
  <|> splatPattern
  <|> node .listPattern (bracketed "[" "]" (opt patternList))
  <|> node .tuplePattern (bracketed "(" ")" (opt patternList))
  <|> dictPattern
  <|> strings
  <|> framed (opt (op "-") >> number
    >> opt (oneOf ["+", "-"] >> number >> wrap .complexPattern))
  <|> ((token .trueLiteral (.keyword "True") <|> token .falseLiteral (.keyword "False")
      <|> token .noneLiteral (.keyword "None") <|> keyword "_")
    >> settle)

def simplePattern : P :=
  framed (closedPattern >> opt (several (op "|" >> closedPattern) >> wrap .unionPattern))

def casePattern : P :=
  node .casePattern
    (framed ((node .keywordPattern
          (token .identifier .patternName >> settle >> op "=" >> rule .simplePattern)
        <|> rule .simplePattern)
      >> many (keyword "as" >> name >> settle >> wrap .asPattern)))

def caseClause : P :=
  node .caseClause
    (keyword "case" >> ending .construct
        (patternList >> opt (node .ifClause (keyword "if" >> expression)))
      >> suite)

def matchStatement : P :=
  node .matchStatement
    (ending .line (keyword "match" >> pause) >> ending .construct (commaList expression) >> op ":"
      >> expect .suite
      >> part .body (framed
        ((indent >> many caseClause >> dedent >> wrapBlock) <|> (newline >> blank .block))))

/-! ## Statements -/

def statement : P :=
  begin
    >> (ifStatement <|> forStatement <|> whileStatement <|> tryStatement <|> withStatement
      <|> functionDefinition <|> classDefinition <|> decoratedDefinition <|> matchStatement
      <|> simpleStatements)

/-- The pattern of each rule. -/
def rules : Production → P
  | .expression => conditional
  | .clauseExpression => clauseExpression
  | .negation => negation
  | .signed => signed
  | .primary => primary
  | .enclosedSplat => splatParentheses .parenthesizedExpression
  | .enclosedExpression => enclosedExpression
  | .expressions => expressionList
  | .target => target
  | .assignment => chainedAssignment
  | .type => type
  | .interpolation => node .interpolation interpolated
  | .formatExpression => node .formatExpression interpolated
  | .casePattern => casePattern
  | .simplePattern => simplePattern
  | .statement => statement

/-- A whole file. -/
def file : P := many (rule .statement) >> finish

end Grammar

end PermissionLint.Syntax
