import JavaSource.Grammar.Production.Declarations

/-!
# Grammar — Production — Statements

Statements, and what a block may hold beside them.
-/

namespace JavaSource.Grammar.Production

open Move

/-- `{ … }` with statements. -/
def block : Move Unit := do
  expect .lbrace
  readWhile isInBody .blockStatement
  expect .rbrace
  close .block

/-- Whether a type is declared here, modifiers before it or not. -/
def startsLocalType : Move Bool := do
  let a ← ahead
  if a.startsTypeDeclaration then return true
  else if a.startsModifier then
    return (← attempt .modifiers).any fun width => (a.skip width).startsTypeDeclaration
  else return false

/-- A statement, a local type or local variables. -/
def blockStatement : Move Unit := do
  let a ← ahead
  if a.startsYield || (a.isAt .synchronizedKw && a.kindAt 1 == .lparen) then read .statement
  else if ← startsLocalType then
    read (.memberDeclaration .outermost)
    close .localTypeDeclaration
  else if ← startsVariable then
    read .localVariableDeclaration
    expect .semi
    close .localVariableDeclarationStatement
  else read .statement

/-- `final A a = 1, b` -/
def localVariableDeclaration : Move Unit := do
  read .modifiers
  read .type
  read .variableDeclarators
  close .localVariableDeclaration

/-- `( expression )` -/
def condition : Move Unit := do
  expect .lparen
  read .expression
  expect .rparen

/-- `expression;` -/
def expressionStatement : Move Unit := do
  read .expression
  expect .semi
  close .expressionStatement

/-- An expression between the word standing here and a semicolon. -/
def wordAndExpression (kind : Phrase) : Move Unit := do
  take
  read .expression
  expect .semi
  close kind

/-- A jump, its label or none. -/
def jump (kind : Phrase) : Move Unit := do
  take
  let _ ← eat .identifier
  expect .semi
  close kind

/-! ### Loops -/

/-- Whether a variable and a colon follow, behind the opening parenthesis of a loop. -/
def startsForEach : Move Bool := do
  let a ← ahead
  return (← modifiedTypeWidth).any fun width =>
    a.kindAt width == .identifier && (a.skip (width + 1)).skipDims.isAt .colon

/-- A `for` of either kind. -/
def forStatement : Move Unit := do
  expect .forKw
  expect .lparen
  if ← startsForEach then
    read .modifiers
    read .type
    read .variableDeclaratorId
    expect .colon
    read .expression
    expect .rparen
    read .statement
    close .enhancedForStatement
  else
    provided (!·.isAt .semi) (read .forInit)
    expect .semi
    provided (!·.isAt .semi) (read .expression)
    expect .semi
    provided (!·.isAt .rparen) (read .forUpdate)
    expect .rparen
    read .statement
    close .forStatement

/-- Variables or expressions. -/
def variablesOrExpressions : Move Unit := do
  if ← startsVariable then read .localVariableDeclaration
  else separated .comma .expression

/-- What a loop starts with. -/
def forInit : Move Unit := do
  variablesOrExpressions
  close .forInit

/-- Expressions. -/
def forUpdate : Move Unit := do
  separated .comma .expression
  close .forUpdate

/-! ### Try -/

/-- `try` with resources or with at least one handler. -/
def tryStatement : Move Unit := do
  expect .tryKw
  let managed ← isAt .lparen
  if managed then read .resourceSpecification
  read .block
  readWhile (·.isAt .catchKw) .catchClause
  readAt .finallyKw .finallyClause
  if managed then close .tryWithResourcesStatement
  else if (← ahead).last == some .block then mismatch "\x7b'catch', 'finally'\x7d"
  else close .tryStatement

/-- `finally { … }` -/
def finallyClause : Move Unit := do
  expect .finallyKw
  read .block
  close .finallyClause

/-- `(A a = b; c)`, one more semicolon allowed. -/
def resourceSpecification : Move Unit := do
  expect .lparen
  loop do
    read .resource
    if ← eat .semi then return !(← isAt .rparen) else return false
  expect .rparen
  close .resourceSpecification

/-- A variable or a name. -/
def variableOrName : Move Unit := do
  if ← startsVariable then
    read .modifiers
    read .type
    read .resourceVariable
  else read .qualifiedName

/-- What is closed behind a block. -/
def resource : Move Unit := do
  variableOrName
  close .resource

/-- `a = b` -/
def resourceVariable : Move Unit := do
  read .variableDeclaratorId
  expect .assign
  read .expression
  close .variableDeclarator

/-- `catch (final A | B c) { … }` -/
def catchClause : Move Unit := do
  expect .catchKw
  expect .lparen
  read .modifiers
  read .catchType
  expect .identifier
  expect .rparen
  read .block
  close .catchClause

/-- `A | B` -/
def catchType : Move Unit := do
  separated .bitOr .qualifiedName
  close .catchType

/-! ### Switch -/

/-- Whether a label starts here. -/
def startsLabel (a : Ahead) : Bool := a.isAt .caseKw || a.isAt .defaultKw

/-- `{ … }` with rules or groups. -/
def switchBlock : Move Unit := do
  expect .lbrace
  readWhile (!·.isAt .rbrace) .switchEntry
  expect .rbrace
  close .switchBlock

/-- Refuses anything but a label. -/
def expectLabel : Move Unit :=
  provided (!startsLabel ·) (mismatch "\x7b'case', 'default', '\x7d'\x7d")

/-- What stands behind the arrow of a rule. -/
def ruleBody : Move Unit := do
  match (← ahead).kind with
  | .lbrace  => read .block
  | .throwKw => read .statement
  | _        => read .expressionStatement

/-- A label and an arrow, or labels with colons and their statements. -/
def switchEntry : Move Unit := do
  expectLabel
  read .switchLabel
  if ← eat .arrow then
    ruleBody
    close .switchRule
  else
    expect .colon
    loop do
      if startsLabel (← ahead) then
        read .switchLabel
        expect .colon
        return true
      else return false
    readWhile (fun a => isInBody a && !startsLabel a) .blockStatement
    close .switchGroup

/-- `default` or `case a, b` -/
def bareLabel : Move Unit := do
  if !(← eat .defaultKw) then
    expect .caseKw
    separated .comma .caseItem

/-- A label, up to its arrow or colon. -/
def switchLabel : Move Unit := do
  bareLabel
  close .switchLabel

/-- A pattern, guarded or not, or an expression without an assignment. -/
def caseItem : Move Unit := do
  if (← attempt .pattern).isSome then
    read .pattern
    let a ← ahead
    if a.isAtWord "when" || a.isAt .andAnd then
      take
      read (.binary .conditionalOr)
      close .guardedPattern
  else read .ternary

/-- `final A a` -/
def pattern : Move Unit := do
  read .modifiers
  read .type
  expect .identifier
  close .pattern

/-! ### Any statement -/

/-- A statement. -/
def statement : Move Unit := do
  nest
  let a ← ahead
  match a.kind with
  | .lbrace => read .block
  | .semi =>
    take
    close .emptyStatement
  | .ifKw =>
    take
    condition
    read .statement
    readAfter .elseKw .statement
    close .ifStatement
  | .assertKw =>
    take
    read .expression
    readAfter .colon .expression
    expect .semi
    close .assertStatement
  | .switchKw =>
    take
    condition
    read .switchBlock
    close .switchStatement
  | .whileKw =>
    take
    condition
    read .statement
    close .whileStatement
  | .doKw =>
    take
    read .statement
    expect .whileKw
    condition
    expect .semi
    close .doStatement
  | .forKw      => forStatement
  | .breakKw    => jump .breakStatement
  | .continueKw => jump .continueStatement
  | .returnKw =>
    take
    provided (!·.isAt .semi) (read .expression)
    expect .semi
    close .returnStatement
  | .throwKw => wordAndExpression .throwStatement
  | .synchronizedKw =>
    take
    condition
    read .block
    close .synchronizedStatement
  | .tryKw => tryStatement
  | _ =>
    if a.startsYield then wordAndExpression .yieldStatement
    else if a.isAt .identifier && a.kindAt 1 == .colon then
      takeTwo
      read .statement
      close .labeledStatement
    else expressionStatement

/-- One statement on its own. -/
def statementStart : Move Unit := do
  read .blockStatement
  finish
  close .statementStart

end JavaSource.Grammar.Production
