import JavaSource.Grammar.Production.Statements

/-!
# Grammar — Production — Expressions

Expressions, from lambdas and assignments down to primaries.  A phrase for an operator appears
only where the operator does.
-/

namespace JavaSource.Grammar.Production

open Move

/-- One expression on its own. -/
def expressionStart : Move Unit := do
  read .expression
  finish
  close .expressionStart

/-- A lambda, an assignment or less. -/
def expression : Move Unit := do
  nest
  if (← ahead).startsLambda then read .lambda
  else
    read .ternary
    if (← ahead).kind.isAssignment then
      take
      read .expression
      close .assignment

/-! ### Lambdas -/

/-- A block or an expression. -/
def lambdaBody : Move Unit := do
  if ← isAt .lbrace then read .block else read .expression

/-- `a -> b` or `(A a) -> { … }` -/
def lambda : Move Unit := do
  read .lambdaParameters
  expect .arrow
  lambdaBody
  close .lambda

/-- Whether plain names stand between parentheses. -/
def namesOnly (a : Ahead) : Bool :=
  a.kindAt 1 == .rparen
    || (a.kindAt 1 == .identifier && (a.kindAt 2 == .comma || a.kindAt 2 == .rparen))

/-- A name, names in parentheses, or parameters with types. -/
def namesOrParameters : Move Unit := do
  let a ← ahead
  if a.isAt .identifier then take
  else if namesOnly a then
    expect .lparen
    loop do
      if ← isAt .rparen then return false
      else
        expect .identifier
        eat .comma
    expect .rparen
  else read (.formalParameters true)

/-- What stands before the arrow of a lambda. -/
def lambdaParameters : Move Unit := do
  namesOrParameters
  close .lambdaParameters

/-! ### Operators -/

/-- What stands behind the colon of a conditional expression. -/
def alternative : Move Unit := do
  if (← ahead).startsLambda then read .lambda
  else
    nest
    read .ternary

/-- `a ? b : c`, grouping to the right. -/
def ternary : Move Unit := do
  read (.binary .conditionalOr)
  if ← eat .question then
    read .expression
    expect .colon
    alternative
    close .ternary

/-- What stands to the right of an operator. -/
def rightOperand (layer : Layer) : Move Unit :=
  match layer.tighter with
  | some tighter => read (.binary tighter)
  | none         => read .unary

/-- An operator of one symbol, or of several that touch. -/
def operatorToken (op : TokenKind) (width : Nat) : Move Unit :=
  if width == 1 then take else joined op width

/-- What a value is tested to be: a pattern or a type. -/
def patternOrType : Move Unit := do
  if (← attempt .pattern).isSome then read .pattern else read .type

/-- An operator and what stands to the right of it. -/
def operation (layer : Layer) (op : TokenKind) (width : Nat) : Move Unit := do
  nest
  operatorToken op width
  if op == .instanceOfKw then
    patternOrType
    close .instanceOf
  else
    rightOperand layer
    close layer.phrase

/-- Binary operators no looser than a layer, grouping to the left.  Each one counts as a level of
nesting. -/
def binary (loosest : Layer) : Move Unit := do
  read .unary
  loop do
    let (op, width) := (← ahead).operator
    match Layer.ofOperator op with
    | none       => return false
    | some layer =>
      if layer.rank < loosest.rank then return false
      else
        operation layer op width
        return true

/-- Whether the parenthesis here opens a cast.  `(A) - b` is a difference, `(int) - b` a cast. -/
def startsCast : Move Bool := do
  let a ← ahead
  match ← attempt .castHead with
  | none       => return false
  | some width =>
    let b := a.skip width
    if width == 3 && (a.kindAt 1).isPrimitiveType then return Ahead.startsUnary b.kind
    else return Ahead.startsUnsigned b.kind || b.startsLambda

/-- `(A & B)` -/
def castHead : Move Unit := do
  expect .lparen
  separated .bitAnd .type
  expect .rparen

/-- What is cast: a lambda, or an operand. -/
def castOperand : Move Unit := do
  if (← ahead).startsLambda then read .lambda else read .unary

/-- A sign, a cast or less. -/
def unary : Move Unit := do
  nest
  match (← ahead).kind with
  | .inc | .dec | .add | .sub | .tilde | .bang =>
    take
    read .unary
    close .prefixed
  | .lparen =>
    if ← startsCast then
      read .castHead
      castOperand
      close .cast
    else read .postfixed
  | _ => read .postfixed

/-- A name or `new`. -/
def nameOrNew : Move Unit := do
  let a ← ahead
  if a.isAt .newKw || a.isAt .identifier then take
  else mismatch "\x7b'new', Identifier\x7d"

/-- `:: <A> b` or `:: new`, behind its target. -/
def methodReference : Move Unit := do
  expect .colonColon
  readAt .lt .typeArguments
  nameOrNew
  close .methodReference

/-- A primary with selectors, then `++` and `--`; each counts as a level of nesting. -/
def postfixed : Move Unit := do
  read .primary
  loop do
    match (← ahead).kind with
    | .dot =>
      nest
      take
      read .selected
      close .memberAccess
      return true
    | .lbrack =>
      nest
      take
      read .expression
      expect .rbrack
      close .arrayAccess
      return true
    | .colonColon =>
      nest
      methodReference
      return true
    | _ => return false
  loop do
    let a ← ahead
    if a.isAt .inc || a.isAt .dec then
      nest
      take
      close .postfixed
      return true
    else return false

/-! ### Creation -/

/-- `[a]` -/
def dimExpr : Move Unit := do
  expect .lbrack
  read .expression
  expect .rbrack
  close .dimExpr

/-- Arguments of a constructor, and a body or none. -/
def constructed : Move Unit := do
  read .arguments
  readAt .lbrace (.classBody .member)

/-- Refuses an array without dimensions. -/
def expectDims : Move Unit :=
  provided (·.last != some .dim) (mismatch TokenKind.lbrack.describe)

/-- `new <A> B<C>(d) { … }`, `new A[b][]` or `new A[] { … }` -/
def creator : Move Unit := do
  expect .newKw
  readAt .lt .typeArguments
  read .bareType
  let a ← ahead
  if a.isAt .lbrack || a.behind.any (·.isPrimitiveType) then
    readWhile (fun a => a.isAt .lbrack && a.kindAt 1 != .rbrack) .dimExpr
    let sized := (← ahead).last == some .dimExpr
    dims
    if sized then close .arrayCreation
    else
      expectDims
      read .arrayInitializer
      close .arrayCreation
  else
    constructed
    close .objectCreation

/-- `new <A> B<C>(d) { … }` behind an object and a dot. -/
def innerCreator : Move Unit := do
  expect .newKw
  readAt .lt .typeArguments
  read .annotations
  expect .identifier
  readAt .lt .typeArguments
  constructed
  close .innerCreation

/-! ### Primaries -/

/-- The word or symbol standing here as a phrase of its own. -/
def single (kind : Phrase) : Move Unit := do
  take
  close kind

/-- What may follow a dot. -/
def selected : Move Unit := do
  let a ← ahead
  match a.kind with
  | .identifier => if a.kindAt 1 == .lparen then read .methodCall else single .plainName
  | .lt         => read .genericInvocation
  | .thisKw     => single .thisWord
  | .superKw    => read .superAccess
  | .newKw      => innerCreator
  | _           => mismatch TokenKind.identifier.describe

/-- `.class` or a method reference, behind a type. -/
def typeSelector : Move Unit := do
  if ← isAt .colonColon then methodReference
  else
    expect .dot
    expect .classKw
    close .classLiteral

/-- Whether a type stands here with `.class` or `::` behind it.  A dotted name before `::` is left
to be read as an expression, unless `new` follows. -/
def startsTypeSelector : Move Bool := do
  let a ← ahead
  match a.kindAt 1 with
  | .dot | .lt | .lbrack | .colonColon | .atSign =>
    match ← attempt .type with
    | none       => return false
    | some width =>
      let b := a.skip width
      return (b.isAt .dot && b.kindAt 1 == .classKw)
        || (b.isAt .colonColon && (!a.isPlainName width || b.kindAt 1 == .newKw))
  | _ => return false

/-- What operators and selectors apply to. -/
def primary : Move Unit := do
  let a ← ahead
  match a.kind with
  | .lparen =>
    take
    read .expression
    expect .rparen
    close .parenthesized
  | .thisKw  => if a.kindAt 1 == .lparen then read .methodCall else single .thisWord
  | .superKw => read .superAccess
  | .newKw   => creator
  | .switchKw =>
    take
    condition
    read .switchBlock
    close .switchExpression
  | .lt => read .genericInvocation
  | .identifier =>
    if a.kindAt 1 == .lparen then read .methodCall
    else if ← startsTypeSelector then
      read .type
      typeSelector
    else single .plainName
  | kind =>
    if kind.isLiteral then single .literal
    else if kind.isPrimitiveType || kind == .voidKw then
      read .resultType
      typeSelector
    else fail .noViableAlternative

/-- The name of a method, or a word for a constructor. -/
def callee : Move Unit := do
  let a ← ahead
  if a.isAt .identifier || a.isAt .thisKw || a.isAt .superKw then take
  else mismatch TokenKind.identifier.describe

/-- `a(b)`, `this(a)` or `super(a)` -/
def methodCall : Move Unit := do
  callee
  read .arguments
  close .methodCall

/-- `(a, b)` -/
def arguments : Move Unit := do
  expect .lparen
  provided (!·.isAt .rparen) (separated .comma .expression)
  expect .rparen
  close .arguments

/-- `super(a)`, `super.<A> b(c)` or `super` alone. -/
def superAccess : Move Unit := do
  match (← ahead).kindAt 1 with
  | .lparen => read .methodCall
  | .dot =>
    takeTwo
    readAt .lt .typeArguments
    expect .identifier
    readAt .lparen .arguments
    close .superAccess
  | _ =>
    expect .superKw
    close .superWord

/-- A call, by name or by `this` or `super`. -/
def callOrSuper : Move Unit := do
  match (← ahead).kind with
  | .identifier | .thisKw => read .methodCall
  | .superKw              => read .superAccess
  | _                     => mismatch TokenKind.identifier.describe

/-- `<A> b(c)`, `<A> this(b)` or `<A> super.b` -/
def genericInvocation : Move Unit := do
  read .typeArguments
  callOrSuper
  close .explicitGenericInvocation

end JavaSource.Grammar.Production
