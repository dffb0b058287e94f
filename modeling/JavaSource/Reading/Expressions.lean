import JavaSource.Literal.Floating
import JavaSource.Literal.TextBlock
import JavaSource.Reading.Types

/-!
# Reading — Expressions

Expressions and what stands in them.  Binary operations, member accesses and array accesses chain
to the left as far as the source goes on; a chain is read from its innermost link outwards.
-/

namespace JavaSource

open Text (Span)

/-! ### Literals -/

/-- The value that a literal token stands for. -/
def Token.literalValue? (t : Token) : Except NodeProblem LiteralValue :=
  match t.kind with
  | .integerLiteral =>
    match Literal.integer? t.text with
    | some (value, long) => .ok (.int value long)
    | none               => .error (.outOfRange t.text)
  | .floatingLiteral =>
    match Literal.floating? t.text with
    | some (value, double) => .ok (.float value double)
    | none                 => .error (.outOfRange t.text)
  | .charLiteral   => .ok (.char (String.ofList (Literal.unquote 1 t.text)))
  | .stringLiteral => .ok (.string (String.ofList (Literal.unquote 1 t.text)))
  | .textBlock     => .ok (.textBlock (Literal.textBlockLines t.text))
  | .trueKw        => .ok (.bool true)
  | .falseKw       => .ok (.bool false)
  | .nullKw        => .ok .null
  | kind           => .error (.notLiteral kind.describe)

namespace Opened

variable (o : Opened)

/-- A literal.  A value out of range is the fault of the literal and not of the tree. -/
def literal : Reading .literal := do
  match (← o.token).literalValue? with
  | .ok value                 => return .literal none value
  | .error (.outOfRange text) => .error (.of "Literal" "value" (.outOfRange text))
  | .error problem            => o.error problem

/-! ### Left chains -/

/-- The phrases whose first phrase is the left operand or receiver that they extend. -/
def isChain : Phrase → Bool
  | .conditionalOr | .conditionalAnd | .inclusiveOr | .exclusiveOr | .bitAnd | .equality
  | .relational | .shift | .additive | .multiplicative | .memberAccess | .arrayAccess => true
  | _ => false

/-- The operator of a kind that the first token spells. -/
def operator {α : Type} (place : OperatorPlace) (ofText? : String → Option α) :
    Except NodeError α := do
  let token ← o.token
  match ofText? token.text with
  | some op => return op
  | none    => o.error (.unknownOperator place token.text)

/-- One link of a chain, its left side given. -/
def extend (left : Expr) : Reading .expr := do
  let right ← o.readNth 1 .expr
  match o.tree.phrase? with
  | some .memberAccess => return .member o.span left right
  | some .arrayAccess  => return .index o.span left right
  | _ => return .binary o.span left (.binaryOperator (← o.operator .between BinaryOp.ofText?)) right

end Opened

mutual

/-- Follows a chain down from one of its parts.  The links so far are extended by those below; the
result is the innermost link first, and what the chain starts with. -/
def Part.chainStart (links : List Opened) : Part → Except NodeError (List Opened × Part)
  | .mk tree parts read =>
    if tree.phrase?.any Opened.isChain then
      firstStart (⟨tree, parts⟩ :: links) ⟨tree, parts⟩ parts
    else .ok (links, .mk tree parts read)

/-- Follows a chain down from the first phrase among the parts of a link. -/
def Part.firstStart (links : List Opened) (link : Opened) :
    List Part → Except NodeError (List Opened × Part)
  | []      => link.lacks "at least 1 child rules"
  | p :: ps => if p.isPhrase then p.chainStart links else firstStart links link ps

end

namespace Opened

variable (o : Opened)

/-- A whole chain, from its start outwards. -/
def chain : Reading .expr := do
  let (links, start) ← Part.firstStart [o] o o.parts
  links.foldlM (fun left link => link.extend left) (← start.read .expr)

/-! ### Operators and lambdas -/

/-- `a = b` or `a += b` -/
def assignment : Reading .expr := do
  let op ← if (← o.token).kind == .assign then pure .absent else do
    pure (Node.present (.assignOperator (← o.operator .inAssignment AssignOp.ofText?)))
  let target ← o.readNth 0 .expr
  return .assignment o.span target op (← o.readNth 1 .expr)

/-- `a instanceof T` -/
def instanceOf : Reading .expr := do
  let value ← o.readNth 0 .expr
  let target ← o.nth 1
  if target.isA .pattern then
    return .instanceOf o.span value (.patternTarget (← target.read .pattern))
  else return .instanceOf o.span value (.typeTarget (← target.read .type))

/-- `x`, `(x, y)` or `(T x, U y)` -/
def lambdaParams : Reading .lambdaParams := do
  match o.first? .formalParameters with
  | some formal => .formalParams <$> formal.read .formalParameters
  | none =>
    if o.hasToken .lparen then return .nameParams (.ofList o.identifiers)
    else .singleParam <$> o.identifierAs "a parameter name"

/-- `x -> y` -/
def lambda : Reading .expr := do
  let params ← o.readFirst .lambdaParameters .lambdaParams
  let body ← o.nth 1
  let body ←
    if body.isA .block then .blockBody <$> body.read .block else .exprBody <$> body.read .expr
  (Node.lambda o.span params body).checked

/-! ### Calls and references -/

/-- `f(a)`, `this(a)` or `super(a)` -/
def methodCall : Reading .expr := do
  let callee ← o.token
  let func : Expr := match callee.kind with
    | .thisKw  => .thisExpr (some callee.span) .absent
    | .superKw => .superExpr (some callee.span) .absent .absent .absent
    | _        => .name (some callee.span) callee.identifier
  return .call o.span func (← o.readFirst .arguments .exprs)

/-- `super.<T>f(a)` -/
def superAccess : Reading .expr := do
  let id ← o.identifier
  let typeArgs ← o.readFirst? .typeArguments .typeArguments
  return .superExpr o.span typeArgs (.present id) (← o.readFirst? .arguments .exprs)

/-- `a::b` or `T::new` -/
def methodReference : Reading .expr := do
  let target ← o.nth 0
  let target ←
    if target.isA .type then .typeReference <$> target.read .type
    else .exprReference <$> target.read .expr
  let typeArgs ← o.readFirst? .typeArguments .typeArguments
  (Node.reference o.span target typeArgs (.ofOption o.identifier?) (o.hasToken .newKw)).checked

/-- `<T>f(a)` -/
def genericCall : Reading .expr := do
  let typeArgs ← o.readFirst .typeArguments .typeArguments
  return .genericCall o.span typeArgs (← o.readNth 1 .expr)

/-! ### Creation -/

/-- `new <T> A(b) { … }` -/
def objectCreation : Reading .expr := do
  let ty ← o.readFirst .type .type
  let args ← o.readFirst .arguments .exprs
  let typeArgs ← o.readFirst? .typeArguments .typeArguments
  return .newObject o.span typeArgs ty args (← o.readFirst? .classBody .decls)

/-- What has been read of the head of an inner creation. -/
structure InnerHead where
  typeArgs : OptNode .typeArguments
  id : Option (Node .identifier)
  classTypeArgs : OptNode .typeArguments

/-- One more part of such a head: a name, or type arguments in front of it or behind it. -/
def InnerHead.push (head : InnerHead) (p : Part) : Except NodeError InnerHead := do
  match p.tree.token? with
  | some t => return if t.kind == .identifier then { head with id := some t.identifier } else head
  | none   =>
    if !p.isA .typeArguments then return head
    let args ← p.read .typeArguments
    return if head.id.isNone then { head with typeArgs := .present args }
      else { head with classTypeArgs := .present args }

/-- `new <T> A<U>(b) { … }` behind a dot -/
def innerCreation : Reading .expr := do
  let head ← o.parts.foldlM InnerHead.push ⟨.absent, none, .absent⟩
  let some id := head.id | o.lacks "a class name"
  let args ← o.readFirst .arguments .exprs
  let body ← o.readFirst? .classBody .decls
  return .newInner o.span head.typeArgs id head.classTypeArgs args body

/-- `[a]` -/
def dimExpr : Reading .dimExpr := .dimExpr o.span .nil <$> o.readNth 0 .expr

/-- `{a, b}` -/
def arrayInitializer : Reading .arrayInitializer :=
  .arrayInitializer o.span <$> Part.readAll .expr o.phrases

/-- `new T[a][]` or `new T[] {a}` -/
def arrayCreation : Reading .expr := do
  let ty ← o.readFirst .type .type
  let sized ← o.readAll .dimExpr .dimExpr
  let init ← o.readFirst? .arrayInitializer .arrayInitializer
  (Node.newArray o.span ty sized (← o.dims) init).checked

/-! ### Switch rules -/

/-- The operands of a conjunction, those of its operands included. -/
def conditions : Reading (.list .expr) := do
  let left ← o.readNth 0 .conditions
  return left.append (← o.readNth 1 .conditions)

/-- An item of a `case`. -/
def caseItem (readSelf : Reading .expr) : Reading .caseItem := do
  match o.tree.phrase? with
  | some .pattern        => return .guardedPattern o.span (← o.pattern) .nil
  | some .guardedPattern =>
    let pattern ← o.readFirst .pattern .pattern
    return .guardedPattern o.span pattern (← o.readNth 1 .conditions)
  | _ => .exprItem <$> readSelf

/-- A rule with a label. -/
def switchRule (span : Option Span) (label : Part) (isArrow : Bool) (body : Nodes .stmt) :
    Reading .switchRule := do
  if label.tree.hasToken .defaultKw then return .switchRule span true .nil isArrow body
  else return .switchRule span false (← label.read .caseItems) isArrow body

/-- One rule a label; the statements go with the last label. -/
def groupRules (body : Nodes .stmt) : List Part → Reading (.list .switchRule)
  | []              => .ok .nil
  | [label]         => do
    return .cons (← switchRule (some label.tree.span) label false body) .nil
  | label :: labels => do
    let rule ← switchRule (some label.tree.span) label false .nil
    return .cons rule (← groupRules body labels)

/-- The statements behind the labels of a group. -/
def groupBody : Reading (.list .stmt) := Part.readAll .stmt (o.phrasesBut .switchLabel)

/-- A rule of a switch block, or a group as one rule for each of its labels. -/
def switchRules : Reading (.list .switchRule) := do
  match o.tree.phrase? with
  | some .switchRule =>
    let label ← o.first .switchLabel
    let body ← o.readNth 1 .stmt
    return .cons (← switchRule o.span label true (.cons body .nil)) .nil
  | some .switchGroup =>
    let body ← o.groupBody
    groupRules body (o.phrasesOf .switchLabel)
  | _ => o.lacks "a switch rule or statement group"

/-- All rules of a switch block. -/
def allRules : Reading (.list .switchRule) := do
  let rules ← o.phrases.mapM (Part.read .switchRules)
  return rules.foldr Node.append .nil

/-- `switch (a) { … }` as an expression -/
def switchExpr : Reading .expr := do
  let value ← o.readNth 0 .expr
  let block ← o.first .switchBlock
  return .switchExpr o.span value (← block.opened.allRules)

/-! ### All expressions -/

/-- Any expression. -/
def expr : Reading .expr := do
  match o.tree.phrase? with
  | some .parenthesized => o.readNth 0 .expr
  | some .lambda => o.lambda
  | some .assignment => o.assignment
  | some .ternary =>
    let test ← o.readNth 0 .expr
    let body ← o.readNth 1 .expr
    return .conditional o.span test body (← o.readNth 2 .expr)
  | some .instanceOf => o.instanceOf
  | some .cast =>
    let bound ← o.castBound
    return .cast o.span .nil bound (← (← o.last).read .expr)
  | some .prefixed =>
    let op ← o.operator .before UnaryOp.ofText?
    return .unary o.span (.unaryOperator op) (← o.readNth 0 .expr)
  | some .postfixed =>
    let op ← o.operator .behind PostOp.ofText?
    return .post o.span (← o.readNth 0 .expr) (.postOperator op)
  | some .literal => .constant o.span <$> o.literal
  | some .plainName => return .name o.span (← o.token).identifier
  | some .thisWord => return .thisExpr o.span .absent
  | some .superWord => return .superExpr o.span .absent .absent .absent
  | some .superAccess => o.superAccess
  | some .methodCall => o.methodCall
  | some .classLiteral => .classExpr o.span <$> o.readFirst .type .type
  | some .methodReference => o.methodReference
  | some .objectCreation => o.objectCreation
  | some .innerCreation => o.innerCreation
  | some .arrayCreation => o.arrayCreation
  | some .arrayInitializer => .arrayInit <$> o.arrayInitializer
  | some .switchExpression => o.switchExpr
  | some .explicitGenericInvocation => o.genericCall
  | some kind => if isChain kind then o.chain else o.error (.notA "an expression")
  | none => o.error (.notA "an expression")

end Opened

end JavaSource
