import JavaSource.Reading.Expressions

/-!
# Reading — Statements

Statements and what stands in them.
-/

namespace JavaSource

open Text (Span)

namespace Opened

variable (o : Opened)

/-- `{ … }` -/
def block : Reading .block := .block o.span <$> Part.readAll .stmt o.phrases

/-- `final T a = 1, b` -/
def localVariables : Reading .localVariables := do
  let ty ← o.readFirst .type .type
  let declarators ← o.readFirst .variableDeclarators .variableDeclarators
  (Node.localVariables none .nil ty declarators).check
  return .localVariables o.span (← o.modifiers) ty declarators

/-- A name behind `break` or `continue`, if there is one. -/
def label? : OptNode .identifier := .ofOption o.identifier?

/-! ### Loops -/

/-- What has been read of the head of a loop. -/
structure ForHead where
  semicolons : Nat
  init : Node .forInit
  test : OptNode .expr
  update : Nodes .expr

/-- One more part of a loop.  The test is what stands between the two semicolons. -/
def ForHead.push (head : ForHead) (p : Part) : Except NodeError ForHead := do
  match p.tree with
  | .leaf t =>
    return if t.kind == .semi then { head with semicolons := head.semicolons + 1 } else head
  | .node kind _ _ _ =>
    match kind with
    | .forInit   => return { head with init := ← p.read .forInit }
    | .forUpdate => return { head with update := ← p.read .exprs }
    | _ =>
      if head.semicolons == 1 then return { head with test := .present (← p.read .expr) }
      else return head

/-- Variables or expressions in front of the first semicolon. -/
def forInit : Reading .forInit := do
  match o.first? .localVariableDeclaration with
  | some decl => .variablesInit <$> decl.read .localVariables
  | none      => .exprsInit <$> Part.readAll .expr o.phrases

/-- `for (a; b; c) …` -/
def forStmt : Reading .stmt := do
  let body ← (← o.last).read .stmt
  let head ← o.parts.foldlM ForHead.push ⟨0, .noInit, .absent, .nil⟩
  return .forStmt o.span head.init head.test head.update body

/-- `for (T x : a) …` -/
def forEachStmt : Reading .stmt := do
  let ty ← o.readFirst .type .type
  let id ← o.readFirst .variableDeclaratorId .variableDeclaratorId
  let some iter := o.behind? (·.kind == .colon) | o.lacks "an iterable expression"
  let iter ← iter.read .expr
  let body ← (← o.last).read .stmt
  return .forEachStmt o.span (← o.modifiers) ty id iter body

/-! ### Exceptions -/

/-- The block behind `finally`, if there is one. -/
def finalBlock : Reading (.opt .block) :=
  match o.first? .finallyClause with
  | some clause => .present <$> clause.opened.readFirst .block .block
  | none        => .ok .absent

/-- `try { … } catch … finally …` -/
def tryStmt : Reading .stmt := do
  let body ← o.readFirst .block .block
  let catches ← o.readAll .catchClause .catchClause
  (Node.tryStmt o.span body catches (← o.finalBlock)).checked

/-- `try (a) { … }` -/
def tryResourcesStmt : Reading .stmt := do
  let specification ← o.first .resourceSpecification
  let resources ← specification.opened.readAll .resource .tryResource
  let body ← o.readFirst .block .block
  let catches ← o.readAll .catchClause .catchClause
  (Node.tryResourcesStmt o.span resources body catches (← o.finalBlock)).checked

/-- `catch (A | B e) { … }` -/
def catchClause : Reading .catchClause := do
  let exceptions ← o.readFirst .catchType .qualifiedNames
  let id ← o.identifierAs "a catch parameter"
  let body ← o.readFirst .block .block
  (Node.catchClause none .nil exceptions id body).check
  return .catchClause o.span (← o.modifiers) exceptions id body

/-- A variable, or a declaration of one. -/
def tryResource : Reading .tryResource := do
  match o.first? .qualifiedName with
  | some name => .nameResource <$> name.read .qualifiedName
  | none      =>
    let ty ← o.readFirst .type .type
    let declarator ← o.readFirst .variableDeclarator .variableDeclarator
    return .resource o.span (← o.modifiers) ty declarator

/-! ### Switch blocks

A block of rules stays one.  A block of groups does too, with labels behind which nothing follows
kept apart, unless a label has a guard or a modified pattern, which only rules can hold. -/

/-- Whether an item of a label can only stand in a rule. -/
def isRichItem (item : Part) : Bool :=
  item.isA .guardedPattern || (item.isA .pattern && (item.opened.first? .modifiers).isSome)

/-- Whether a group has such an item. -/
def isRichGroup (group : Part) : Bool :=
  (group.opened.phrasesOf .switchLabel).any fun label => label.opened.phrases.any isRichItem

/-- The value of a label from an item of a `case`. -/
def caseValue : Node .caseItem → Node .caseValue
  | .exprItem e                                   => .exprCase e
  | .guardedPattern _ (.pattern span _ ty _ id) _ => .matchValue span ty id

/-- A label for each item of a `case`, or the one for `default`. -/
def switchLabels : Except NodeError (List (Node .switchLabel)) := do
  if o.hasToken .defaultKw then return [.defaultLabel o.span]
  let items ← o.phrases.mapM (Part.read .caseItem)
  return (o.phrases.zip items).map fun (p, item) =>
    .caseLabel (some p.tree.span) (caseValue item)

/-- The labels of a group. -/
def groupLabels : Except NodeError (List (Node .switchLabel)) := do
  return (← (o.phrasesOf .switchLabel).mapM fun label => label.opened.switchLabels).flatten

/-- Groups and the labels behind them.  Only the last labels may be without statements. -/
def groupsAndLabels (labels : List (Node .switchLabel)) :
    List Part → Except NodeError (Nodes .switchGroup × Nodes .switchLabel)
  | []          => .ok (.nil, .ofList labels)
  | group :: gs => do
    let own ← group.opened.groupLabels
    match ← group.opened.groupBody with
    | .nil => groupsAndLabels (labels ++ own) gs
    | body =>
      if !labels.isEmpty then group.opened.error .strayLabels
      let node ← (Node.switchGroup (some group.tree.span) (.ofList own) body).checked
      let (groups, labels) ← groupsAndLabels [] gs
      return (.cons node groups, labels)

/-- The body of a switch statement. -/
def switchBlock : Reading .switchBlock := do
  let groups := o.phrasesOf .switchGroup
  let hasRules := (o.first? .switchRule).isSome
  if hasRules && !groups.isEmpty then
    .error ⟨"SwitchBlock", "rules", .mixedSwitch, o.span⟩
  else if hasRules || groups.any isRichGroup then
    return .switchBlock o.span .nil .nil (← o.allRules)
  else
    let (groups, labels) ← groupsAndLabels [] groups
    return .switchBlock o.span groups labels .nil

/-! ### All statements -/

/-- Any statement. -/
def stmt : Reading .stmt := do
  match o.tree.phrase? with
  | some .block => .blockStmt <$> o.block
  | some .localVariableDeclarationStatement =>
    let locals ← o.readFirst .localVariableDeclaration .localVariables
    return .localVariableStmt (locals.localVariablesAt o.span)
  | some .localVariableDeclaration => .localVariableStmt <$> o.localVariables
  | some .localTypeDeclaration => do
    (Node.localTypeStmt o.span (← o.readFirst .memberDeclaration .decl)).checked
  | some .emptyStatement => return .emptyStmt o.span
  | some .labeledStatement =>
    let label ← o.identifierAs "a label"
    return .labeledStmt o.span label (← o.readNth 0 .stmt)
  | some .expressionStatement => .exprStmt o.span <$> o.readNth 0 .expr
  | some .ifStatement =>
    let test ← o.readNth 0 .expr
    let body ← o.readNth 1 .stmt
    return .ifStmt o.span test body (← Part.readOption .stmt o.phrases[2]?)
  | some .assertStatement =>
    let test ← o.readNth 0 .expr
    return .assertStmt o.span test (← Part.readOption .expr o.phrases[1]?)
  | some .switchStatement =>
    let value ← o.readNth 0 .expr
    (Node.switchStmt o.span value (← o.readFirst .switchBlock .switchBlock)).checked
  | some .whileStatement =>
    let test ← o.readNth 0 .expr
    return .whileStmt o.span test (← o.readNth 1 .stmt)
  | some .doStatement =>
    let body ← o.readNth 0 .stmt
    return .doWhileStmt o.span body (← o.readNth 1 .expr)
  | some .forStatement => o.forStmt
  | some .enhancedForStatement => o.forEachStmt
  | some .breakStatement => return .breakStmt o.span o.label?
  | some .continueStatement => return .continueStmt o.span o.label?
  | some .returnStatement => .returnStmt o.span <$> Part.readOption .expr o.phrases[0]?
  | some .throwStatement => .throwStmt o.span <$> o.readNth 0 .expr
  | some .synchronizedStatement =>
    let lock ← o.readNth 0 .expr
    return .synchronizedStmt o.span lock (← o.readFirst .block .block)
  | some .tryStatement => o.tryStmt
  | some .tryWithResourcesStatement => o.tryResourcesStmt
  | some .yieldStatement => .yieldStmt o.span <$> o.readNth 0 .expr
  | _ => o.error (.notA "a statement")

end Opened

end JavaSource
