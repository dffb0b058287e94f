import JavaSource.Proofs.Types.Tree

/-!
# Statement trees

Statements made of blocks, branches, loops, labels, jumps and calls by name.  As with expressions
(`OpTree`), a `StmtTree` is such a statement as it is written: `StmtTree.node` is what it means,
`StmtTree.symbols` and `StmtTree.tree` are what is scanned and parsed.

An `else` belongs to the last `if` that it can belong to.  A statement is open if that could be one
inside it (`StmtTree.isOpen`), and a tree is settled if nothing open stands in front of an `else`
(`StmtTree.Settled`); then it can be told from its text.  `StmtTree.braced` is the settled tree that
means the same but for the braces around what was open.
-/

namespace JavaSource

open Grammar (Symbol)

/-- The two jumps that may have a label. -/
inductive Jump where
  | break
  | continue

mutual

/-- A statement as it is written. -/
inductive StmtTree where
  | empty
  | block (body : StmtTrees)
  | ifThen (test : OpTree) (body : StmtTree)
  | ifElse (test : OpTree) (body orelse : StmtTree)
  | whileLoop (test : OpTree) (body : StmtTree)
  | doWhile (body : StmtTree) (test : OpTree)
  | forLoop (test : Option OpTree) (update : OpTrees) (body : StmtTree)
  | forEach (ty id : LegalName) (plain : ty.IsPlain) (iter : OpTree) (body : StmtTree)
  | labeled (label : LegalName) (body : StmtTree)
  | jump (kind : Jump) (label : Option LegalName)
  | call (func : LegalName) (plain : func.IsPlain) (args : OpTrees)

/-- Several statements. -/
inductive StmtTrees where
  | nil
  | cons (first : StmtTree) (others : StmtTrees)

end

/-! ### What it means -/

/-- The type that has a name. -/
def LegalName.typeNode (n : LegalName) (spans : Spans) : TypeNode :=
  .classType (spans []) .nil
    (.cons (.coit (spans [0]) .nil (n.identifier ((spans.below 0).below 0)) .absent) .nil)

/-- The node of a jump. -/
def Jump.node (spans : Spans) (label : OptNode .identifier) : Jump → Stmt
  | .break    => .breakStmt (spans []) label
  | .continue => .continueStmt (spans []) label

mutual

/-- The node of a statement. -/
def StmtTree.node (spans : Spans) : StmtTree → Stmt
  | .empty => .emptyStmt (spans [])
  | .block body => .blockStmt (.block (spans []) (body.node (spans.below 0)))
  | .ifThen test body =>
    .ifStmt (spans []) (test.node (spans.below 0)) (body.node (spans.below 1)) .absent
  | .ifElse test body orelse => .ifStmt (spans []) (test.node (spans.below 0))
    (body.node (spans.below 1)) (.present (orelse.node (spans.below 2)))
  | .whileLoop test body =>
    .whileStmt (spans []) (test.node (spans.below 0)) (body.node (spans.below 1))
  | .doWhile body test =>
    .doWhileStmt (spans []) (body.node (spans.below 0)) (test.node (spans.below 1))
  | .forLoop test update body => .forStmt (spans []) .noInit
    (.ofOption (test.map (OpTree.node (spans.below 0)))) (update.node (spans.below 1))
    (body.node (spans.below 2))
  | .forEach ty id _ iter body => .forEachStmt (spans []) .nil (ty.typeNode (spans.below 0))
    (.variableDeclaratorId (spans [1]) (id.identifier ((spans.below 1).below 0)) .nil)
    (iter.node (spans.below 2)) (body.node (spans.below 3))
  | .labeled label body =>
    .labeledStmt (spans []) (label.identifier (spans.below 0)) (body.node (spans.below 1))
  | .jump kind label =>
    kind.node spans (.ofOption (label.map fun n => n.identifier (spans.below 0)))
  | .call func _ args => .exprStmt (spans []) ((OpHead.call func args).node (spans.below 0))

def StmtTrees.node (spans : Spans) : StmtTrees → Nodes .stmt
  | .nil => .nil
  | .cons first others => .cons (first.node (spans.below 0)) (others.node (spans.below 1))

end

/-! ### Braces -/

/-- Whether an `else` behind a statement would belong to an `if` in it. -/
def StmtTree.isOpen : StmtTree → Bool
  | .ifThen .. => true
  | .ifElse _ _ orelse => orelse.isOpen
  | .whileLoop _ body | .forLoop _ _ body | .forEach _ _ _ _ body | .labeled _ body => body.isOpen
  | _ => false

mutual

/-- Nothing open stands in front of an `else`. -/
def StmtTree.Settled : StmtTree → Prop
  | .block body => body.Settled
  | .ifElse _ body orelse => body.isOpen = false ∧ body.Settled ∧ orelse.Settled
  | .ifThen _ body | .whileLoop _ body | .doWhile body _ | .forLoop _ _ body
  | .forEach _ _ _ _ body | .labeled _ body => body.Settled
  | .empty | .jump .. | .call .. => True

def StmtTrees.Settled : StmtTrees → Prop
  | .nil => True
  | .cons first others => first.Settled ∧ others.Settled

end

/-- In braces, if it is to stand in front of an `else`. -/
def StmtTree.closed (isOpen : Bool) (s : StmtTree) : StmtTree :=
  if isOpen then .block (.cons s .nil) else s

mutual

/-- The same statement with braces around whatever is open in front of an `else`. -/
def StmtTree.braced : StmtTree → StmtTree
  | .empty => .empty
  | .block body => .block body.braced
  | .ifThen test body => .ifThen test body.braced
  | .ifElse test body orelse => .ifElse test (body.braced.closed body.isOpen) orelse.braced
  | .whileLoop test body => .whileLoop test body.braced
  | .doWhile body test => .doWhile body.braced test
  | .forLoop test update body => .forLoop test update body.braced
  | .forEach ty id plain iter body => .forEach ty id plain iter body.braced
  | .labeled label body => .labeled label body.braced
  | .jump kind label => .jump kind label
  | .call func plain args => .call func plain args

def StmtTrees.braced : StmtTrees → StmtTrees
  | .nil => .nil
  | .cons first others => .cons first.braced others.braced

end

theorem StmtTree.isOpen_braced : (s : StmtTree) → s.braced.isOpen = s.isOpen
  | .ifElse _ _ orelse => orelse.isOpen_braced
  | .whileLoop _ body | .forLoop _ _ body | .forEach _ _ _ _ body | .labeled _ body =>
    body.isOpen_braced
  | .empty | .block _ | .ifThen .. | .doWhile .. | .jump .. | .call .. => rfl

mutual

/-- With these braces nothing open is left in front of an `else`. -/
theorem StmtTree.settled_braced : (s : StmtTree) → s.braced.Settled
  | .block body => body.settled_braced
  | .ifElse _ body orelse => by
    refine ⟨?_, ?_, orelse.settled_braced⟩
    · cases hopen : body.isOpen with
      | true => rfl
      | false => exact body.isOpen_braced.trans hopen
    · cases hopen : body.isOpen with
      | true => exact ⟨body.settled_braced, trivial⟩
      | false => exact body.settled_braced
  | .ifThen _ body | .whileLoop _ body | .doWhile body _ | .forLoop _ _ body
  | .forEach _ _ _ _ body | .labeled _ body => body.settled_braced
  | .empty | .jump .. | .call .. => trivial

theorem StmtTrees.settled_braced : (ss : StmtTrees) → ss.braced.Settled
  | .nil => trivial
  | .cons first others => ⟨first.settled_braced, others.settled_braced⟩

end

/-! ### Symbols -/

/-- The symbols of an expression in the parentheses of a statement. -/
def OpTree.condition (t : OpTree) : List Symbol :=
  TokenKind.lparen.symbol :: t.grouped.symbols ++ [TokenKind.rparen.symbol]

/-- The word that a jump starts with. -/
def Jump.kind : Jump → TokenKind
  | .break    => .breakKw
  | .continue => .continueKw

mutual

/-- The symbols of a statement. -/
def StmtTree.symbols : StmtTree → List Symbol
  | .empty => [TokenKind.semi.symbol]
  | .block body => TokenKind.lbrace.symbol :: body.symbols ++ [TokenKind.rbrace.symbol]
  | .ifThen test body => TokenKind.ifKw.symbol :: test.condition ++ body.symbols
  | .ifElse test body orelse => TokenKind.ifKw.symbol :: test.condition ++ body.symbols
    ++ TokenKind.elseKw.symbol :: orelse.symbols
  | .whileLoop test body => TokenKind.whileKw.symbol :: test.condition ++ body.symbols
  | .doWhile body test => TokenKind.doKw.symbol :: body.symbols
    ++ TokenKind.whileKw.symbol :: test.condition ++ [TokenKind.semi.symbol]
  | .forLoop test update body =>
    [TokenKind.forKw.symbol, TokenKind.lparen.symbol, TokenKind.semi.symbol]
      ++ test.elim [] (·.grouped.symbols) ++ TokenKind.semi.symbol :: update.grouped.symbols []
      ++ TokenKind.rparen.symbol :: body.symbols
  | .forEach ty id _ iter body =>
    [TokenKind.forKw.symbol, TokenKind.lparen.symbol, ty.symbol, id.symbol, TokenKind.colon.symbol]
      ++ iter.grouped.symbols ++ TokenKind.rparen.symbol :: body.symbols
  | .labeled label body => label.symbol :: TokenKind.colon.symbol :: body.symbols
  | .jump kind label =>
    kind.kind.symbol :: label.toList.map LegalName.symbol ++ [TokenKind.semi.symbol]
  | .call func _ args => (OpHead.call func args.grouped).symbols ++ [TokenKind.semi.symbol]

def StmtTrees.symbols : StmtTrees → List Symbol
  | .nil => []
  | .cons first others => first.symbols ++ others.symbols

end

/-! ### Phrases -/

/-- The parts of an expression in the parentheses of a statement. -/
def OpTree.conditionParts (t : OpTree) : List Tree :=
  [TokenKind.lparen.leaf, t.grouped.tree, TokenKind.rparen.leaf]

/-- The parse tree of a type that has a name. -/
def LegalName.typeTree (n : LegalName) : Tree :=
  Phrase.type.over [Phrase.classType.over [Phrase.coit.over [n.leaf]]]

/-- The parse tree of a variable that has a name. -/
def LegalName.variableTree (n : LegalName) : Tree := Phrase.variableDeclaratorId.over [n.leaf]

/-- What is read of a jump. -/
def Jump.phrase : Jump → Phrase
  | .break    => .breakStatement
  | .continue => .continueStatement

/-- The part that the update of a loop is, if there is any. -/
def OpTrees.updateParts : OpTrees → List Tree
  | .nil => []
  | update => [Phrase.forUpdate.over (update.grouped.trees [])]

mutual

/-- The parse tree of a statement. -/
def StmtTree.tree : StmtTree → Tree
  | .empty => Phrase.emptyStatement.over [TokenKind.semi.leaf]
  | .block body =>
    Phrase.block.over (TokenKind.lbrace.leaf :: body.trees ++ [TokenKind.rbrace.leaf])
  | .ifThen test body =>
    Phrase.ifStatement.over (TokenKind.ifKw.leaf :: test.conditionParts ++ [body.tree])
  | .ifElse test body orelse => Phrase.ifStatement.over (TokenKind.ifKw.leaf :: test.conditionParts
    ++ [body.tree, TokenKind.elseKw.leaf, orelse.tree])
  | .whileLoop test body =>
    Phrase.whileStatement.over (TokenKind.whileKw.leaf :: test.conditionParts ++ [body.tree])
  | .doWhile body test => Phrase.doStatement.over ([TokenKind.doKw.leaf, body.tree,
    TokenKind.whileKw.leaf] ++ test.conditionParts ++ [TokenKind.semi.leaf])
  | .forLoop test update body => Phrase.forStatement.over
    ([TokenKind.forKw.leaf, TokenKind.lparen.leaf, TokenKind.semi.leaf]
      ++ test.toList.map (·.grouped.tree) ++ TokenKind.semi.leaf :: update.updateParts
      ++ [TokenKind.rparen.leaf, body.tree])
  | .forEach ty id _ iter body => Phrase.enhancedForStatement.over
    [TokenKind.forKw.leaf, TokenKind.lparen.leaf, ty.typeTree, id.variableTree,
      TokenKind.colon.leaf, iter.grouped.tree, TokenKind.rparen.leaf, body.tree]
  | .labeled label body =>
    Phrase.labeledStatement.over [label.leaf, TokenKind.colon.leaf, body.tree]
  | .jump kind label => kind.phrase.over
    (kind.kind.leaf :: label.toList.map LegalName.leaf ++ [TokenKind.semi.leaf])
  | .call func _ args => Phrase.expressionStatement.over
    [(OpHead.call func args.grouped).tree, TokenKind.semi.leaf]

def StmtTrees.trees : StmtTrees → List Tree
  | .nil => []
  | .cons first others => first.tree :: others.trees

end

end JavaSource
