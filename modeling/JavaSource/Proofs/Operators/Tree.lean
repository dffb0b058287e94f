import JavaSource.Printing.Printer
import JavaSource.Proofs.Lexing

/-!
# Operator trees

Expressions made of names, operators, calls by name, member and array accesses.  An `OpTree` is
such an expression as it is written: it keeps its parentheses, wherever they stand.  What it means
(`OpTree.node`) is a node without them; what it looks like is a list of characters
(`OpTree.chars`), of symbols (`OpTree.words`), and of a parse tree (`OpTree.tree`).

A tree is layered if no operand holds together less tightly than its place demands
(`OpTree.Layered`); then it can be told from its text.  `OpTree.grouped` is the layered tree that
means the same and has parentheses only where they are needed.
-/

namespace JavaSource

open Grammar (Symbol Layer)
open Text (Span isNameStart isNamePart)

/-- A name that is no reserved word. -/
structure LegalName where
  first : Char
  others : List Char
  starts : isNameStart first = true
  continues : ∀ c ∈ others, isNamePart c = true
  free : TokenKind.keyword? (String.ofList (first :: others)) = none

namespace LegalName

/-- The characters of a name. -/
def chars (n : LegalName) : List Char := n.first :: n.others

/-- The text of a name. -/
def text (n : LegalName) : String := String.ofList n.chars

/-- A name of one letter. -/
def letter (c : Char) (hstarts : isNameStart c = true)
    (hfree : TokenKind.keyword? (String.ofList [c]) = none) : LegalName :=
  ⟨c, [], hstarts, List.forall_mem_nil _, hfree⟩

end LegalName

mutual

/-- An expression as it is written. -/
inductive OpTree where
  | head (head : OpHead)
  | paren (inner : OpTree)
  | binary (op : BinaryOp) (left right : OpTree)
  | unary (op : UnaryOp) (operand : OpTree)
  | post (op : PostOp) (operand : OpTree)
  | conditional (test body orelse : OpTree)
  | assignment (op : Option AssignOp) (target value : OpTree)
  | index (receiver inner : OpTree)
  | member (receiver : OpTree) (selected : OpHead)

/-- A name, or a call by name. -/
inductive OpHead where
  | name (name : LegalName)
  | call (name : LegalName) (args : OpTrees)

/-- Several expressions. -/
inductive OpTrees where
  | nil
  | cons (first : OpTree) (others : OpTrees)

end

/-! ### What it means -/

/-- The span of each part of a node, by the way that leads to it. -/
def Spans := List Nat → Option Span

/-- The spans below a part. -/
def Spans.below (spans : Spans) (part : Nat) : Spans := fun path => spans (part :: path)

/-- The node of a name. -/
def LegalName.node (n : LegalName) (spans : Spans) : Expr :=
  .name (spans []) (.identifier (spans [0]) n.text)

mutual

/-- The node of an expression; parentheses leave no trace. -/
def OpTree.node (spans : Spans) : OpTree → Expr
  | .head head => head.node spans
  | .paren inner => inner.node spans
  | .binary op left right => .binary (spans []) (left.node (spans.below 0)) (.binaryOperator op)
    (right.node (spans.below 1))
  | .unary op operand => .unary (spans []) (.unaryOperator op) (operand.node (spans.below 0))
  | .post op operand => .post (spans []) (operand.node (spans.below 0)) (.postOperator op)
  | .conditional test body orelse => .conditional (spans []) (test.node (spans.below 0))
    (body.node (spans.below 1)) (orelse.node (spans.below 2))
  | .assignment op target value => .assignment (spans []) (target.node (spans.below 0))
    (.ofOption (op.map .assignOperator)) (value.node (spans.below 1))
  | .index receiver inner =>
    .index (spans []) (receiver.node (spans.below 0)) (inner.node (spans.below 1))
  | .member receiver selected =>
    .member (spans []) (receiver.node (spans.below 0)) (selected.node (spans.below 1))

def OpHead.node (spans : Spans) : OpHead → Expr
  | .name name => name.node spans
  | .call name args => .call (spans []) (name.node (spans.below 0)) (args.node (spans.below 1))

def OpTrees.node (spans : Spans) : OpTrees → Nodes .expr
  | .nil => .nil
  | .cons first others => .cons (first.node (spans.below 0)) (others.node (spans.below 1))

end

/-! ### Layers -/

namespace OpTree

/-- How tightly an expression holds together, parentheses included. -/
def level : OpTree → Level
  | head _ | paren _ | index .. | member .. => .primary
  | binary op .. => op.level
  | unary .. => .unary
  | post .. => .post
  | conditional .. => .ternary
  | assignment .. => .assignment

/-- The place of that level. -/
def rank (t : OpTree) : Nat := t.level.rank

/-- In parentheses, if its place demands them. -/
def within (context : Context) (t : OpTree) : OpTree :=
  if context.needsParens t.level then .paren t else t

end OpTree

mutual

/-- No operand holds together less tightly than its place demands. -/
def OpTree.Layered : OpTree → Prop
  | .head head => head.Layered
  | .paren inner => inner.Layered
  | .binary op left right =>
    op.level.rank ≤ left.rank ∧ op.level.rank < right.rank ∧ left.Layered ∧ right.Layered
  | .unary _ operand => Level.unary.rank ≤ operand.rank ∧ operand.Layered
  | .post _ operand => Level.post.rank ≤ operand.rank ∧ operand.Layered
  | .conditional test body orelse => Level.ternary.rank < test.rank ∧
    Level.ternary.rank ≤ orelse.rank ∧ test.Layered ∧ body.Layered ∧ orelse.Layered
  | .assignment _ target value =>
    Level.assignment.rank < target.rank ∧ target.Layered ∧ value.Layered
  | .index receiver inner =>
    Level.primary.rank ≤ receiver.rank ∧ receiver.Layered ∧ inner.Layered
  | .member receiver selected =>
    Level.primary.rank ≤ receiver.rank ∧ receiver.Layered ∧ selected.Layered

def OpHead.Layered : OpHead → Prop
  | .name _ => True
  | .call _ args => args.Layered

def OpTrees.Layered : OpTrees → Prop
  | .nil => True
  | .cons first others => first.Layered ∧ others.Layered

end

mutual

/-- The same expression with parentheses where they are needed and nowhere else. -/
def OpTree.grouped : OpTree → OpTree
  | .head head => .head head.grouped
  | .paren inner => inner.grouped
  | .binary op left right =>
    .binary op (left.grouped.within ⟨op.level, true⟩) (right.grouped.within ⟨op.level, false⟩)
  | .unary op operand => .unary op (operand.grouped.within ⟨.unary, true⟩)
  | .post op operand => .post op (operand.grouped.within ⟨.post, true⟩)
  | .conditional test body orelse => .conditional (test.grouped.within ⟨.ternary, false⟩)
    body.grouped (orelse.grouped.within ⟨.ternary, true⟩)
  | .assignment op target value => .assignment op (target.grouped.within ⟨.assignment, false⟩)
    (value.grouped.within ⟨.assignment, true⟩)
  | .index receiver inner => .index (receiver.grouped.within .primary) inner.grouped
  | .member receiver selected => .member (receiver.grouped.within .primary) selected.grouped

def OpHead.grouped : OpHead → OpHead
  | .name name => .name name
  | .call name args => .call name args.grouped

def OpTrees.grouped : OpTrees → OpTrees
  | .nil => .nil
  | .cons first others => .cons first.grouped others.grouped

end

mutual

/-- The number of opening parentheses, those of calls included. -/
def OpTree.opens : OpTree → Nat
  | .head head => head.opens
  | .paren inner => inner.opens + 1
  | .binary _ left right => left.opens + right.opens
  | .unary _ operand => operand.opens
  | .post _ operand => operand.opens
  | .conditional test body orelse => test.opens + body.opens + orelse.opens
  | .assignment _ target value => target.opens + value.opens
  | .index receiver inner => receiver.opens + inner.opens
  | .member receiver selected => receiver.opens + selected.opens

def OpHead.opens : OpHead → Nat
  | .name _ => 0
  | .call _ args => args.opens + 1

def OpTrees.opens : OpTrees → Nat
  | .nil => 0
  | .cons first others => first.opens + others.opens

end

/-! ### Characters -/

/-- Whether a sign would run together with the one that its operand starts with. -/
def OpTree.clashes (op : UnaryOp) : OpTree → Bool
  | .unary inner _ => op.sign?.isSome && op.sign? == inner.sign?
  | _              => false

mutual

/-- An expression as it is written. -/
def OpTree.chars : OpTree → List Char
  | .head head => head.chars
  | .paren inner => '(' :: inner.chars ++ [')']
  | .binary op left right => left.chars ++ ' ' :: op.text.toList ++ ' ' :: right.chars
  | .unary op operand =>
    op.text.toList ++ (if operand.clashes op then [' '] else []) ++ operand.chars
  | .post op operand => operand.chars ++ op.text.toList
  | .conditional test body orelse =>
    test.chars ++ " ? ".toList ++ body.chars ++ " : ".toList ++ orelse.chars
  | .assignment op target value =>
    target.chars ++ ' ' :: (op.elim ['='] (·.text.toList)) ++ ' ' :: value.chars
  | .index receiver inner => receiver.chars ++ '[' :: inner.chars ++ [']']
  | .member receiver selected => receiver.chars ++ '.' :: selected.chars

def OpHead.chars : OpHead → List Char
  | .name name => name.chars
  | .call name args => name.chars ++ '(' :: args.chars [] ++ [')']

/-- Several expressions, each behind a separator, the first one behind one of its own. -/
def OpTrees.chars (lead : List Char) : OpTrees → List Char
  | .nil => []
  | .cons first others => lead ++ first.chars ++ others.chars [',', ' ']

end

/-! ### Symbols -/

/-- The leaf of a kind that has a spelling. -/
def TokenKind.leaf (kind : TokenKind) : Tree := .leaf kind.symbol.token

/-- The symbol of a name. -/
def LegalName.symbol (n : LegalName) : Symbol := ⟨.identifier, n.text, false⟩

/-- The leaf of a name. -/
def LegalName.leaf (n : LegalName) : Tree := .leaf n.symbol.token

/-- The kind of token that an operator is. -/
def BinaryOp.kind : BinaryOp → TokenKind
  | or      => .orOr
  | and     => .andAnd
  | bitOr   => .bitOr
  | bitXor  => .caret
  | bitAnd  => .bitAnd
  | eq      => .eqEq
  | ne      => .notEq
  | lt      => .lt
  | le      => .le
  | gt      => .gt
  | ge      => .ge
  | lshift  => .lshift
  | rshift  => .rshift
  | urshift => .urshift
  | add     => .add
  | sub     => .sub
  | mul     => .mul
  | div     => .div
  | mod     => .mod

/-- The layer of an operator. -/
def BinaryOp.layer : BinaryOp → Layer
  | or                        => .conditionalOr
  | and                       => .conditionalAnd
  | bitOr                     => .inclusiveOr
  | bitXor                    => .exclusiveOr
  | bitAnd                    => .bitAnd
  | eq | ne                   => .equality
  | lt | le | gt | ge         => .relational
  | lshift | rshift | urshift => .shift
  | add | sub                 => .additive
  | mul | div | mod           => .multiplicative

/-- The symbols of an operator: a right shift is several. -/
def BinaryOp.symbols : BinaryOp → List Symbol
  | rshift  => [⟨.gt, ">", true⟩, ⟨.gt, ">", false⟩]
  | urshift => [⟨.gt, ">", true⟩, ⟨.gt, ">", true⟩, ⟨.gt, ">", false⟩]
  | op      => [op.kind.symbol]

/-- The kind of token that an operator is. -/
def UnaryOp.kind : UnaryOp → TokenKind
  | preInc => .inc
  | preDec => .dec
  | plus   => .add
  | minus  => .sub
  | invert => .tilde
  | not    => .bang

/-- The kind of token that an operator is. -/
def PostOp.kind : PostOp → TokenKind
  | postInc => .inc
  | postDec => .dec

/-- The kind of token that an operator is. -/
def AssignOp.kind : AssignOp → TokenKind
  | add     => .addAssign
  | sub     => .subAssign
  | mul     => .mulAssign
  | div     => .divAssign
  | mod     => .modAssign
  | bitAnd  => .andAssign
  | bitOr   => .orAssign
  | bitXor  => .xorAssign
  | lshift  => .lshiftAssign
  | rshift  => .rshiftAssign
  | urshift => .urshiftAssign

mutual

/-- The symbols of an expression. -/
def OpTree.symbols : OpTree → List Symbol
  | .head head => head.symbols
  | .paren inner => TokenKind.lparen.symbol :: inner.symbols ++ [TokenKind.rparen.symbol]
  | .binary op left right => left.symbols ++ op.symbols ++ right.symbols
  | .unary op operand => op.kind.symbol :: operand.symbols
  | .post op operand => operand.symbols ++ [op.kind.symbol]
  | .conditional test body orelse => test.symbols ++ TokenKind.question.symbol :: body.symbols
    ++ TokenKind.colon.symbol :: orelse.symbols
  | .assignment op target value =>
    target.symbols ++ (op.elim TokenKind.assign AssignOp.kind).symbol :: value.symbols
  | .index receiver inner => receiver.symbols ++ TokenKind.lbrack.symbol :: inner.symbols
    ++ [TokenKind.rbrack.symbol]
  | .member receiver selected => receiver.symbols ++ TokenKind.dot.symbol :: selected.symbols

def OpHead.symbols : OpHead → List Symbol
  | .name name => [name.symbol]
  | .call name args => name.symbol :: TokenKind.lparen.symbol :: args.symbols []
    ++ [TokenKind.rparen.symbol]

/-- Several expressions, each behind a separator, the first one behind one of its own. -/
def OpTrees.symbols (lead : List Symbol) : OpTrees → List Symbol
  | .nil => []
  | .cons first others => lead ++ first.symbols ++ others.symbols [TokenKind.comma.symbol]

end

/-! ### Phrases -/

/-- A phrase that does not stand anywhere. -/
def Phrase.over (kind : Phrase) (parts : List Tree) : Tree := .ofParts kind parts default

mutual

/-- The parse tree of an expression. -/
def OpTree.tree : OpTree → Tree
  | .head head => head.tree
  | .paren inner =>
    Phrase.parenthesized.over [TokenKind.lparen.leaf, inner.tree, TokenKind.rparen.leaf]
  | .binary op left right => op.layer.phrase.over [left.tree, op.kind.leaf, right.tree]
  | .unary op operand => Phrase.prefixed.over [op.kind.leaf, operand.tree]
  | .post op operand => Phrase.postfixed.over [operand.tree, op.kind.leaf]
  | .conditional test body orelse => Phrase.ternary.over
    [test.tree, TokenKind.question.leaf, body.tree, TokenKind.colon.leaf, orelse.tree]
  | .assignment op target value => Phrase.assignment.over
    [target.tree, (op.elim TokenKind.assign AssignOp.kind).leaf, value.tree]
  | .index receiver inner => Phrase.arrayAccess.over
    [receiver.tree, TokenKind.lbrack.leaf, inner.tree, TokenKind.rbrack.leaf]
  | .member receiver selected =>
    Phrase.memberAccess.over [receiver.tree, TokenKind.dot.leaf, selected.tree]

def OpHead.tree : OpHead → Tree
  | .name name => Phrase.plainName.over [name.leaf]
  | .call name args => Phrase.methodCall.over [name.leaf, Phrase.arguments.over
    (TokenKind.lparen.leaf :: args.trees [] ++ [TokenKind.rparen.leaf])]

/-- Several expressions, each behind a separator, the first one behind one of its own. -/
def OpTrees.trees (lead : List Tree) : OpTrees → List Tree
  | .nil => []
  | .cons first others => lead ++ first.tree :: others.trees [TokenKind.comma.leaf]

end

end JavaSource
