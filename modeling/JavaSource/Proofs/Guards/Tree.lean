import JavaSource.Proofs.Operators.Grouping
import JavaSource.Proofs.Statements.Tree

/-!
# Guard trees

A switch with one rule, whose pattern has a guard:
`switch (e) { case final T x when a && b -> c; }`.
The conditions of a guard are written as one conjunction, from left to right
(`OpTrees.conjoined`), each in parentheses unless it binds more tightly than a conjunction
(`OpTree.conjunct`).
-/

namespace JavaSource

open Grammar (Symbol)

/-- A condition as it is written in a guard. -/
def OpTree.conjunct (t : OpTree) : OpTree := t.grouped.within ⟨.logicalAnd, false⟩

/-- The conjunction of an expression and conditions. -/
def OpTrees.conjoined (left : OpTree) : OpTrees → OpTree
  | .nil               => left
  | .cons first others => others.conjoined (.binary .and left first.conjunct)

/-- The name that stands in front of a guard. -/
def whenName : LegalName where
  first := 'w'
  others := ['h', 'e', 'n']
  starts := rfl
  continues := List.all_eq_true.mp (by decide)
  free := by decide

/-- A pattern as it is written. -/
structure PatternTree where
  isFinal : Bool
  type : TypeTree
  id : LegalName

/-- A pattern and at least one condition. -/
structure GuardTree where
  pattern : PatternTree
  first : OpTree
  others : OpTrees

/-- What stands behind a label: statements behind a colon, or an expression or a block behind an
arrow. -/
inductive RuleBody where
  | colon (body : StmtTrees)
  | value (value : OpTree)
  | block (body : StmtTrees)

/-- A switch with one rule. -/
structure SwitchTree where
  value : OpTree
  guard : GuardTree
  body : RuleBody

/-! ### What it means -/

/-- The node of a pattern. -/
def PatternTree.node (spans : Spans) (p : PatternTree) : Node .pattern :=
  .pattern (spans []) (if p.isFinal then .cons (.keywordModifier (spans [0]) .finalWord) .nil else .nil)
    (p.type.node (spans.below 1)) .nil (p.id.identifier (spans.below 2))

/-- The conditions of a guard. -/
def GuardTree.conditions (g : GuardTree) : OpTrees := .cons g.first g.others

/-- The node of a pattern with its conditions. -/
def GuardTree.node (spans : Spans) (g : GuardTree) : Node .caseItem :=
  .guardedPattern (spans []) (g.pattern.node (spans.below 0)) (g.conditions.node (spans.below 1))

namespace RuleBody

/-- Whether an arrow stands in front of it. -/
def isArrow : RuleBody → Bool
  | .colon _            => false
  | .value _ | .block _ => true

/-- The statements. -/
def node (spans : Spans) : RuleBody → Nodes .stmt
  | .colon body => body.node spans
  | .value e    => .cons (.exprStmt (spans []) (e.node (spans.below 0))) .nil
  | .block body => .cons ((StmtTree.block body).node spans) .nil

/-- The same statements with braces around whatever is open in front of an `else`. -/
def braced : RuleBody → RuleBody
  | .colon body => .colon body.braced
  | .value e    => .value e
  | .block body => .block body.braced

/-- Nothing open stands in front of an `else`. -/
def Settled : RuleBody → Prop
  | .colon body | .block body => body.Settled
  | .value _                  => True

theorem settled_braced (b : RuleBody) : b.braced.Settled := by
  cases b with
  | colon body => exact body.settled_braced
  | value e => trivial
  | block body => exact body.settled_braced

end RuleBody

namespace SwitchTree

variable (t : SwitchTree)

/-- The same switch with braces in its rule. -/
def braced : SwitchTree := { t with body := t.body.braced }

/-- The node of the rule. -/
def rule (spans : Spans) : Node .switchRule :=
  .switchRule (spans []) false (.cons (t.guard.node (spans.below 0)) .nil) t.body.isArrow
    (t.body.node (spans.below 1))

/-- The node of the switch as a statement. -/
def stmt (spans : Spans) : Stmt :=
  .switchStmt (spans []) (t.value.node (spans.below 0))
    (.switchBlock (spans [1]) .nil .nil (.cons (t.rule (spans.below 2)) .nil))

/-- The node of the switch as an expression. -/
def expr (spans : Spans) : Expr :=
  .switchExpr (spans []) (t.value.node (spans.below 0)) (.cons (t.rule (spans.below 2)) .nil)

end SwitchTree

/-! ### Characters -/

/-- The conditions behind the first one. -/
def OpTrees.guardChars : OpTrees → List Char
  | .nil               => []
  | .cons first others => " && ".toList ++ first.conjunct.chars ++ others.guardChars

/-- A pattern as it is written. -/
def PatternTree.chars (p : PatternTree) : List Char :=
  (if p.isFinal then "final ".toList else []) ++ p.type.chars ++ ' ' :: p.id.chars

/-- The conjunction of the conditions. -/
def GuardTree.conjunction (g : GuardTree) : OpTree := g.others.conjoined g.first.conjunct

/-- A pattern with its conditions as it is written. -/
def GuardTree.chars (g : GuardTree) : List Char :=
  g.pattern.chars ++ " when ".toList ++ g.conjunction.chars

theorem OpTrees.chars_conjoined : (ts : OpTrees) → (left : OpTree) →
    (ts.conjoined left).chars = left.chars ++ ts.guardChars
  | .nil, left => (List.append_nil _).symm
  | .cons first others, left => by
    rw [conjoined, others.chars_conjoined, guardChars, OpTree.chars]
    simp [BinaryOp.text]

theorem OpTree.layered_conjunct (t : OpTree) : t.conjunct.Layered :=
  layered_within t.layered_grouped

theorem OpTree.lt_rank_conjunct (t : OpTree) : Level.logicalAnd.rank < t.conjunct.rank :=
  lt_rank_within ⟨.logicalAnd, false⟩ rfl (by decide)

/-- A conjunction of layered trees is one, and binds as tightly as any. -/
theorem OpTrees.layered_conjoined : (ts : OpTrees) → {left : OpTree} → left.Layered →
    Level.logicalAnd.rank ≤ left.rank →
    (ts.conjoined left).Layered ∧ Level.logicalAnd.rank ≤ (ts.conjoined left).rank
  | .nil, _, hlayered, hrank => ⟨hlayered, hrank⟩
  | .cons first others, left, hlayered, hrank => by
    have hboth : (OpTree.binary .and left first.conjunct).Layered :=
      ⟨hrank, first.lt_rank_conjunct, hlayered, first.layered_conjunct⟩
    exact others.layered_conjoined hboth (Nat.le_refl _)

theorem GuardTree.layered_conjunction (g : GuardTree) : g.conjunction.Layered :=
  (g.others.layered_conjoined g.first.layered_conjunct (Nat.le_of_lt g.first.lt_rank_conjunct)).1

theorem GuardTree.lt_rank_conjunction (g : GuardTree) :
    Level.ternary.rank < g.conjunction.rank :=
  Nat.lt_of_lt_of_le (by decide) (g.others.layered_conjoined g.first.layered_conjunct
    (Nat.le_of_lt g.first.lt_rank_conjunct)).2

/-! ### Symbols -/

/-- The symbols of a pattern. -/
def PatternTree.symbols (p : PatternTree) : List Symbol :=
  (if p.isFinal then [TokenKind.finalKw.symbol] else []) ++ (p.type.symbols false ++ [p.id.symbol])

/-- The symbols of a pattern with its conditions. -/
def GuardTree.symbols (g : GuardTree) : List Symbol :=
  g.pattern.symbols ++ whenName.symbol :: g.conjunction.symbols

/-- The symbols of a rule behind its label. -/
def RuleBody.symbols : RuleBody → List Symbol
  | .colon body => TokenKind.colon.symbol :: body.symbols
  | .value e    => TokenKind.arrow.symbol :: e.grouped.symbols ++ [TokenKind.semi.symbol]
  | .block body => TokenKind.arrow.symbol :: (StmtTree.block body).symbols

namespace SwitchTree

variable (t : SwitchTree)

/-- The symbols of the rule. -/
def ruleSymbols : List Symbol := TokenKind.caseKw.symbol :: t.guard.symbols ++ t.body.symbols

/-- The symbols of the body. -/
def blockSymbols : List Symbol :=
  TokenKind.lbrace.symbol :: t.ruleSymbols ++ [TokenKind.rbrace.symbol]

/-- The symbols of the switch. -/
def symbols : List Symbol := TokenKind.switchKw.symbol :: t.value.condition ++ t.blockSymbols

end SwitchTree

/-! ### Phrases -/

/-- The parse tree of a pattern. -/
def PatternTree.tree (p : PatternTree) : Tree :=
  Phrase.pattern.over ((if p.isFinal then [Phrase.modifiers.over [TokenKind.finalKw.leaf]] else [])
    ++ [p.type.tree, p.id.leaf])

/-- The parse tree of a pattern with its conditions. -/
def GuardTree.tree (g : GuardTree) : Tree :=
  Phrase.guardedPattern.over [g.pattern.tree, whenName.leaf, g.conjunction.tree]

/-- The parse tree of the label of a rule. -/
def GuardTree.label (g : GuardTree) : Tree :=
  Phrase.switchLabel.over [TokenKind.caseKw.leaf, g.tree]

/-- The parse tree of a rule with a label. -/
def RuleBody.tree (label : Tree) : RuleBody → Tree
  | .colon body => Phrase.switchGroup.over (label :: TokenKind.colon.leaf :: body.trees)
  | .value e    => Phrase.switchRule.over [label, TokenKind.arrow.leaf,
    Phrase.expressionStatement.over [e.grouped.tree, TokenKind.semi.leaf]]
  | .block body =>
    Phrase.switchRule.over [label, TokenKind.arrow.leaf, (StmtTree.block body).tree]

namespace SwitchTree

variable (t : SwitchTree)

/-- The parse tree of the rule. -/
def ruleTree : Tree := t.body.tree t.guard.label

/-- The parse tree of the body. -/
def blockTree : Tree :=
  Phrase.switchBlock.over [TokenKind.lbrace.leaf, t.ruleTree, TokenKind.rbrace.leaf]

/-- The parse tree of the switch, as a statement or as an expression. -/
def tree (kind : Phrase) : Tree :=
  kind.over (TokenKind.switchKw.leaf :: t.value.conditionParts ++ [t.blockTree])

end SwitchTree

end JavaSource
