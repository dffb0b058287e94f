import JavaSource.Token.Kind
import JavaSource.Tree.Phrase

/-!
# Grammar — Layer

The layers of binary operators, loosest first.  Operators of one layer group to the left.
-/

namespace JavaSource.Grammar

/-- How strongly a binary operator binds. -/
inductive Layer where
  | conditionalOr | conditionalAnd | inclusiveOr | exclusiveOr | bitAnd | equality | relational
  | shift | additive | multiplicative
  deriving DecidableEq, Repr

namespace Layer

/-- The place of a layer, counted from the loosest at one. -/
def rank : Layer → Nat
  | conditionalOr  => 1
  | conditionalAnd => 2
  | inclusiveOr    => 3
  | exclusiveOr    => 4
  | bitAnd         => 5
  | equality       => 6
  | relational     => 7
  | shift          => 8
  | additive       => 9
  | multiplicative => 10

/-- The kind of phrase that an operator of the layer builds. -/
def phrase : Layer → Phrase
  | conditionalOr  => .conditionalOr
  | conditionalAnd => .conditionalAnd
  | inclusiveOr    => .inclusiveOr
  | exclusiveOr    => .exclusiveOr
  | bitAnd         => .bitAnd
  | equality       => .equality
  | relational     => .relational
  | shift          => .shift
  | additive       => .additive
  | multiplicative => .multiplicative

/-- The name of a layer. -/
def name : Layer → String
  | bitAnd => "And"
  | layer  => layer.phrase.name

/-- The next tighter layer. -/
def tighter : Layer → Option Layer
  | conditionalOr  => some conditionalAnd
  | conditionalAnd => some inclusiveOr
  | inclusiveOr    => some exclusiveOr
  | exclusiveOr    => some bitAnd
  | bitAnd         => some equality
  | equality       => some relational
  | relational     => some shift
  | shift          => some additive
  | additive       => some multiplicative
  | multiplicative => none

/-- The layer of an operator.  The right shifts are joined tokens. -/
def ofOperator : TokenKind → Option Layer
  | .orOr                                   => some conditionalOr
  | .andAnd                                 => some conditionalAnd
  | .bitOr                                  => some inclusiveOr
  | .caret                                  => some exclusiveOr
  | .bitAnd                                 => some bitAnd
  | .eqEq | .notEq                          => some equality
  | .lt | .gt | .le | .ge | .instanceOfKw   => some relational
  | .lshift | .rshift | .urshift            => some shift
  | .add | .sub                             => some additive
  | .mul | .div | .mod                      => some multiplicative
  | _                                       => none

end Layer

end JavaSource.Grammar
