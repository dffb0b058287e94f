import JavaSource.Syntax.Operator

/-!
# Syntax — Level

How tightly an expression holds together.  An operand that holds together less tightly than its
place demands stands in parentheses.
-/

namespace JavaSource

/-- The levels, from the loosest to the tightest. -/
inductive Level where
  | lambda | assignment | ternary | logicalOr | logicalAnd | bitwiseOr | bitwiseXor | bitwiseAnd
  | equality | relational | shift | additive | multiplicative
  /-- Casts and creations. -/
  | type
  | unary | post | primary
  deriving DecidableEq, Repr, Inhabited

namespace Level

/-- The place of a level, counted from the loosest at zero. -/
def rank : Level → Nat
  | lambda         => 0
  | assignment     => 1
  | ternary        => 2
  | logicalOr      => 3
  | logicalAnd     => 4
  | bitwiseOr      => 5
  | bitwiseXor     => 6
  | bitwiseAnd     => 7
  | equality       => 8
  | relational     => 9
  | shift          => 10
  | additive       => 11
  | multiplicative => 12
  | type           => 13
  | unary          => 14
  | post           => 15
  | primary        => 16

/-- The next tighter level; the tightest stays. -/
def next : Level → Level
  | lambda         => assignment
  | assignment     => ternary
  | ternary        => logicalOr
  | logicalOr      => logicalAnd
  | logicalAnd     => bitwiseOr
  | bitwiseOr      => bitwiseXor
  | bitwiseXor     => bitwiseAnd
  | bitwiseAnd     => equality
  | equality       => relational
  | relational     => shift
  | shift          => additive
  | additive       => multiplicative
  | multiplicative => type
  | type           => unary
  | unary          => post
  | post | primary => primary

end Level

/-- The level of a binary operation. -/
def BinaryOp.level : BinaryOp → Level
  | or                        => .logicalOr
  | and                       => .logicalAnd
  | bitOr                     => .bitwiseOr
  | bitXor                    => .bitwiseXor
  | bitAnd                    => .bitwiseAnd
  | eq | ne                   => .equality
  | lt | le | gt | ge         => .relational
  | lshift | rshift | urshift => .shift
  | add | sub                 => .additive
  | mul | div | mod           => .multiplicative

end JavaSource
