import JavaSource.Printing.Doc
import JavaSource.Syntax.Attribute
import JavaSource.Syntax.Level
import JavaSource.Syntax.Shared

/-!
# Printing — Context

When an operand needs parentheses, and a few other questions about what stands next to an
expression or a statement: whether signs would run together, whether an `else` would go astray.
-/

namespace JavaSource

/-- How tightly an expression holds together. -/
def Node.level : Expr → Level
  | .lambda ..                              => .lambda
  | .assignment ..                          => .assignment
  | .conditional ..                         => .ternary
  | .binary _ _ (.binaryOperator op) _      => op.level
  | .instanceOf ..                          => .relational
  | .cast .. | .newObject .. | .newArray .. => .type
  | .unary ..                               => .unary
  | .post ..                                => .post
  | _                                       => .primary

/-- Where an operand stands: how tightly it has to hold together, and whether just that is
enough. -/
structure Context where
  level : Level
  orEqual : Bool
  deriving DecidableEq, Repr

/-- Whether an expression needs parentheses there. -/
def Context.needsParens (context : Context) (level : Level) : Bool :=
  level.rank < context.level.rank || (level == context.level && !context.orEqual)

/-- In front of parentheses, on both sides of a dot, and of all else that holds tightest. -/
def Context.primary : Context := ⟨.primary, true⟩

/-- An operand. -/
def Doc.operand (context : Context) (e : Expr) (d : Doc) : Doc :=
  parens (context.needsParens e.level) d

/-- Several operands. -/
def Doc.operands (context : Context) (es : Nodes .expr) (ds : List Doc) : List Doc :=
  es.toList.zipWith (operand context) ds

/-- The sign that an operator starts with. -/
def UnaryOp.sign? : UnaryOp → Option Char
  | plus | preInc  => some '+'
  | minus | preDec => some '-'
  | not | invert   => none

/-- Whether an operator would run together with the one that its operand starts with. -/
def Node.startsWithSign (op : UnaryOp) : Expr → Bool
  | .unary _ (.unaryOperator inner) _ => op.sign?.isSome && op.sign? == inner.sign?
  | _                                 => false

/-- A literal of which a minus in front is a part: the integers. -/
def Node.integer? : Expr → Option (UInt64 × Bool)
  | .constant _ (.literal _ (.int value long)) => some (value, long)
  | _                                          => none

/-- Whether a cast can stand in front of a sign: not if it could be an operand in parentheses. -/
def Node.takesSign (annotations : Nodes .annotationUse) : Node .typeBound → Bool
  | .typeBound _ as (.cons ty .nil) =>
    annotations.isEmpty && as.isEmpty && ty.typeAnnotations.isEmpty && ty.isPrimitive
  | _ => false

/-- Whether an expression is a lambda. -/
def Node.isLambda : Expr → Bool
  | .lambda .. => true
  | _          => false

/-- Whether an expression starts with a sign. -/
def Node.isSigned : Expr → Bool
  | .unary _ (.unaryOperator op) _ => op.isSignLike
  | _                              => false

/-- What a cast is of.  A lambda needs no parentheses; what starts with a sign does, unless the
cast can only be a cast. -/
def Doc.castOperand (signs : Bool) (e : Expr) (d : Doc) : Doc :=
  if e.isLambda then d
  else if e.isSigned && !signs then parens true d
  else operand ⟨.type, true⟩ e d

/-- Whether a statement is a block. -/
def Node.isBlock : Stmt → Bool
  | .blockStmt _ => true
  | _            => false

/-- Whether a statement is an `if`. -/
def Node.isIf : Stmt → Bool
  | .ifStmt .. => true
  | _          => false

/-- Whether an `else` behind a statement would belong to an `if` in it. -/
def Node.endsInOpenIf : {c : Category} → Node c → Bool
  | _, .ifStmt _ _ _ .absent           => true
  | _, .ifStmt _ _ _ (.present orelse) => endsInOpenIf orelse
  | _, .whileStmt _ _ body             => endsInOpenIf body
  | _, .forStmt _ _ _ _ body           => endsInOpenIf body
  | _, .forEachStmt _ _ _ _ _ body     => endsInOpenIf body
  | _, .labeledStmt _ _ body           => endsInOpenIf body
  | _, _                               => false

/-- The statement that a head controls: a block on the same line, anything else on the next. -/
def Doc.body (s : Stmt) (d : Doc) : Doc := if s.isBlock then " " ++ d else nest (line ++ d)

/-- The statement between a condition and an `else`. -/
def Doc.thenBranch (s : Stmt) (d : Doc) : Doc :=
  if s.endsInOpenIf then " " ++ braces [d] ++ " else"
  else if s.isBlock then body s d ++ " else"
  else body s d ++ line ++ "else"

/-- The statement behind an `else`. -/
def Doc.elseBranch (s : Stmt) (d : Doc) : Doc := if s.isIf then " " ++ d else body s d

end JavaSource
