import JavaSource.Grammar.Layer

/-!
# Grammar — Rule

The rules of the grammar, and how they stand to each other: a rule that starts with another one,
without having read a symbol first, ranks above it.  Ranks are why reading comes to an end; a
rule of rank zero always reads a symbol first.
-/

namespace JavaSource.Grammar

/-- Where a declaration stands, which decides what it may be. -/
inductive Setting where
  /-- Outside every body: types only. -/
  | outermost
  /-- In the body of a class, an interface, an enumeration or a record. -/
  | member
  /-- In the body of an annotation type, where `T id()` declares an element. -/
  | element
  /-- On its own. -/
  | alone
  deriving DecidableEq, Repr

/-- The rules. -/
inductive Rule where
  -- where reading starts
  | compilationUnit | declarationStart | statementStart | expressionStart
  -- names, modifiers and annotations
  | qualifiedName | qualifiedNames | modifiers | annotations | annotationUse | elementValuePair
  | elementValue
  -- types
  | type | bareType | resultType | classType | coit | typeArguments | typeArgument | dim
  | typeList | typeParameters | typeParameter | typeBound | modifiedType
  -- compilation units and modules
  | packageDeclaration | importDeclaration | moduleDeclaration | moduleDirective
  -- declarations
  | classBodyDeclaration (setting : Setting) | memberDeclaration (setting : Setting)
  | memberBody (setting : Setting) | classBody (setting : Setting) | enumBody | enumConstant
  | recordHeader | recordComponent | formalParameters (ofLambda : Bool) | formalParameter
  | variableDeclarators | variableDeclarator | variableDeclaratorId | variableInitializer
  | arrayInitializer
  -- statements
  | block | blockStatement | localVariableDeclaration | statement | expressionStatement | forInit
  | forUpdate | finallyClause | resourceSpecification | resource | resourceVariable | catchClause
  | catchType | switchBlock | switchEntry | switchLabel | caseItem | pattern
  -- expressions
  | expression | lambda | lambdaParameters | ternary | binary (loosest : Layer) | unary | castHead
  | postfixed | primary | selected | methodCall | arguments | superAccess | genericInvocation
  | dimExpr

/-- The rank of a rule. -/
def Rule.rank : Rule → Nat
  | annotationUse | qualifiedName | elementValuePair | typeArguments | typeParameters
  | importDeclaration | moduleDirective | classBody _ | enumBody | recordHeader
  | formalParameters _ | variableDeclaratorId | arrayInitializer | block | finallyClause
  | resourceSpecification | catchClause | switchBlock | switchLabel | castHead | methodCall
  | arguments | dimExpr => 0
  | annotations | modifiers | qualifiedNames | catchType | variableDeclarator | resourceVariable
  | switchEntry | lambdaParameters | superAccess | genericInvocation => 1
  | coit | dim | typeParameter | packageDeclaration | moduleDeclaration | enumConstant
  | variableDeclarators | lambda | selected => 2
  | classType => 3
  | type | bareType | typeArgument => 4
  | resultType | typeList | typeBound | modifiedType | pattern | recordComponent
  | formalParameter => 5
  | primary | localVariableDeclaration | resource | memberBody _ => 6
  | postfixed | memberDeclaration _ => 7
  | unary | classBodyDeclaration _ => 8
  | binary _ => 9
  | ternary => 10
  | expression | elementValue | caseItem => 11
  | variableInitializer | statement | expressionStatement | forInit | forUpdate => 12
  | blockStatement => 13
  | compilationUnit | declarationStart | statementStart | expressionStart => 14

/-- All ranks lie below. -/
def Rule.ranks : Nat := 15

theorem Rule.rank_lt_ranks (r : Rule) : r.rank < Rule.ranks := by
  cases r <;> simp [rank, ranks]

/-- What is tried without being kept, to find out how to go on. -/
inductive Probe where
  | type | modifiers | modifiedType | annotations | castHead | pattern
  deriving DecidableEq, Repr

/-- The rule that a probe tries. -/
def Probe.rule : Probe → Rule
  | .type         => .type
  | .modifiers    => .modifiers
  | .modifiedType => .modifiedType
  | .annotations  => .annotations
  | .castHead     => .castHead
  | .pattern      => .pattern

end JavaSource.Grammar
