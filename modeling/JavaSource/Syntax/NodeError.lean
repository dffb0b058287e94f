import JavaSource.Text.Span

/-!
# Syntax — NodeError

Why a node cannot be made, be it by hand, from a parse tree or from another node.  An error names
a field of a kind of node and says what is wrong with it; its wording is here and nowhere else.
-/

namespace JavaSource

open Text (Span)

/-- Where an operator stands. -/
inductive OperatorPlace where
  | before | behind | between | inAssignment
  deriving DecidableEq, Repr

/-- The name of such a place. -/
def OperatorPlace.text : OperatorPlace → String
  | before       => "prefix"
  | behind       => "postfix"
  | between      => "binary"
  | inAssignment => "assignment"

/-- What is wrong with a field. -/
inductive NodeProblem where
  /-- A list without elements where one is needed. -/
  | noElement
  /-- Several nodes in a place for one. -/
  | several
  /-- No node in a place for one. -/
  | removed
  -- rules about one kind of node
  | boundDirection
  | lambdaReceiver
  | sizedInitializer
  | unsizedArray
  | referenceName
  | noTypeDeclaration (found : String)
  | mixedSwitch
  | unguardedTry
  | annotatedType
  | modularPackage
  | unmodifiable
  | receiverKeyword
  -- parse trees that are not of a shape the grammar gives
  | expected (what : String)
  | notA (what : String)
  | notModifier (text : String)
  | notLiteral (found : String)
  | outOfRange (text : String)
  | unknownOperator (place : OperatorPlace) (text : String)
  | strayLabels
  deriving DecidableEq, Repr

/-- The wording of a problem. -/
def NodeProblem.text : NodeProblem → String
  | noElement            => "expected at least one element"
  | several              => "cannot splice a sequence into a single-valued field"
  | removed              => "required field cannot be removed"
  | boundDirection       => "exactly one of extends and super must be set"
  | lambdaReceiver       => "a lambda cannot declare a receiver parameter"
  | sizedInitializer     => "an initializer cannot be combined with sized dimensions"
  | unsizedArray         => "either sized dimensions or an initializer is required"
  | referenceName        => "exactly one of id and new must be given"
  | noTypeDeclaration k  => s!"expected a type declaration, found {k}"
  | mixedSwitch          => "switch rules cannot be mixed with statement groups"
  | unguardedTry         => "a try statement needs a catch clause or a finally block"
  | annotatedType        => "annotations belong to the declaration, not its type"
  | modularPackage       => "a modular compilation unit cannot declare a package"
  | unmodifiable         => "this declaration takes no modifiers"
  | receiverKeyword      => "a receiver parameter takes no keyword modifiers"
  | expected what        => s!"expected {what}"
  | notA what            => s!"not {what}"
  | notModifier text     => s!"'{text}' is not a modifier"
  | notLiteral found     => s!"{found} is not a literal"
  | outOfRange text      => s!"literal '{text}' is out of range"
  | unknownOperator p text =>
    let place := p.text
    s!"unknown {place} operator '{text}'"
  | strayLabels          => "labels without statements ahead of a statement group"

/-- A field of a kind of node, what is wrong with it, and where if that is known. -/
structure NodeError where
  node : String
  field : String
  problem : NodeProblem
  span : Option Span
  deriving DecidableEq, Repr

namespace NodeError

/-- An error without a span. -/
def of (node field : String) (problem : NodeProblem) : NodeError :=
  ⟨node, field, problem, none⟩

/-- An error as it is shown. -/
def text (e : NodeError) : String :=
  s!"{e.node}.{e.field}: {e.problem.text}"

end NodeError

end JavaSource
