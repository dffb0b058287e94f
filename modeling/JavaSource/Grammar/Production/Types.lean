import JavaSource.Grammar.Move

/-!
# Grammar — Production — Types

Names, modifiers, annotations and types.
-/

namespace JavaSource.Grammar.Production

open Move

/-! ### Names, modifiers and annotations -/

/-- `a.b.c` -/
def qualifiedName : Move Unit := do
  expect .identifier
  loop do
    let a ← ahead
    if a.isAt .dot && a.kindAt 1 == .identifier then
      takeTwo
      return true
    else return false
  close .qualifiedName

/-- `a.b, c.d` -/
def qualifiedNames : Move Unit := do
  separated .comma .qualifiedName
  close .qualifiedNameList

/-- Words and annotations in any order; without any there is no phrase. -/
def modifiers : Move Unit := do
  if (← ahead).startsModifier then
    loop do
      let a ← ahead
      if a.isAtModifierWord then
        take
        return true
      else if a.startsAnnotation then
        read .annotationUse
        return true
      else return false
    close .modifiers

/-- Annotations alone. -/
def annotations : Move Unit :=
  readWhile Ahead.startsAnnotation .annotationUse

/-- What the parentheses of an annotation hold: pairs, a value or nothing. -/
def annotationElements : Move Unit := do
  let a ← ahead
  if a.isAt .identifier && a.kindAt 1 == .assign then separated .comma .elementValuePair
  else if !a.isAt .rparen then read .elementValue

/-- `@Name`, `@Name(value)` or `@Name(a = x, …)` -/
def annotationUse : Move Unit := do
  expect .atSign
  read .qualifiedName
  provided (·.isAt .lparen) do
    take
    annotationElements
    expect .rparen
  close .annotationUse

/-- `a = x` -/
def elementValuePair : Move Unit := do
  expect .identifier
  expect .assign
  read .elementValue
  close .elementValuePair

/-- An annotation, a braced list of values, or an expression without an assignment. -/
def bareElementValue : Move Unit := do
  match (← ahead).kind with
  | .atSign => read .annotationUse
  | .lbrace =>
    take
    commasUpTo (·.isAt .rbrace) .elementValue
    expect .rbrace
    close .elementValueArrayInitializer
  | _ => read .ternary

/-- What an element of an annotation is set to. -/
def elementValue : Move Unit := do
  bareElementValue
  close .elementValue

/-! ### Types -/

/-- `[]` pairs, each with annotations or without.  Annotations that no `[]` follows are left
alone. -/
def dims : Move Unit :=
  loop do
    let a ← ahead
    if a.startsDim then
      read .dim
      return true
    else if a.isAt .atSign then
      match ← attempt .annotations with
      | some width =>
        if (a.skip width).startsDim then
          read .dim
          return true
        else return false
      | none => return false
    else return false

/-- `@A []` -/
def dim : Move Unit := do
  read .annotations
  expect .lbrack
  expect .rbrack
  close .dim

/-- A primitive type or a class type. -/
def baseType : Move Unit := do
  let a ← ahead
  if a.kind.isPrimitiveType then take
  else if a.isAt .identifier then read .classType
  else mismatch TokenKind.identifier.describe

/-- A type behind the place where its nesting is counted. -/
def typeBody (withDims : Bool) : Move Unit := do
  read .annotations
  baseType
  provided (fun _ => withDims) dims
  close .type

/-- A type with its dimensions. -/
def type : Move Unit := do
  nest
  typeBody true

/-- A type without dimensions. -/
def bareType : Move Unit := do
  nest
  typeBody false

/-- `void` or a type. -/
def resultType : Move Unit := do
  if ← eat .voidKw then close .type else read .type

/-- `a.B<C>.@D E` -/
def classType : Move Unit := do
  read .coit
  loop do
    let a ← ahead
    if a.isAt .dot && (a.kindAt 1 == .identifier || a.kindAt 1 == .atSign) then
      take
      read .coit
      return true
    else return false
  close .classType

/-- `@D E<F>` -/
def coit : Move Unit := do
  read .annotations
  expect .identifier
  readAt .lt .typeArguments
  close .coit

/-- `<A, ? extends B>` or the diamond `<>` -/
def typeArguments : Move Unit := do
  expect .lt
  provided (!·.isAt .gt) (separated .comma .typeArgument)
  expect .gt
  close .typeArguments

/-- A type or a wildcard. -/
def typeArgument : Move Unit := do
  read .annotations
  if ← eat .question then
    provided (fun a => a.isAt .extendsKw || a.isAt .superKw) do
      take
      read .type
    close .wildcard
  else
    nest
    typeBody true

/-- `A, B` -/
def typeList : Move Unit := do
  separated .comma .type
  close .typeList

/-- `<A, B extends C>` -/
def typeParameters : Move Unit := do
  expect .lt
  separated .comma .typeParameter
  expect .gt
  close .typeParameters

/-- `@A B extends C` -/
def typeParameter : Move Unit := do
  read .annotations
  expect .identifier
  readAfter .extendsKw .typeBound
  close .typeParameter

/-- `A & B` -/
def typeBound : Move Unit := do
  separated .bitAnd .type
  close .typeBound

/-- Modifiers and a type, as tried before a declaration. -/
def modifiedType : Move Unit := do
  read .modifiers
  read .type

/-- How far modifiers and a type reach, if they stand here. -/
def modifiedTypeWidth : Move (Option Nat) := do
  if (← ahead).mayStartType then attempt .modifiedType else return none

/-- Whether a variable is declared here: a type and then a name. -/
def startsVariable : Move Bool := do
  let a ← ahead
  return (← modifiedTypeWidth).any fun width => a.kindAt width == .identifier

end JavaSource.Grammar.Production
