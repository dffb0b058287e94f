import JavaSource.Reading.Part

/-!
# Reading — Types

Names, modifiers, annotations, types and patterns.
-/

namespace JavaSource

open Text (Place Span)

/-- The type word that a token spells. -/
def TokenKind.typeWord? : TokenKind → Option TypeWord
  | .voidKw    => some .void
  | .booleanKw => some .boolean
  | .byteKw    => some .byte
  | .shortKw   => some .short
  | .intKw     => some .int
  | .longKw    => some .long
  | .charKw    => some .char
  | .floatKw   => some .float
  | .doubleKw  => some .double
  | _          => none

namespace Opened

variable (o : Opened)

/-! ### Names, modifiers and annotations -/

/-- `a.b.c` -/
def qualifiedName : Reading .qualifiedName :=
  (Node.qualifiedName o.span (.ofList o.identifiers)).checked

/-- A modifier from a token. -/
def keywordModifier (t : Token) : Reading .modifier :=
  match ModifierWord.ofText? t.text with
  | some word => .ok (.keywordModifier (some t.span) word)
  | none      => o.error (.notModifier t.text)

/-- A modifier from a token or an annotation. -/
def modifierOf (p : Part) : Reading .modifier :=
  match p.tree.token? with
  | some t => o.keywordModifier t
  | none   => .annotationModifier <$> p.read .annotationUse

/-- The parts of a phrase of modifiers, in their order. -/
def modifierList : Reading (.list .modifier) := Node.ofList <$> o.parts.mapM o.modifierOf

/-- `@A(b = c)` -/
def annotationUse : Reading .annotationUse := do
  let name ← o.readFirst .qualifiedName .qualifiedName
  let elements := o.parts.filter fun p => p.isA .elementValuePair || p.isA .elementValue
  return .annotationUse o.span name (← Part.readAll .annotationElement elements)

/-- The first part as a value. -/
def elementValue : Reading .elementValue := do
  let inner ← o.nth 0
  match inner.tree.phrase? with
  | some .annotationUse                => .annotationValue <$> inner.read .annotationUse
  | some .elementValueArrayInitializer => inner.read .elementValueArray
  | _                                  => .exprValue <$> inner.read .expr

/-- `{a, b}` among the values of an annotation. -/
def elementValueArray : Reading .elementValue :=
  .elementValueArray o.span <$> o.readAll .elementValue .elementValue

/-- A value with a name or without. -/
def annotationElement : Reading .annotationElement :=
  if o.tree.phrase? == some .elementValuePair then do
    let id ← o.identifier
    return .elementValuePair o.span id (← o.readFirst .elementValue .elementValue)
  else .valueElement <$> o.elementValue

/-! ### Types -/

/-- What the parts of a type without its dimensions offer: a type word or a class type, and where
it ends. -/
def baseOf (p : Part) : Except NodeError (Option (TypeNode × Place)) :=
  match p.tree.token? with
  | some t => .ok (t.kind.typeWord?.map fun word => (.wordType none .nil word, t.span.stop))
  | none   =>
    if p.isA .classType then do return some (← p.read .classType, p.tree.span.stop)
    else .ok none

/-- Annotations, a type word or a class type, and dimensions.  The annotations belong to what the
dimensions are of. -/
def type : Reading .type := do
  let some (base, stop) := (← o.parts.filterMapM baseOf).getLast?
    | o.lacks "a primitive or class type"
  let base := base.annotatedWith (some ⟨o.tree.start.place, stop⟩) (← o.annotations)
  match ← o.dims with
  | .nil  => return base
  | dims  => (Node.arrayType o.span .nil base dims).checked

/-- Whether a part of a class type is the name `var` and no more. -/
def isVar : Node .coit → Bool
  | .coit _ annotations (.identifier _ name) typeArgs =>
    annotations.isEmpty && name == "var" && !typeArgs.isSome

/-- `a.b.c`.  A lone `var` is a word. -/
def classType : Reading .type := do
  let coits ← o.readAll .coit .coit
  match coits.toList with
  | [only] => if isVar only then return .wordType o.span .nil .var
              else (Node.classType o.span .nil coits).checked
  | _      => (Node.classType o.span .nil coits).checked

/-- A part of a class type. -/
def coit : Reading .coit := do
  let id ← o.identifier
  let annotations ← o.annotations
  return .coit o.span annotations id (← o.readFirst? .typeArguments .typeArguments)

/-- `<A, B>`, or `<>` without types. -/
def typeArguments : Reading .typeArguments :=
  .typeArguments o.span <$> Part.readAll .typeArgument o.phrases

/-- `?` with a bound or none. -/
def wildcard : Reading .type := do
  let up := o.hasToken .extendsKw
  let bound ← match o.first? .type with
    | some p => do
      pure (Node.present (.wildcardBound (some p.tree.span) (← p.read .type) up (!up)))
    | none   => pure .absent
  return .wildcardType o.span (← o.annotations) bound

/-- A type, or a wildcard. -/
def typeArgument : Reading .type :=
  if o.tree.phrase? == some .wildcard then o.wildcard else o.type

/-- `@A []` -/
def dim : Reading .dim := .dim o.span <$> o.annotations

/-- The types among the parts. -/
def types : Reading (.list .type) := o.readAll .type .type

/-- `T extends A & B` -/
def typeParameter : Reading .typeParameter := do
  let id ← o.identifier
  let annotations ← o.annotations
  return .typeParameter o.span annotations id (← o.readFirst? .typeBound .typeBound)

/-- `<A, B>` -/
def typeParameters : Reading .typeParameters := do
  (Node.typeParameters o.span (← o.readAll .typeParameter .typeParameter)).checked

/-- `A & B` -/
def typeBound : Reading .typeBound := do
  (Node.typeBound o.span .nil (← o.types)).checked

/-- The types in front of a cast operand; their span goes from the first to the last. -/
def castBound : Reading .typeBound := do
  let heads := o.phrasesOf .type
  let (some first, some last) := (heads.head?, heads.getLast?) | o.lacks "a cast type"
  let types ← Part.readAll .type heads
  (Node.typeBound (some ⟨first.tree.span.start, last.tree.span.stop⟩) .nil types).checked

/-- `final T x` -/
def pattern : Reading .pattern := do
  let ty ← o.readFirst .type .type
  let some id := o.identifier? | .error (.of "Pattern" "id" .removed)
  return .pattern o.span (← o.modifiers) ty .nil id

end Opened

end JavaSource
