import JavaSource.Reading.Statements

/-!
# Reading — Declarations

Declarations, parameters, compilation units and modules.
-/

namespace JavaSource

open Text (Span)

namespace Opened

variable (o : Opened)

/-! ### Variables and parameters -/

/-- `a[]` -/
def variableDeclaratorId : Reading .variableDeclaratorId := do
  let id ← o.identifier
  return .variableDeclaratorId o.span id (← o.dims)

/-- `a[] = b` -/
def variableDeclarator : Reading .variableDeclarator := do
  let id ← o.readFirst .variableDeclaratorId .variableDeclaratorId
  return .variableDeclarator o.span id (← Part.readOption .expr o.phrases[1]?)

/-- A modifier as an annotation; a word is an error. -/
def annotationOf : Node .modifier → Reading .annotationUse
  | .annotationModifier a   => .ok a
  | .keywordModifier span _ => .error ⟨"ReceiverParameter", "modifiers", .receiverKeyword, span⟩

/-- `T A.this`.  Annotations in front are those of the type. -/
def receiverParameter : Reading .receiverParameter := do
  let annotations ← Node.ofList <$> (← o.modifiers).toList.mapM annotationOf
  let ty ← o.readFirst .type .type
  let ty := ty.annotatedWith ty.span (annotations.append ty.typeAnnotations)
  return .receiverParameter o.span ty (.ofList o.identifiers)

/-- `final T x` or `final T... x` -/
def formalParameter : Reading .formalParameter := do
  let ty ← o.readFirst .type .type
  if o.tree.phrase? == some .variableArityParameter then
    let id ← o.identifier
    let modifiers ← o.modifiers
    return .variableArityParameter o.span modifiers ty (← o.annotations) id
  else
    let id ← o.readFirst .variableDeclaratorId .variableDeclaratorId
    return .parameter o.span (← o.modifiers) ty id

/-- One more parameter, or the receiver. -/
def pushParameter (read : OptNode .receiverParameter × List (Node .formalParameter)) (p : Part) :
    Except NodeError (OptNode .receiverParameter × List (Node .formalParameter)) := do
  match p.tree.phrase? with
  | some .receiverParameter => return (.present (← p.read .receiverParameter), read.2)
  | some .variableArityParameter | some .formalParameter =>
    return (read.1, (← p.read .formalParameter) :: read.2)
  | _ => .error (p.tree.error (.notA "a formal parameter"))

/-- `(T this, U x, V... y)` -/
def formalParameters : Reading .formalParameters := do
  let (receiver, params) ← o.phrases.foldlM pushParameter (.absent, [])
  return .formalParameters o.span receiver (.ofList params.reverse)

/-! ### Members -/

/-- The names behind `throws` or a directive's word. -/
def nameList : Reading (.list .qualifiedName) := o.readList .qualifiedNameList .qualifiedNames

/-- The types behind a token of some kind. -/
def typesBehind (isMarker : Token → Bool) : Reading (.list .type) :=
  match o.behind? isMarker with
  | some list => if list.isA .typeList then list.read .types else .ok .nil
  | none      => .ok .nil

/-- The body of a type declaration. -/
def classBody : Reading (.list .decl) := o.readFirst .classBody .decls

/-- The type parameters, if there are any. -/
def typeParams : Reading (.opt .typeParameters) := o.readFirst? .typeParameters .typeParameters

/-- A class without its modifiers. -/
def classDecl : Reading .decl := do
  let id ← o.identifier
  let body ← o.classBody
  let implement ← o.typesBehind (·.kind == .implementsKw)
  let permit ← o.typesBehind (·.isWord "permits")
  let typeParams ← o.typeParams
  let extend ← Part.readOption .type (o.behind? (·.kind == .extendsKw))
  return .classDecl o.span .nil id typeParams extend implement permit body

/-- An interface without its modifiers. -/
def interfaceDecl : Reading .decl := do
  let id ← o.identifier
  let body ← o.classBody
  let extend ← o.typesBehind (·.kind == .extendsKw)
  let permit ← o.typesBehind (·.isWord "permits")
  return .interfaceDecl o.span .nil id (← o.typeParams) extend permit body

/-- `@A B(c) { … }` -/
def enumConstant : Reading .enumConstant := do
  let id ← o.identifier
  let annotations ← o.annotations
  let args ← o.readFirst? .arguments .exprs
  return .enumConstant o.span annotations id args (← o.readFirst? .classBody .decls)

/-- An enum without its modifiers. -/
def enumDecl : Reading .decl := do
  let id ← o.identifier
  let inner ← o.first .enumBody
  let constants ← inner.opened.readAll .enumConstant .enumConstant
  let body ← Part.readAll .decl (inner.opened.phrasesBut .enumConstant)
  return .enumDecl o.span .nil id (← o.typesBehind (·.kind == .implementsKw)) constants body

/-- `@A T... x` -/
def recordComponent : Reading .recordComponent := do
  let ty ← o.readFirst .type .type
  let id ← o.identifier
  return .recordComponent o.span (← o.annotations) ty (o.hasToken .ellipsis) id

/-- A record without its modifiers.  Its name is the second identifier, behind `record`. -/
def recordDecl : Reading .decl := do
  let some id := o.identifiers[1]? | o.lacks "a record name"
  let header ← o.first .recordHeader
  let components ← header.opened.readAll .recordComponent .recordComponent
  let body ← o.classBody
  let implement ← o.typesBehind (·.kind == .implementsKw)
  return .recordDecl o.span .nil id (← o.typeParams) components implement body

/-- An annotation type without its modifiers. -/
def annotationDecl : Reading .decl := do
  let id ← o.identifier
  return .annotationDecl o.span .nil id (← o.classBody)

/-- A field without its modifiers. -/
def fieldDecl : Reading .decl := do
  let ty ← o.readFirst .type .type
  let declarators ← o.readFirst .variableDeclarators .variableDeclarators
  (Node.fieldDecl o.span .nil ty declarators).checked

/-- A method without its modifiers. -/
def methodDecl : Reading .decl := do
  let ty ← o.readFirst .type .type
  let id ← o.identifier
  let params ← o.readFirst .formalParameters .formalParameters
  let annotations ← o.annotations
  let dims ← o.dims
  let throws ← o.nameList
  let typeParams ← o.typeParams
  let body ← o.readFirst? .block .block
  return .methodDecl o.span .nil typeParams annotations ty id params dims throws body

/-- A constructor without its modifiers. -/
def constructorDecl : Reading .decl := do
  let id ← o.identifier
  let params ← o.readFirst .formalParameters .formalParameters
  let body ← o.readFirst .block .block
  let throws ← o.nameList
  return .constructorDecl o.span .nil (← o.typeParams) id params throws body

/-- A compact constructor without its modifiers. -/
def compactConstructorDecl : Reading .decl := do
  let id ← o.identifier
  return .compactConstructorDecl o.span .nil id (← o.readFirst .block .block)

/-- An element of an annotation type without its modifiers.  Dimensions behind the parentheses
are those of its type. -/
def elementDecl : Reading .decl := do
  let ty ← o.readFirst .type .type
  let ty ← match ← o.dims with
    | .nil => pure ty
    | dims => (Node.arrayType ty.span .nil ty dims).checked
  let id ← o.identifier
  (Node.elementDecl none .nil ty id .absent).check
  return .elementDecl o.span .nil ty id (← o.readFirst? .elementValue .elementValue)

/-- A member without its modifiers. -/
def member : Reading .decl :=
  match o.tree.phrase? with
  | some .classDeclaration              => o.classDecl
  | some .interfaceDeclaration          => o.interfaceDecl
  | some .enumDeclaration               => o.enumDecl
  | some .recordDeclaration             => o.recordDecl
  | some .annotationTypeDeclaration     => o.annotationDecl
  | some .fieldDeclaration              => o.fieldDecl
  | some .methodDeclaration             => o.methodDecl
  | some .constructorDeclaration        => o.constructorDecl
  | some .compactConstructorDeclaration => o.compactConstructorDecl
  | some .annotationMethodDeclaration   => o.elementDecl
  | _                                   => o.error (.notA "a member declaration")

/-- A member with its modifiers, which its span covers too. -/
def memberDecl : Reading .decl := do
  let some inner := (o.phrasesBut .modifiers).head? | o.lacks "a member"
  let decl ← inner.read .member
  match ← o.modifiers with
  | .nil => return decl.declAt o.span
  | ms   =>
    match decl.withModifiers? ms with
    | some decl => return decl.declAt o.span
    | none      => .error ⟨decl.kindName, "modifiers", .unmodifiable, o.span⟩

/-- A member, an initializer or a semicolon. -/
def decl : Reading .decl :=
  match o.tree.phrase? with
  | some .emptyDeclaration  => .ok (.emptyDecl o.span)
  | some .initializer       => do
    return .initializerDecl o.span (← o.readFirst .block .block) (o.hasToken .staticKw)
  | some .memberDeclaration => o.memberDecl
  | _                       => o.error (.notA "a class body declaration")

/-! ### Compilation units and modules -/

/-- `@A package b;` -/
def packageDecl : Reading .packageDecl := do
  let name ← o.readFirst .qualifiedName .qualifiedName
  return .packageDecl o.span (← o.annotations) name

/-- `import static a.*;` -/
def importDecl : Reading .importDecl := do
  let name ← o.readFirst .qualifiedName .qualifiedName
  return .importDecl o.span (o.hasToken .staticKw) name (o.hasToken .mul)

/-- A directive of a module.  Between `requires` and the name every token is a modifier. -/
def directive : Reading .directive := do
  let name ← o.readFirst .qualifiedName .qualifiedName
  match o.tree.phrase? with
  | some .requiresDirective =>
    let words := (o.tree.tokens.drop 1).filter (·.kind != .semi)
    return .requiresDirective o.span (.ofList (← words.mapM o.keywordModifier)) name
  | some .exportsDirective  => .exportsDirective o.span name <$> o.nameList
  | some .opensDirective    => .opensDirective o.span name <$> o.nameList
  | some .usesDirective     => return .usesDirective o.span name
  | some .providesDirective => do (Node.providesDirective o.span name (← o.nameList)).checked
  | _                       => o.error (.notA "a module directive")

/-- `@A open module b { … }` -/
def moduleDecl : Reading .moduleDecl := do
  let name ← o.readFirst .qualifiedName .qualifiedName
  let inner := o.phrases.filter fun p => !p.isA .annotationUse && !p.isA .qualifiedName
  let directives ← Part.readAll .directive inner
  return .moduleDecl o.span (← o.annotations) (o.tree.hasWord "open") name directives

/-- A compilation unit.  One with a module has no package. -/
def compilationUnit : Reading .compilationUnit := do
  let package ← o.readFirst? .packageDeclaration .packageDecl
  let imports ← o.readAll .importDeclaration .importDecl
  match o.first? .moduleDeclaration, package with
  | some _, .present package =>
    .error ⟨"ModularCompilationUnit", "package", .modularPackage, package.span⟩
  | some m, .absent => .modularUnit o.span imports <$> m.read .moduleDecl
  | none, package =>
    let inner := o.phrases.filter fun p => !p.isA .packageDeclaration && !p.isA .importDeclaration
    return .ordinaryUnit o.span package imports (← Part.readAll .decl inner)

end Opened

end JavaSource
