import JavaSource.Grammar.Production.Types

/-!
# Grammar — Production — Declarations

Compilation units, modules, types and their members.
-/

namespace JavaSource.Grammar.Production

open Move

/-! ### Compilation units and modules -/

/-- Whether a package is declared here, annotations before it or not. -/
def startsPackage : Move Bool := do
  let a ← ahead
  if a.isAt .packageKw then return true
  else if a.startsAnnotation then
    return (← attempt .annotations).any fun width => a.kindAt width == .packageKw
  else return false

/-- Whether `module a` or `open module a` stands here. -/
def isAtModule (a : Ahead) : Bool :=
  ((a.at_ 0).isWord "open" && (a.at_ 1).isWord "module")
    || ((a.at_ 0).isWord "module" && a.kindAt 1 == .identifier)

/-- Whether a module is declared here, annotations before it or not. -/
def startsModule : Move Bool := do
  let a ← ahead
  if a.isAt .atSign then
    return (← attempt .annotations).any fun width => isAtModule (a.skip width)
  else return isAtModule a

/-- `@A package a.b;` -/
def packageDeclaration : Move Unit := do
  read .annotations
  expect .packageKw
  read .qualifiedName
  expect .semi
  close .packageDeclaration

/-- `import static a.b.*;` -/
def importDeclaration : Move Unit := do
  expect .importKw
  let _ ← eat .staticKw
  read .qualifiedName
  provided (fun a => a.isAt .dot && a.kindAt 1 == .mul) do
    takeTwo
  expect .semi
  close .importDeclaration

/-- `@A open module a.b { … }` -/
def moduleDeclaration : Move Unit := do
  read .annotations
  provided (·.isAtWord "open") take
  expectWord "module"
  read .qualifiedName
  expect .lbrace
  readWhile (!·.isAt .rbrace) .moduleDirective
  expect .rbrace
  close .moduleDeclaration

/-- A name, and a list of names behind a word. -/
def nameAndTargets (word : String) : Move Unit := do
  read .qualifiedName
  provided (·.isAtWord word) do
    take
    read .qualifiedNames

/-- The modifiers of a required module.  `requires transitive;` requires a module of that name. -/
def requiresModifiers : Move Unit :=
  loop do
    let a ← ahead
    if a.isAt .staticKw
        || (a.isAtWord "transitive" && (a.kindAt 1 == .identifier || a.kindAt 1 == .staticKw)) then
      take
      return true
    else return false

/-- A line of a module. -/
def moduleDirective : Move Unit := do
  let a ← ahead
  if a.isAtWord "requires" then
    take
    requiresModifiers
    read .qualifiedName
    expect .semi
    close .requiresDirective
  else if a.isAtWord "exports" then
    take
    nameAndTargets "to"
    expect .semi
    close .exportsDirective
  else if a.isAtWord "opens" then
    take
    nameAndTargets "to"
    expect .semi
    close .opensDirective
  else if a.isAtWord "uses" then
    take
    read .qualifiedName
    expect .semi
    close .usesDirective
  else if a.isAtWord "provides" then
    take
    read .qualifiedName
    expectWord "with"
    read .qualifiedNames
    expect .semi
    close .providesDirective
  else mismatch TokenKind.rbrace.describe

/-- Nothing may follow. -/
def finish : Move Unit := do
  if !(← isAt .eof) then fail .extraneous

/-- The package of a compilation unit, if it is in one. -/
def unitPackage : Move Unit := do
  if ← startsPackage then read .packageDeclaration

/-- The module or the types of a compilation unit. -/
def unitBody : Move Unit := do
  if ← startsModule then read .moduleDeclaration
  else readWhile (!·.isAt .eof) (.classBodyDeclaration .outermost)

/-- A package, imports, and a module or types. -/
def compilationUnit : Move Unit := do
  unitPackage
  readWhile (·.isAt .importKw) .importDeclaration
  unitBody
  finish
  close .compilationUnit

/-- A package, an import, a module, a type or a member. -/
def anyDeclaration : Move Unit := do
  if ← startsPackage then read .packageDeclaration
  else if ← isAt .importKw then read .importDeclaration
  else if ← startsModule then read .moduleDeclaration
  else read (.classBodyDeclaration .alone)

/-- One declaration of any kind. -/
def declarationStart : Move Unit := do
  anyDeclaration
  finish
  close .declarationStart

/-! ### Bodies -/

/-- Whether a body goes on. -/
def isInBody (a : Ahead) : Bool := !a.isAt .rbrace && !a.isAt .eof

/-- `{ … }` with declarations. -/
def classBody (setting : Setting) : Move Unit := do
  nest
  expect .lbrace
  readWhile isInBody (.classBodyDeclaration setting)
  expect .rbrace
  close .classBody

/-- `{ A, B; … }` -/
def enumBody : Move Unit := do
  expect .lbrace
  commasUpTo (fun a => a.isAt .semi || a.isAt .rbrace) .enumConstant
  provided (·.isAt .semi) do
    take
    readWhile isInBody (.classBodyDeclaration .member)
  expect .rbrace
  close .enumBody

/-- `@A B(1) { … }` -/
def enumConstant : Move Unit := do
  read .annotations
  expect .identifier
  readAt .lparen .arguments
  readAt .lbrace (.classBody .member)
  close .enumConstant

/-- An empty declaration, an initializer or a member. -/
def classBodyDeclaration (setting : Setting) : Move Unit := do
  let a ← ahead
  if a.isAt .semi then
    take
    close .emptyDeclaration
  else if a.isAt .lbrace && setting != .outermost then
    read .block
    close .initializer
  else if a.isAt .staticKw && a.kindAt 1 == .lbrace && setting != .outermost then
    take
    read .block
    close .initializer
  else read (.memberDeclaration setting)

/-- Modifiers and what they modify. -/
def memberDeclaration (setting : Setting) : Move Unit := do
  read .modifiers
  read (.memberBody setting)
  close .memberDeclaration

/-! ### Types -/

/-- A word and a list of types behind it, if the word stands here. -/
def permits : Move Unit :=
  provided (·.isAtWord "permits") do
    take
    read .typeList

/-- `class A<B> extends C implements D permits E { … }` -/
def classDeclaration : Move Unit := do
  expect .classKw
  expect .identifier
  readAt .lt .typeParameters
  readAfter .extendsKw .type
  readAfter .implementsKw .typeList
  permits
  read (.classBody .member)
  close .classDeclaration

/-- `interface A<B> extends C permits D { … }` -/
def interfaceDeclaration : Move Unit := do
  expect .interfaceKw
  expect .identifier
  readAt .lt .typeParameters
  readAfter .extendsKw .typeList
  permits
  read (.classBody .member)
  close .interfaceDeclaration

/-- `enum A implements B { … }` -/
def enumDeclaration : Move Unit := do
  expect .enumKw
  expect .identifier
  readAfter .implementsKw .typeList
  read .enumBody
  close .enumDeclaration

/-- `record A<B>(C c) implements D { … }` -/
def recordDeclaration : Move Unit := do
  expectWord "record"
  expect .identifier
  readAt .lt .typeParameters
  read .recordHeader
  readAfter .implementsKw .typeList
  read (.classBody .member)
  close .recordDeclaration

/-- `(A a, B... b)` -/
def recordHeader : Move Unit := do
  expect .lparen
  provided (!·.isAt .rparen) (separated .comma .recordComponent)
  expect .rparen
  close .recordHeader

/-- `@A B... b` -/
def recordComponent : Move Unit := do
  read .annotations
  read .type
  let _ ← eat .ellipsis
  expect .identifier
  close .recordComponent

/-- `@interface A { … }` -/
def annotationTypeDeclaration : Move Unit := do
  expect .atSign
  expect .interfaceKw
  expect .identifier
  read (.classBody .element)
  close .annotationTypeDeclaration

/-! ### Members -/

/-- `A a = 1, b[];` -/
def fieldDeclaration : Move Unit := do
  read .type
  read .variableDeclarators
  expect .semi
  close .fieldDeclaration

/-- What a method or a constructor throws. -/
def throws : Move Unit := readAfter .throwsKw .qualifiedNames

/-- The block of a method, or a semicolon in place of it. -/
def methodBody : Move Unit := do
  if ← isAt .lbrace then read .block else expect .semi

/-- A method behind its type parameters. -/
def methodDeclaration : Move Unit := do
  read .resultType
  expect .identifier
  read (.formalParameters false)
  dims
  throws
  methodBody
  close .methodDeclaration

/-- A constructor behind its type parameters. -/
def constructorDeclaration : Move Unit := do
  expect .identifier
  read (.formalParameters false)
  throws
  read .block
  close .constructorDeclaration

/-- `A a() default 1;` -/
def elementDeclaration : Move Unit := do
  read .type
  expect .identifier
  expect .lparen
  expect .rparen
  dims
  readAfter .defaultKw .elementValue
  expect .semi
  close .annotationMethodDeclaration

/-- A method, an element of an annotation type, or else a field; told by what follows the type. -/
def typedMember (setting : Setting) : Move Unit := do
  let a ← ahead
  match ← attempt .type with
  | none => fieldDeclaration
  | some width =>
    let b := a.skip width
    if b.kind != .identifier || b.kindAt 1 != .lparen then fieldDeclaration
    else if b.kindAt 2 == .rparen && (setting == .element || b.kindAt 3 == .defaultKw) then
      elementDeclaration
    else methodDeclaration

/-- A declaration behind its modifiers. -/
def memberBody (setting : Setting) : Move Unit := do
  let a ← ahead
  if a.isAt .classKw then classDeclaration
  else if a.isAt .interfaceKw then interfaceDeclaration
  else if a.isAt .enumKw then enumDeclaration
  else if a.isAt .atSign && a.kindAt 1 == .interfaceKw then annotationTypeDeclaration
  else if a.startsRecord then recordDeclaration
  else if setting == .outermost then
    mismatch "\x7b'class', 'interface', 'enum', 'record', '@'\x7d"
  else match a.kind with
    | .lt =>
      read .typeParameters
      let b ← ahead
      if b.isAt .identifier && b.kindAt 1 == .lparen then constructorDeclaration
      else
        read .annotations
        methodDeclaration
    | .identifier =>
      if a.kindAt 1 == .lparen then constructorDeclaration
      else if a.kindAt 1 == .lbrace then
        take
        read .block
        close .compactConstructorDeclaration
      else typedMember setting
    | .voidKw => methodDeclaration
    | _       => typedMember setting

/-! ### Parameters and variables -/

/-- A parameter and a comma, and whether more may follow.  The parameters of a lambda have no
receiver, and a parameter of variable arity comes last. -/
def parameterAndComma (ofLambda : Bool) : Move Bool := do
  let a ← ahead
  read .formalParameter
  let last := (← ahead).last
  if ofLambda && last == some .receiverParameter then refuse a.read .lambdaReceiver
  else if last == some .variableArityParameter then return false
  else eat .comma

/-- `(A a, B b)` -/
def formalParameters (ofLambda : Bool) : Move Unit := do
  expect .lparen
  provided (!·.isAt .rparen) (loop (parameterAndComma ofLambda))
  expect .rparen
  close .formalParameters

/-- A parameter, a receiver or a parameter of variable arity. -/
def formalParameter : Move Unit := do
  read .modifiers
  read .type
  read .annotations
  let a ← ahead
  if a.isAt .ellipsis then
    take
    expect .identifier
    close .variableArityParameter
  else if a.last == some .annotationUse then mismatch TokenKind.ellipsis.describe
  else if a.isAt .thisKw then
    take
    close .receiverParameter
  else if a.isAt .identifier && a.kindAt 1 == .dot then
    loop do
      let b ← ahead
      if b.isAt .identifier && b.kindAt 1 == .dot then
        takeTwo
        return true
      else return false
    expect .thisKw
    close .receiverParameter
  else
    read .variableDeclaratorId
    close .formalParameter

/-- `a = 1, b[]` -/
def variableDeclarators : Move Unit := do
  separated .comma .variableDeclarator
  close .variableDeclarators

/-- `a[] = 1` -/
def variableDeclarator : Move Unit := do
  read .variableDeclaratorId
  readAfter .assign .variableInitializer
  close .variableDeclarator

/-- `a[]` -/
def variableDeclaratorId : Move Unit := do
  expect .identifier
  dims
  close .variableDeclaratorId

/-- A braced list or an expression. -/
def variableInitializer : Move Unit := do
  if ← isAt .lbrace then read .arrayInitializer else read .expression

/-- `{ 1, 2 }` -/
def arrayInitializer : Move Unit := do
  nest
  expect .lbrace
  commasUpTo (·.isAt .rbrace) .variableInitializer
  expect .rbrace
  close .arrayInitializer

end JavaSource.Grammar.Production
