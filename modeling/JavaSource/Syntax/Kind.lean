import JavaSource.Syntax.Node

/-!
# Syntax — Kind

The kinds of nodes.  A kind has a name; literals, types, modifier words and operators are named
more closely, each by what it is.
-/

namespace JavaSource

/-- What a node is. -/
inductive Kind where
  | identifier | qualifiedName | literal | keywordModifier | annotationUse | elementValuePair
  | elementValueArrayInitializer | type | coit | wildcardBound | typeArguments | dim
  | typeParameter | typeBound | typeParameters | pattern | guardedPattern | binaryOperator
  | unaryOperator | postOperator | assignOperator | nameExpr | constant | thisExpr | superExpr
  | classExpr | lambda | assignment | ifExp | binOp | instanceOf | unaryOp | postOp | cast
  | newObject | newInnerObject | newArray | switchExp | call | member | arrayAccess | reference
  | explicitGenericInvocation | dimExpr | arrayInitializer | switchExprRule | emptyStmt
  | localTypeDeclaration | labeledStmt | expressionStmt | ifStmt | assertStmt | switchStmt
  | whileStmt | doWhileStmt | forStmt | forEachStmt | breakStmt | continueStmt | returnStmt
  | throwStmt | synchronizedStmt | yieldStmt | tryStmt | tryWithResources | block
  | localVariableDeclaration | matchValue | caseLabel | defaultCase | switchGroup | switchBlock
  | catchClause | resource | variableDeclaratorId | variableDeclarator | receiverParameter
  | parameter | variableArityParameter | formalParameters | emptyDeclaration | fieldDeclaration
  | methodDeclaration | constructorDeclaration | compactConstructorDeclaration | initializer
  | classDeclaration | interfaceDeclaration | enumDeclaration | recordDeclaration
  | annotationDeclaration | annotationMethodDeclaration | enumConstant | recordComponent
  | packageDeclaration | importDeclaration | requiresDirective | exportsDirective | opensDirective
  | usesDirective | providesDirective | moduleDeclaration | ordinaryCompilationUnit
  | modularCompilationUnit
  deriving DecidableEq, Repr, Inhabited

namespace Kind

/-- All kinds. -/
def all : List Kind :=
  [.identifier, .qualifiedName, .literal, .keywordModifier, .annotationUse, .elementValuePair,
   .elementValueArrayInitializer, .type, .coit, .wildcardBound, .typeArguments, .dim,
   .typeParameter, .typeBound, .typeParameters, .pattern, .guardedPattern, .binaryOperator,
   .unaryOperator, .postOperator, .assignOperator, .nameExpr, .constant, .thisExpr, .superExpr,
   .classExpr, .lambda, .assignment, .ifExp, .binOp, .instanceOf, .unaryOp, .postOp, .cast,
   .newObject, .newInnerObject, .newArray, .switchExp, .call, .member, .arrayAccess, .reference,
   .explicitGenericInvocation, .dimExpr, .arrayInitializer, .switchExprRule, .emptyStmt,
   .localTypeDeclaration, .labeledStmt, .expressionStmt, .ifStmt, .assertStmt, .switchStmt,
   .whileStmt, .doWhileStmt, .forStmt, .forEachStmt, .breakStmt, .continueStmt, .returnStmt,
   .throwStmt, .synchronizedStmt, .yieldStmt, .tryStmt, .tryWithResources, .block,
   .localVariableDeclaration, .matchValue, .caseLabel, .defaultCase, .switchGroup, .switchBlock,
   .catchClause, .resource, .variableDeclaratorId, .variableDeclarator, .receiverParameter,
   .parameter, .variableArityParameter, .formalParameters, .emptyDeclaration, .fieldDeclaration,
   .methodDeclaration, .constructorDeclaration, .compactConstructorDeclaration, .initializer,
   .classDeclaration, .interfaceDeclaration, .enumDeclaration, .recordDeclaration,
   .annotationDeclaration, .annotationMethodDeclaration, .enumConstant, .recordComponent,
   .packageDeclaration, .importDeclaration, .requiresDirective, .exportsDirective,
   .opensDirective, .usesDirective, .providesDirective, .moduleDeclaration,
   .ordinaryCompilationUnit, .modularCompilationUnit]

/-- The name of a kind. -/
def name : Kind → String
  | identifier                    => "Identifier"
  | qualifiedName                 => "QualifiedName"
  | literal                       => "Literal"
  | keywordModifier               => "KeywordModifier"
  | annotationUse                 => "Annotation"
  | elementValuePair              => "ElementValuePair"
  | elementValueArrayInitializer  => "ElementValueArrayInitializer"
  | type                          => "Type"
  | coit                          => "Coit"
  | wildcardBound                 => "WildcardBound"
  | typeArguments                 => "TypeArguments"
  | dim                           => "Dim"
  | typeParameter                 => "TypeParameter"
  | typeBound                     => "TypeBound"
  | typeParameters                => "TypeParameters"
  | pattern                       => "Pattern"
  | guardedPattern                => "GuardedPattern"
  | binaryOperator                => "BinaryOperator"
  | unaryOperator                 => "UnaryOperator"
  | postOperator                  => "PostOperator"
  | assignOperator                => "AssignOperator"
  | nameExpr                      => "Name"
  | constant                      => "Constant"
  | thisExpr                      => "This"
  | superExpr                     => "Super"
  | classExpr                     => "ClassExpr"
  | lambda                        => "Lambda"
  | assignment                    => "Assignment"
  | ifExp                         => "IfExp"
  | binOp                         => "BinOp"
  | instanceOf                    => "InstanceOf"
  | unaryOp                       => "UnaryOp"
  | postOp                        => "PostOp"
  | cast                          => "Cast"
  | newObject                     => "NewObject"
  | newInnerObject                => "NewInnerObject"
  | newArray                      => "NewArray"
  | switchExp                     => "SwitchExp"
  | call                          => "Call"
  | member                        => "Member"
  | arrayAccess                   => "ArrayAccess"
  | reference                     => "Reference"
  | explicitGenericInvocation     => "ExplicitGenericInvocation"
  | dimExpr                       => "DimExpr"
  | arrayInitializer              => "ArrayInitializer"
  | switchExprRule                => "SwitchExprRule"
  | emptyStmt                     => "Empty"
  | localTypeDeclaration          => "LocalTypeDeclaration"
  | labeledStmt                   => "Labeled"
  | expressionStmt                => "ExpressionStmt"
  | ifStmt                        => "If"
  | assertStmt                    => "Assert"
  | switchStmt                    => "Switch"
  | whileStmt                     => "While"
  | doWhileStmt                   => "DoWhile"
  | forStmt                       => "For"
  | forEachStmt                   => "ForEach"
  | breakStmt                     => "Break"
  | continueStmt                  => "Continue"
  | returnStmt                    => "Return"
  | throwStmt                     => "Throw"
  | synchronizedStmt              => "Synchronized"
  | yieldStmt                     => "Yield"
  | tryStmt                       => "Try"
  | tryWithResources              => "TryWithResources"
  | block                         => "Block"
  | localVariableDeclaration      => "LocalVariableDeclaration"
  | matchValue                    => "Match"
  | caseLabel                     => "Case"
  | defaultCase                   => "DefaultCase"
  | switchGroup                   => "SwitchGroup"
  | switchBlock                   => "SwitchBlock"
  | catchClause                   => "CatchClause"
  | resource                      => "Resource"
  | variableDeclaratorId          => "VariableDeclaratorId"
  | variableDeclarator            => "VariableDeclarator"
  | receiverParameter             => "ReceiverParameter"
  | parameter                     => "Parameter"
  | variableArityParameter        => "VariableArityParameter"
  | formalParameters              => "FormalParameters"
  | emptyDeclaration              => "EmptyDeclaration"
  | fieldDeclaration              => "FieldDeclaration"
  | methodDeclaration             => "MethodDeclaration"
  | constructorDeclaration        => "ConstructorDeclaration"
  | compactConstructorDeclaration => "CompactConstructorDeclaration"
  | initializer                   => "Initializer"
  | classDeclaration              => "ClassDeclaration"
  | interfaceDeclaration          => "InterfaceDeclaration"
  | enumDeclaration               => "EnumDeclaration"
  | recordDeclaration             => "RecordDeclaration"
  | annotationDeclaration         => "AnnotationDeclaration"
  | annotationMethodDeclaration   => "AnnotationMethodDeclaration"
  | enumConstant                  => "EnumConstant"
  | recordComponent               => "RecordComponent"
  | packageDeclaration            => "PackageDeclaration"
  | importDeclaration             => "ImportDeclaration"
  | requiresDirective             => "RequiresDirective"
  | exportsDirective              => "ExportsDirective"
  | opensDirective                => "OpensDirective"
  | usesDirective                 => "UsesDirective"
  | providesDirective             => "ProvidesDirective"
  | moduleDeclaration             => "ModuleDeclaration"
  | ordinaryCompilationUnit       => "OrdinaryCompilationUnit"
  | modularCompilationUnit        => "ModularCompilationUnit"

/-- The category that nodes of a kind are made in, before they are chosen for another. -/
def category : Kind → Category
  | identifier                   => .identifier
  | qualifiedName                => .qualifiedName
  | literal                      => .literal
  | keywordModifier              => .modifier
  | annotationUse                => .annotationUse
  | elementValuePair             => .annotationElement
  | elementValueArrayInitializer => .elementValue
  | type                         => .type
  | coit                         => .coit
  | wildcardBound                => .wildcardBound
  | typeArguments                => .typeArguments
  | dim                          => .dim
  | typeParameter                => .typeParameter
  | typeBound                    => .typeBound
  | typeParameters               => .typeParameters
  | pattern                      => .pattern
  | guardedPattern               => .caseItem
  | binaryOperator               => .binaryOperator
  | unaryOperator                => .unaryOperator
  | postOperator                 => .postOperator
  | assignOperator               => .assignOperator
  | nameExpr | constant | thisExpr | superExpr | classExpr | lambda | assignment | ifExp
  | binOp | instanceOf | unaryOp | postOp | cast | newObject | newInnerObject | newArray
  | switchExp | call | member | arrayAccess | reference | explicitGenericInvocation => .expr
  | dimExpr                      => .dimExpr
  | arrayInitializer             => .arrayInitializer
  | switchExprRule               => .switchRule
  | emptyStmt | localTypeDeclaration | labeledStmt | expressionStmt | ifStmt | assertStmt
  | switchStmt | whileStmt | doWhileStmt | forStmt | forEachStmt | breakStmt
  | continueStmt | returnStmt | throwStmt | synchronizedStmt | yieldStmt | tryStmt
  | tryWithResources             => .stmt
  | block                        => .block
  | localVariableDeclaration     => .localVariables
  | matchValue                   => .caseValue
  | caseLabel | defaultCase => .switchLabel
  | switchGroup                  => .switchGroup
  | switchBlock                  => .switchBlock
  | catchClause                  => .catchClause
  | resource                     => .tryResource
  | variableDeclaratorId         => .variableDeclaratorId
  | variableDeclarator           => .variableDeclarator
  | receiverParameter            => .receiverParameter
  | parameter | variableArityParameter => .formalParameter
  | formalParameters             => .formalParameters
  | emptyDeclaration | fieldDeclaration | methodDeclaration | constructorDeclaration
  | compactConstructorDeclaration | initializer | classDeclaration | interfaceDeclaration
  | enumDeclaration | recordDeclaration | annotationDeclaration
  | annotationMethodDeclaration  => .decl
  | enumConstant                 => .enumConstant
  | recordComponent              => .recordComponent
  | packageDeclaration           => .packageDecl
  | importDeclaration            => .importDecl
  | requiresDirective | exportsDirective | opensDirective | usesDirective
  | providesDirective            => .directive
  | moduleDeclaration            => .moduleDecl
  | ordinaryCompilationUnit | modularCompilationUnit => .compilationUnit

/-- The kind with a given name. -/
def ofName? (name : String) : Option Kind :=
  all.find? (·.name == name)

end Kind

namespace Node

/-- The kind of a node; a choice is what was chosen, and lists and options have none. -/
def kind? : {c : Category} → Node c → Option Kind
  | _, .identifier ..             => some .identifier
  | _, .qualifiedName ..          => some .qualifiedName
  | _, .literal ..                => some .literal
  | _, .keywordModifier ..        => some .keywordModifier
  | _, .annotationUse ..          => some .annotationUse
  | _, .elementValuePair ..       => some .elementValuePair
  | _, .elementValueArray ..      => some .elementValueArrayInitializer
  | _, .wordType .. | _, .classType .. | _, .arrayType .. | _, .wildcardType .. => some .type
  | _, .coit ..                   => some .coit
  | _, .wildcardBound ..          => some .wildcardBound
  | _, .typeArguments ..          => some .typeArguments
  | _, .dim ..                    => some .dim
  | _, .typeParameter ..          => some .typeParameter
  | _, .typeBound ..              => some .typeBound
  | _, .typeParameters ..         => some .typeParameters
  | _, .pattern ..                => some .pattern
  | _, .guardedPattern ..         => some .guardedPattern
  | _, .binaryOperator ..         => some .binaryOperator
  | _, .unaryOperator ..          => some .unaryOperator
  | _, .postOperator ..           => some .postOperator
  | _, .assignOperator ..         => some .assignOperator
  | _, .name ..                   => some .nameExpr
  | _, .constant ..               => some .constant
  | _, .thisExpr ..               => some .thisExpr
  | _, .superExpr ..              => some .superExpr
  | _, .classExpr ..              => some .classExpr
  | _, .lambda ..                 => some .lambda
  | _, .assignment ..             => some .assignment
  | _, .conditional ..            => some .ifExp
  | _, .binary ..                 => some .binOp
  | _, .instanceOf ..             => some .instanceOf
  | _, .unary ..                  => some .unaryOp
  | _, .post ..                   => some .postOp
  | _, .cast ..                   => some .cast
  | _, .newObject ..              => some .newObject
  | _, .newInner ..               => some .newInnerObject
  | _, .newArray ..               => some .newArray
  | _, .switchExpr ..             => some .switchExp
  | _, .call ..                   => some .call
  | _, .member ..                 => some .member
  | _, .index ..                  => some .arrayAccess
  | _, .reference ..              => some .reference
  | _, .genericCall ..            => some .explicitGenericInvocation
  | _, .dimExpr ..                => some .dimExpr
  | _, .arrayInitializer ..       => some .arrayInitializer
  | _, .switchRule ..             => some .switchExprRule
  | _, .emptyStmt ..              => some .emptyStmt
  | _, .localTypeStmt ..          => some .localTypeDeclaration
  | _, .labeledStmt ..            => some .labeledStmt
  | _, .exprStmt ..               => some .expressionStmt
  | _, .ifStmt ..                 => some .ifStmt
  | _, .assertStmt ..             => some .assertStmt
  | _, .switchStmt ..             => some .switchStmt
  | _, .whileStmt ..              => some .whileStmt
  | _, .doWhileStmt ..            => some .doWhileStmt
  | _, .forStmt ..                => some .forStmt
  | _, .forEachStmt ..            => some .forEachStmt
  | _, .breakStmt ..              => some .breakStmt
  | _, .continueStmt ..           => some .continueStmt
  | _, .returnStmt ..             => some .returnStmt
  | _, .throwStmt ..              => some .throwStmt
  | _, .synchronizedStmt ..       => some .synchronizedStmt
  | _, .yieldStmt ..              => some .yieldStmt
  | _, .tryStmt ..                => some .tryStmt
  | _, .tryResourcesStmt ..       => some .tryWithResources
  | _, .block ..                  => some .block
  | _, .localVariables ..         => some .localVariableDeclaration
  | _, .matchValue ..             => some .matchValue
  | _, .caseLabel ..              => some .caseLabel
  | _, .defaultLabel ..           => some .defaultCase
  | _, .switchGroup ..            => some .switchGroup
  | _, .switchBlock ..            => some .switchBlock
  | _, .catchClause ..            => some .catchClause
  | _, .resource ..               => some .resource
  | _, .variableDeclaratorId ..   => some .variableDeclaratorId
  | _, .variableDeclarator ..     => some .variableDeclarator
  | _, .receiverParameter ..      => some .receiverParameter
  | _, .parameter ..              => some .parameter
  | _, .variableArityParameter .. => some .variableArityParameter
  | _, .formalParameters ..       => some .formalParameters
  | _, .emptyDecl ..              => some .emptyDeclaration
  | _, .fieldDecl ..              => some .fieldDeclaration
  | _, .methodDecl ..             => some .methodDeclaration
  | _, .constructorDecl ..        => some .constructorDeclaration
  | _, .compactConstructorDecl .. => some .compactConstructorDeclaration
  | _, .initializerDecl ..        => some .initializer
  | _, .classDecl ..              => some .classDeclaration
  | _, .interfaceDecl ..          => some .interfaceDeclaration
  | _, .enumDecl ..               => some .enumDeclaration
  | _, .recordDecl ..             => some .recordDeclaration
  | _, .annotationDecl ..         => some .annotationDeclaration
  | _, .elementDecl ..            => some .annotationMethodDeclaration
  | _, .enumConstant ..           => some .enumConstant
  | _, .recordComponent ..        => some .recordComponent
  | _, .packageDecl ..            => some .packageDeclaration
  | _, .importDecl ..             => some .importDeclaration
  | _, .requiresDirective ..      => some .requiresDirective
  | _, .exportsDirective ..       => some .exportsDirective
  | _, .opensDirective ..         => some .opensDirective
  | _, .usesDirective ..          => some .usesDirective
  | _, .providesDirective ..      => some .providesDirective
  | _, .moduleDecl ..             => some .moduleDeclaration
  | _, .ordinaryUnit ..           => some .ordinaryCompilationUnit
  | _, .modularUnit ..            => some .modularCompilationUnit
  | _, .annotationModifier n      => n.kind?
  | _, .valueElement n            => n.kind?
  | _, .exprValue n               => n.kind?
  | _, .annotationValue n         => n.kind?
  | _, .exprItem n                => n.kind?
  | _, .arrayInit n               => n.kind?
  | _, .singleParam n             => n.kind?
  | _, .formalParams n            => n.kind?
  | _, .exprBody n                => n.kind?
  | _, .blockBody n               => n.kind?
  | _, .typeTarget n              => n.kind?
  | _, .patternTarget n           => n.kind?
  | _, .exprReference n           => n.kind?
  | _, .typeReference n           => n.kind?
  | _, .blockStmt n               => n.kind?
  | _, .localVariableStmt n       => n.kind?
  | _, .exprCase n                => n.kind?
  | _, .variablesInit n           => n.kind?
  | _, .nameResource n            => n.kind?
  | _, _                          => none

/-- The name of what a node is, as closely as it can be named. -/
def kindName : {c : Category} → Node c → String
  | _, .literal _ value        => value.kindName
  | _, .wordType _ _ word      => word.name
  | _, .classType ..           => "ClassType"
  | _, .arrayType ..           => "ArrayType"
  | _, .wildcardType ..        => "Wildcard"
  | _, .keywordModifier _ word => word.name
  | _, .binaryOperator op      => op.name
  | _, .unaryOperator op       => op.name
  | _, .postOperator op        => op.name
  | _, .assignOperator op      => op.name
  | _, .annotationModifier n   => n.kindName
  | _, .valueElement n         => n.kindName
  | _, .exprValue n            => n.kindName
  | _, .annotationValue n      => n.kindName
  | _, .exprItem n             => n.kindName
  | _, .arrayInit n            => n.kindName
  | _, .singleParam n          => n.kindName
  | _, .formalParams n         => n.kindName
  | _, .exprBody n             => n.kindName
  | _, .blockBody n            => n.kindName
  | _, .typeTarget n           => n.kindName
  | _, .patternTarget n        => n.kindName
  | _, .exprReference n        => n.kindName
  | _, .typeReference n        => n.kindName
  | _, .blockStmt n            => n.kindName
  | _, .localVariableStmt n    => n.kindName
  | _, .exprCase n             => n.kindName
  | _, .variablesInit n        => n.kindName
  | _, .nameResource n         => n.kindName
  | _, n                       => (n.kind?.map Kind.name).getD ""

end Node

end JavaSource
