/-!
# Tree — Phrase

The kinds of phrase that the grammar tells apart; every inner node of a parse tree is one of
them.  Operators of one binding strength form one kind, and a kind for them only appears where
such an operator does.
-/

namespace JavaSource

/-- What an inner node of a parse tree is. -/
inductive Phrase where
  | compilationUnit | declarationStart | statementStart | expressionStart
  | qualifiedName | qualifiedNameList | modifiers | annotationUse | elementValuePair | elementValue
  | elementValueArrayInitializer
  | type | classType | coit | typeArguments | wildcard | dim | typeList | typeParameters
  | typeParameter | typeBound
  | packageDeclaration | importDeclaration | moduleDeclaration | requiresDirective
  | exportsDirective | opensDirective | usesDirective | providesDirective
  | memberDeclaration | emptyDeclaration | initializer | classDeclaration | interfaceDeclaration
  | enumDeclaration | recordDeclaration | annotationTypeDeclaration | classBody | enumBody
  | enumConstant | recordHeader | recordComponent | fieldDeclaration | methodDeclaration
  | constructorDeclaration | compactConstructorDeclaration | annotationMethodDeclaration
  | formalParameters | formalParameter | variableArityParameter | receiverParameter
  | variableDeclarators | variableDeclarator | variableDeclaratorId | arrayInitializer
  | block | localVariableDeclaration | localVariableDeclarationStatement | localTypeDeclaration
  | emptyStatement | labeledStatement | expressionStatement | ifStatement | assertStatement
  | switchStatement | whileStatement | doStatement | forStatement | forInit | forUpdate
  | enhancedForStatement | breakStatement | continueStatement | returnStatement | throwStatement
  | synchronizedStatement | tryStatement | tryWithResourcesStatement | resourceSpecification
  | resource | catchClause | catchType | finallyClause | yieldStatement | switchBlock
  | switchGroup | switchRule | switchLabel | pattern | guardedPattern
  | lambda | lambdaParameters | assignment | ternary | conditionalOr | conditionalAnd
  | inclusiveOr | exclusiveOr | bitAnd | equality | relational | instanceOf | shift | additive
  | multiplicative | cast | prefixed | postfixed
  | parenthesized | literal | plainName | thisWord | superWord | superAccess | methodCall
  | arguments | memberAccess | arrayAccess | classLiteral | methodReference | objectCreation
  | innerCreation | arrayCreation | dimExpr | switchExpression | explicitGenericInvocation
  deriving DecidableEq, Repr, Inhabited

/-- The name of a kind of phrase. -/
def Phrase.name : Phrase → String
  | .compilationUnit                   => "CompilationUnit"
  | .declarationStart                  => "DeclarationStart"
  | .statementStart                    => "StatementStart"
  | .expressionStart                   => "ExpressionStart"
  | .qualifiedName                     => "QualifiedName"
  | .qualifiedNameList                 => "QualifiedNameList"
  | .modifiers                         => "Modifiers"
  | .annotationUse                     => "Annotation"
  | .elementValuePair                  => "ElementValuePair"
  | .elementValue                      => "ElementValue"
  | .elementValueArrayInitializer      => "ElementValueArrayInitializer"
  | .type                              => "Type"
  | .classType                         => "ClassType"
  | .coit                              => "Coit"
  | .typeArguments                     => "TypeArguments"
  | .wildcard                          => "Wildcard"
  | .dim                               => "Dim"
  | .typeList                          => "TypeList"
  | .typeParameters                    => "TypeParameters"
  | .typeParameter                     => "TypeParameter"
  | .typeBound                         => "TypeBound"
  | .packageDeclaration                => "PackageDeclaration"
  | .importDeclaration                 => "ImportDeclaration"
  | .moduleDeclaration                 => "ModuleDeclaration"
  | .requiresDirective                 => "RequiresDirective"
  | .exportsDirective                  => "ExportsDirective"
  | .opensDirective                    => "OpensDirective"
  | .usesDirective                     => "UsesDirective"
  | .providesDirective                 => "ProvidesDirective"
  | .memberDeclaration                 => "MemberDeclaration"
  | .emptyDeclaration                  => "EmptyDeclaration"
  | .initializer                       => "Initializer"
  | .classDeclaration                  => "ClassDeclaration"
  | .interfaceDeclaration              => "InterfaceDeclaration"
  | .enumDeclaration                   => "EnumDeclaration"
  | .recordDeclaration                 => "RecordDeclaration"
  | .annotationTypeDeclaration         => "AnnotationTypeDeclaration"
  | .classBody                         => "ClassBody"
  | .enumBody                          => "EnumBody"
  | .enumConstant                      => "EnumConstant"
  | .recordHeader                      => "RecordHeader"
  | .recordComponent                   => "RecordComponent"
  | .fieldDeclaration                  => "FieldDeclaration"
  | .methodDeclaration                 => "MethodDeclaration"
  | .constructorDeclaration            => "ConstructorDeclaration"
  | .compactConstructorDeclaration     => "CompactConstructorDeclaration"
  | .annotationMethodDeclaration       => "AnnotationMethodDeclaration"
  | .formalParameters                  => "FormalParameters"
  | .formalParameter                   => "FormalParameter"
  | .variableArityParameter            => "VariableArityParameter"
  | .receiverParameter                 => "ReceiverParameter"
  | .variableDeclarators               => "VariableDeclarators"
  | .variableDeclarator                => "VariableDeclarator"
  | .variableDeclaratorId              => "VariableDeclaratorId"
  | .arrayInitializer                  => "ArrayInitializer"
  | .block                             => "Block"
  | .localVariableDeclaration          => "LocalVariableDeclaration"
  | .localVariableDeclarationStatement => "LocalVariableDeclarationStatement"
  | .localTypeDeclaration              => "LocalTypeDeclaration"
  | .emptyStatement                    => "EmptyStatement"
  | .labeledStatement                  => "LabeledStatement"
  | .expressionStatement               => "ExpressionStatement"
  | .ifStatement                       => "IfStatement"
  | .assertStatement                   => "AssertStatement"
  | .switchStatement                   => "SwitchStatement"
  | .whileStatement                    => "WhileStatement"
  | .doStatement                       => "DoStatement"
  | .forStatement                      => "ForStatement"
  | .forInit                           => "ForInit"
  | .forUpdate                         => "ForUpdate"
  | .enhancedForStatement              => "EnhancedForStatement"
  | .breakStatement                    => "BreakStatement"
  | .continueStatement                 => "ContinueStatement"
  | .returnStatement                   => "ReturnStatement"
  | .throwStatement                    => "ThrowStatement"
  | .synchronizedStatement             => "SynchronizedStatement"
  | .tryStatement                      => "TryStatement"
  | .tryWithResourcesStatement         => "TryWithResourcesStatement"
  | .resourceSpecification             => "ResourceSpecification"
  | .resource                          => "Resource"
  | .catchClause                       => "CatchClause"
  | .catchType                         => "CatchType"
  | .finallyClause                     => "Finally"
  | .yieldStatement                    => "YieldStatement"
  | .switchBlock                       => "SwitchBlock"
  | .switchGroup                       => "SwitchGroup"
  | .switchRule                        => "SwitchRule"
  | .switchLabel                       => "SwitchLabel"
  | .pattern                           => "Pattern"
  | .guardedPattern                    => "GuardedPattern"
  | .lambda                            => "Lambda"
  | .lambdaParameters                  => "LambdaParameters"
  | .assignment                        => "Assignment"
  | .ternary                           => "Ternary"
  | .conditionalOr                     => "ConditionalOr"
  | .conditionalAnd                    => "ConditionalAnd"
  | .inclusiveOr                       => "InclusiveOr"
  | .exclusiveOr                       => "ExclusiveOr"
  | .bitAnd                            => "And"
  | .equality                          => "Equality"
  | .relational                        => "Relational"
  | .instanceOf                        => "InstanceOf"
  | .shift                             => "Shift"
  | .additive                          => "Additive"
  | .multiplicative                    => "Multiplicative"
  | .cast                              => "Cast"
  | .prefixed                          => "Prefix"
  | .postfixed                         => "Postfix"
  | .parenthesized                     => "Parenthesized"
  | .literal                           => "Literal"
  | .plainName                         => "Name"
  | .thisWord                          => "This"
  | .superWord                         => "Super"
  | .superAccess                       => "SuperAccess"
  | .methodCall                        => "MethodCall"
  | .arguments                         => "Arguments"
  | .memberAccess                      => "MemberAccess"
  | .arrayAccess                       => "ArrayAccess"
  | .classLiteral                      => "ClassLiteral"
  | .methodReference                   => "MethodReference"
  | .objectCreation                    => "ObjectCreation"
  | .innerCreation                     => "InnerCreation"
  | .arrayCreation                     => "ArrayCreation"
  | .dimExpr                           => "DimExpr"
  | .switchExpression                  => "SwitchExpression"
  | .explicitGenericInvocation         => "ExplicitGenericInvocation"

end JavaSource
