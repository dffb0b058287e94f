import JavaSource.Grammar.Production.Expressions

/-!
# Grammar — Production

The moves of every rule.
-/

namespace JavaSource.Grammar

/-- What a rule does. -/
def Rule.production : Rule → Move Unit
  | compilationUnit              => Production.compilationUnit
  | declarationStart             => Production.declarationStart
  | statementStart               => Production.statementStart
  | expressionStart              => Production.expressionStart
  | qualifiedName                => Production.qualifiedName
  | qualifiedNames               => Production.qualifiedNames
  | modifiers                    => Production.modifiers
  | annotations                  => Production.annotations
  | annotationUse                => Production.annotationUse
  | elementValuePair             => Production.elementValuePair
  | elementValue                 => Production.elementValue
  | type                         => Production.type
  | bareType                     => Production.bareType
  | resultType                   => Production.resultType
  | classType                    => Production.classType
  | coit                         => Production.coit
  | typeArguments                => Production.typeArguments
  | typeArgument                 => Production.typeArgument
  | dim                          => Production.dim
  | typeList                     => Production.typeList
  | typeParameters               => Production.typeParameters
  | typeParameter                => Production.typeParameter
  | typeBound                    => Production.typeBound
  | modifiedType                 => Production.modifiedType
  | packageDeclaration           => Production.packageDeclaration
  | importDeclaration            => Production.importDeclaration
  | moduleDeclaration            => Production.moduleDeclaration
  | moduleDirective              => Production.moduleDirective
  | classBodyDeclaration setting => Production.classBodyDeclaration setting
  | memberDeclaration setting    => Production.memberDeclaration setting
  | memberBody setting           => Production.memberBody setting
  | classBody setting            => Production.classBody setting
  | enumBody                     => Production.enumBody
  | enumConstant                 => Production.enumConstant
  | recordHeader                 => Production.recordHeader
  | recordComponent              => Production.recordComponent
  | formalParameters ofLambda    => Production.formalParameters ofLambda
  | formalParameter              => Production.formalParameter
  | variableDeclarators          => Production.variableDeclarators
  | variableDeclarator           => Production.variableDeclarator
  | variableDeclaratorId         => Production.variableDeclaratorId
  | variableInitializer          => Production.variableInitializer
  | arrayInitializer             => Production.arrayInitializer
  | block                        => Production.block
  | blockStatement               => Production.blockStatement
  | localVariableDeclaration     => Production.localVariableDeclaration
  | statement                    => Production.statement
  | expressionStatement          => Production.expressionStatement
  | forInit                      => Production.forInit
  | forUpdate                    => Production.forUpdate
  | finallyClause                => Production.finallyClause
  | resourceSpecification        => Production.resourceSpecification
  | resource                     => Production.resource
  | resourceVariable             => Production.resourceVariable
  | catchClause                  => Production.catchClause
  | catchType                    => Production.catchType
  | switchBlock                  => Production.switchBlock
  | switchEntry                  => Production.switchEntry
  | switchLabel                  => Production.switchLabel
  | caseItem                     => Production.caseItem
  | pattern                      => Production.pattern
  | expression                   => Production.expression
  | lambda                       => Production.lambda
  | lambdaParameters             => Production.lambdaParameters
  | ternary                      => Production.ternary
  | binary loosest               => Production.binary loosest
  | unary                        => Production.unary
  | castHead                     => Production.castHead
  | postfixed                    => Production.postfixed
  | primary                      => Production.primary
  | selected                     => Production.selected
  | methodCall                   => Production.methodCall
  | arguments                    => Production.arguments
  | superAccess                  => Production.superAccess
  | genericInvocation            => Production.genericInvocation
  | dimExpr                      => Production.dimExpr

end JavaSource.Grammar
