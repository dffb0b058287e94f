import JavaSource.Reading.Declarations

/-!
# Reading — Reader

A parse tree is read from its leaves up: every part knows what it can be read as, and an opened
tree is read by the rule for its goal.  `Tree.readWhole` reads a tree as whatever it is.
-/

namespace JavaSource

/-- What an opened tree is as some goal. -/
def Opened.read (o : Opened) : {c : Category} → Goal c → Reading c
  | _, .qualifiedName        => o.qualifiedName
  | _, .qualifiedNames       => o.readAll .qualifiedName .qualifiedName
  | _, .modifiers            => o.modifierList
  | _, .annotationUse        => o.annotationUse
  | _, .annotationElement    => o.annotationElement
  | _, .elementValue         => o.elementValue
  | _, .elementValueArray    => o.elementValueArray
  | _, .type                 => o.type
  | _, .classType            => o.classType
  | _, .typeArgument         => o.typeArgument
  | _, .types                => o.types
  | _, .coit                 => o.coit
  | _, .typeArguments        => o.typeArguments
  | _, .dim                  => o.dim
  | _, .typeParameter        => o.typeParameter
  | _, .typeParameters       => o.typeParameters
  | _, .typeBound            => o.typeBound
  | _, .pattern              => o.pattern
  | _, .expr                 => o.expr
  | _, .exprs                => Part.readAll .expr o.phrases
  | _, .lambdaParams         => o.lambdaParams
  | _, .dimExpr              => o.dimExpr
  | _, .arrayInitializer     => o.arrayInitializer
  | _, .caseItem             => o.caseItem o.expr
  | _, .caseItems            => Part.readAll .caseItem o.phrases
  | _, .conditions           =>
    if o.tree.phrase? == some .conditionalAnd then o.conditions
    else (.cons · .nil) <$> o.expr
  | _, .switchRules          => o.switchRules
  | _, .stmt                 => o.stmt
  | _, .block                => o.block
  | _, .localVariables       => o.localVariables
  | _, .forInit              => o.forInit
  | _, .catchClause          => o.catchClause
  | _, .tryResource          => o.tryResource
  | _, .switchBlock          => o.switchBlock
  | _, .decl                 => o.decl
  | _, .decls                => Part.readAll .decl o.phrases
  | _, .member               => o.member
  | _, .enumConstant         => o.enumConstant
  | _, .recordComponent      => o.recordComponent
  | _, .variableDeclarator   => o.variableDeclarator
  | _, .variableDeclarators  => o.readAll .variableDeclarator .variableDeclarator
  | _, .variableDeclaratorId => o.variableDeclaratorId
  | _, .receiverParameter    => o.receiverParameter
  | _, .formalParameter      => o.formalParameter
  | _, .formalParameters     => o.formalParameters
  | _, .packageDecl          => o.packageDecl
  | _, .importDecl           => o.importDecl
  | _, .directive            => o.directive
  | _, .moduleDecl           => o.moduleDecl
  | _, .compilationUnit      => o.compilationUnit

mutual

/-- A tree with what it can be read as. -/
def Part.ofTree : Tree → Part
  | .leaf t        => .mk (.leaf t) [] (Opened.read ⟨.leaf t, []⟩)
  | .node k ps a b =>
    let parts := ofTrees ps
    .mk (.node k ps a b) parts (Opened.read ⟨.node k ps a b, parts⟩)

/-- Trees with what they can be read as. -/
def Part.ofTrees : List Tree → List Part
  | []      => []
  | t :: ts => ofTree t :: ofTrees ts

end

namespace Tree

/-- A tree read as something. -/
def read {c : Category} (t : Tree) (goal : Goal c) : Reading c := (Part.ofTree t).read goal

/-- A tree read as something of any category. -/
def readAny {c : Category} (t : Tree) (goal : Goal c) : Except NodeError AnyNode :=
  (⟨c, ·⟩) <$> t.read goal

/-- Whether a phrase is a statement. -/
def isStatement : Phrase → Bool
  | .block | .localVariableDeclarationStatement | .localVariableDeclaration
  | .localTypeDeclaration | .emptyStatement | .labeledStatement | .expressionStatement
  | .ifStatement | .assertStatement | .switchStatement | .whileStatement | .doStatement
  | .forStatement | .enhancedForStatement | .breakStatement | .continueStatement
  | .returnStatement | .throwStatement | .synchronizedStatement | .tryStatement
  | .tryWithResourcesStatement | .yieldStatement => true
  | _ => false

/-- A tree read as what is declared in it. -/
def readDeclared (t : Tree) : Except NodeError AnyNode :=
  match t.phrase? with
  | some .packageDeclaration => t.readAny .packageDecl
  | some .importDeclaration  => t.readAny .importDecl
  | some .moduleDeclaration  => t.readAny .moduleDecl
  | _                        => t.readAny .decl

/-- The first phrase of a tree, read by a rule. -/
def readOnly (t : Tree) (rule : Tree → Except NodeError AnyNode) : Except NodeError AnyNode :=
  match t.phrases.head? with
  | some inner => rule inner
  | none       => .error (t.error (.expected "at least 1 child rules"))

/-- What a tree is: a compilation unit, a declaration, a statement or an expression, also under
the phrase that stands for a whole source. -/
def readWhole (t : Tree) : Except NodeError AnyNode :=
  match t.phrase? with
  | some .compilationUnit  => t.readAny .compilationUnit
  | some .declarationStart => t.readOnly readDeclared
  | some .statementStart   => t.readOnly (·.readAny .stmt)
  | some .expressionStart  => t.readOnly (·.readAny .expr)
  | some .packageDeclaration | some .importDeclaration | some .moduleDeclaration
  | some .memberDeclaration | some .emptyDeclaration | some .initializer => t.readDeclared
  | some kind => if isStatement kind then t.readAny .stmt else t.readAny .expr
  | none      => t.readAny .expr

end Tree

end JavaSource
