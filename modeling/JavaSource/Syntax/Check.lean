import JavaSource.Syntax.Kind
import JavaSource.Syntax.NodeError
import JavaSource.Syntax.Shared

/-!
# Syntax — Check

What a node must satisfy beyond its type.  `Node.flaw?` looks at one node and not below it; a
node is made with care by asking `Node.checked`.
-/

namespace JavaSource

/-- An error if a list has no element. -/
def Node.lacking? {c : Category} (node field : String) (ns : Nodes c) : Option NodeError :=
  if ns.isEmpty then some (.of node field .noElement) else none

/-- An error if a type is annotated. -/
def Node.annotated? (node : String) (ty : TypeNode) : Option NodeError :=
  if ty.typeAnnotations.isEmpty then none else some (.of node "ty" .annotatedType)

/-- What is wrong with a switch block: rules beside groups or labels. -/
def Node.mixture? : Node .switchBlock → Option NodeError
  | .switchBlock _ groups labels rules =>
    if !rules.isEmpty && (!groups.isEmpty || !labels.isEmpty) then
      some (.of "SwitchBlock" "rules" .mixedSwitch)
    else none

/-- What is wrong with the sizes and the initializer of a new array. -/
def Node.sizing? (exprDims : Nodes .dimExpr) (dims : Nodes .dim)
    (init : OptNode .arrayInitializer) : Option NodeError :=
  match init.isSome, exprDims.isEmpty with
  | true,  false => some (.of "NewArray" "init" .sizedInitializer)
  | false, true  => some (.of "NewArray" "expr_dims" .unsizedArray)
  | true,  true  => lacking? "NewArray" "dims" dims
  | false, false => none

/-- The first rule about its kind that a node breaks. -/
def Node.flaw? {c : Category} (n : Node c) : Option NodeError :=
  match c, n with
  | _, .qualifiedName _ ids          => lacking? "QualifiedName" "identifiers" ids
  | _, .classType _ _ coits          => lacking? "ClassType" "coits" coits
  | _, .arrayType _ _ _ dims         => lacking? "ArrayType" "dims" dims
  | _, .typeBound _ _ types          => lacking? "TypeBound" "types" types
  | _, .typeParameters _ ps          => lacking? "TypeParameters" "parameters" ps
  | _, .wildcardBound _ _ up down    =>
    if up == down then
      some (.of "WildcardBound" (if up then "super_" else "extends") .boundDirection)
    else none
  | _, .lambda _ (.formalParams (.formalParameters _ (.present _) _)) _ =>
    some (.of "Lambda" "params" .lambdaReceiver)
  | _, .newArray _ _ sized dims init => sizing? sized dims init
  | _, .reference _ _ _ id isNew     =>
    if id.isSome == isNew then
      some (.of "Reference" (if isNew then "new" else "id") .referenceName)
    else none
  | _, .localTypeStmt _ decl         =>
    if decl.isTypeDeclaration then none
    else some (.of "LocalTypeDeclaration" "decl" (.noTypeDeclaration decl.kindName))
  | _, .localVariables _ _ _ ds      => lacking? "LocalVariableDeclaration" "declarators" ds
  | _, .switchStmt _ _ body          => body.mixture?
  | _, .switchGroup _ labels body    =>
    lacking? "SwitchGroup" "labels" labels <|> lacking? "SwitchGroup" "statements" body
  | _, .catchClause _ _ names _ _    => lacking? "CatchClause" "exceptions" names
  | _, .tryStmt _ _ .nil .absent     => some (.of "Try" "catches" .unguardedTry)
  | _, .tryResourcesStmt _ rs ..     => lacking? "TryWithResources" "resources" rs
  | _, .fieldDecl _ _ ty ds          =>
    annotated? "FieldDeclaration" ty <|> lacking? "FieldDeclaration" "declarators" ds
  | _, .elementDecl _ _ ty _ _       => annotated? "AnnotationMethodDeclaration" ty
  | _, .providesDirective _ _ names  => lacking? "ProvidesDirective" "with" names
  | _, _                             => none

/-- Refuses a node that breaks a rule. -/
def Node.check {c : Category} (n : Node c) : Except NodeError Unit :=
  match n.flaw? with
  | some e => .error e
  | none   => .ok ()

/-- The node itself unless it breaks a rule. -/
def Node.checked {c : Category} (n : Node c) : Except NodeError (Node c) :=
  match n.flaw? with
  | some e => .error e
  | none   => .ok n

end JavaSource
