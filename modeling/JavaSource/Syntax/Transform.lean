import JavaSource.Syntax.Check

/-!
# Syntax — Transform

Changing trees.  A transformer has a say at every node: it may keep it, put another in its place,
delete it, or put several in its place.  It is called on a node before its parts; whether and when
the parts are changed is its choice.  Expressions, statements and declarations are seen twice,
first as members of their family and then as nodes of their kind.

A node whose parts change is made anew from them, and then lists that need an element must still
have one.
-/

namespace JavaSource

/-- What becomes of a node. -/
inductive Change (c : Category) where
  | keep
  | replace (node : Node c)
  | delete
  /-- Several nodes in place of one. -/
  | splice (nodes : Nodes c)

namespace Change

variable {c d : Category}

/-- What becomes of a node of another category that holds the node. -/
def lift (f : Node c → Node d) : Change c → Change d
  | keep      => keep
  | replace n => replace (f n)
  | delete    => delete
  | splice ns => splice (.ofList (ns.toList.map f))

/-- What stands in a list where the node stood. -/
def elements (old : Node c) : Change c → Nodes c
  | keep      => .cons old .nil
  | replace n => .cons n .nil
  | delete    => .nil
  | splice ns => ns

/-- What becomes of a place that may stay empty. -/
def optional : Change c → Change (.opt c)
  | keep      => keep
  | replace n => replace (.present n)
  | delete    => replace .absent
  | splice ns => splice (.ofList (ns.toList.map .present))

/-- What becomes of a list, from what becomes of its head and of its tail. -/
def list (oldHead : Node c) (oldTail : Nodes c) : Change c → Change (.list c) → Change (.list c)
  | keep, keep         => keep
  | head, replace tail => replace ((head.elements oldHead).append tail)
  | head, _            => replace ((head.elements oldHead).append oldTail)

end Change

/-- What has a say in what becomes of nodes.  Each hook gets a node and the change of what is in
it, which it may carry out or leave. -/
structure Transformer (m : Type → Type) where
  /-- Called on every expression, statement and declaration. -/
  family : {c : Category} → Node c → m (Change c) → m (Change c)
  /-- Called on every node. -/
  kind : {c : Category} → Node c → m (Change c) → m (Change c)

namespace Transformer

variable {m : Type → Type} [Monad m] [MonadExceptOf NodeError m] {c : Category}

/-- Both hooks on a node of a family. -/
def member (t : Transformer m) (n : Node c) (inner : m (Change c)) : m (Change c) :=
  t.family n (t.kind n inner)

/-- A node made anew from its parts, if any of them changed. -/
def rebuilt (work : StateT Bool m (Node c)) : m (Change c) := do
  let (n, changed) ← work.run false
  return if changed then .replace n else .keep

/-- A part of a node.  It cannot be deleted, nor can several nodes take its place. -/
def part (node field : String) (old : Node c) (inner : m (Change c)) :
    StateT Bool m (Node c) := do
  match ← inner with
  | .keep      => return old
  | .replace n => set true; return n
  | .delete    => throw (NodeError.of node field .removed)
  | .splice _  => throw (NodeError.of node field .several)

/-- Parts of a node of which one has to be left. -/
def parts (node field : String) (old : Nodes c) (inner : m (Change (.list c))) :
    StateT Bool m (Nodes c) := do
  let ns ← part node field old inner
  if ns.isEmpty then throw (NodeError.of node field .noElement) else return ns

/-- A node made anew, if it breaks no rule. -/
def recheck (n : Node c) : StateT Bool m (Node c) :=
  match n.flaw? with
  | some e => throw e
  | none   => return n

/-- What becomes of a node. -/
def change (t : Transformer m) : {c : Category} → Node c → m (Change c)
  | _, .nil => pure .keep
  | _, .cons head tail => do
    let h ← change t head
    return h.list head tail (← change t tail)
  | _, .absent => pure .keep
  | _, .present value => Change.optional <$> change t value
  -- names and literals
  | _, .identifier span qname => t.kind (.identifier span qname) (pure .keep)
  | _, .qualifiedName span ids =>
    t.kind (.qualifiedName span ids) <| rebuilt do
      return .qualifiedName span (← parts "QualifiedName" "identifiers" ids (change t ids))
  | _, .literal span value => t.kind (.literal span value) (pure .keep)
  -- modifiers and annotations
  | _, .keywordModifier span word => t.kind (.keywordModifier span word) (pure .keep)
  | _, .annotationModifier inner => .lift .annotationModifier <$> change t inner
  | _, .annotationUse span qname elements =>
    t.kind (.annotationUse span qname elements) <| rebuilt do
      return .annotationUse span (← part "Annotation" "name" qname (change t qname))
        (← part "Annotation" "elements" elements (change t elements))
  | _, .elementValuePair span id value =>
    t.kind (.elementValuePair span id value) <| rebuilt do
      return .elementValuePair span (← part "ElementValuePair" "id" id (change t id))
        (← part "ElementValuePair" "value" value (change t value))
  | _, .valueElement inner => .lift .valueElement <$> change t inner
  | _, .exprValue inner => .lift .exprValue <$> change t inner
  | _, .annotationValue inner => .lift .annotationValue <$> change t inner
  | _, .elementValueArray span values =>
    t.kind (.elementValueArray span values) <| rebuilt do
      return .elementValueArray span
        (← part "ElementValueArrayInitializer" "values" values (change t values))
  -- types and patterns
  | _, .wordType span anns word =>
    t.kind (.wordType span anns word) <| rebuilt do
      return .wordType span (← part "Type" "annotations" anns (change t anns)) word
  | _, .classType span anns coits =>
    t.kind (.classType span anns coits) <| rebuilt do
      return .classType span (← part "ClassType" "annotations" anns (change t anns))
        (← parts "ClassType" "coits" coits (change t coits))
  | _, .arrayType span anns elem dims =>
    t.kind (.arrayType span anns elem dims) <| rebuilt do
      return .arrayType span (← part "ArrayType" "annotations" anns (change t anns))
        (← part "ArrayType" "elem" elem (change t elem))
        (← parts "ArrayType" "dims" dims (change t dims))
  | _, .wildcardType span anns bound =>
    t.kind (.wildcardType span anns bound) <| rebuilt do
      return .wildcardType span (← part "Wildcard" "annotations" anns (change t anns))
        (← part "Wildcard" "bound" bound (change t bound))
  | _, .coit span anns id targs =>
    t.kind (.coit span anns id targs) <| rebuilt do
      return .coit span (← part "Coit" "annotations" anns (change t anns))
        (← part "Coit" "id" id (change t id)) (← part "Coit" "type_args" targs (change t targs))
  | _, .wildcardBound span ty isExtends isSuper =>
    t.kind (.wildcardBound span ty isExtends isSuper) <| rebuilt do
      return .wildcardBound span (← part "WildcardBound" "ty" ty (change t ty)) isExtends isSuper
  | _, .typeArguments span types =>
    t.kind (.typeArguments span types) <| rebuilt do
      if types.isEmpty then return .typeArguments span types
      else return .typeArguments span (← parts "TypeArguments" "types" types (change t types))
  | _, .dim span anns =>
    t.kind (.dim span anns) <| rebuilt do
      return .dim span (← part "Dim" "annotations" anns (change t anns))
  | _, .typeParameter span anns id bound =>
    t.kind (.typeParameter span anns id bound) <| rebuilt do
      return .typeParameter span (← part "TypeParameter" "annotations" anns (change t anns))
        (← part "TypeParameter" "id" id (change t id))
        (← part "TypeParameter" "bound" bound (change t bound))
  | _, .typeBound span anns types =>
    t.kind (.typeBound span anns types) <| rebuilt do
      return .typeBound span (← part "TypeBound" "annotations" anns (change t anns))
        (← parts "TypeBound" "types" types (change t types))
  | _, .typeParameters span parameters =>
    t.kind (.typeParameters span parameters) <| rebuilt do
      return .typeParameters span
        (← parts "TypeParameters" "parameters" parameters (change t parameters))
  | _, .pattern span mods ty anns id =>
    t.kind (.pattern span mods ty anns id) <| rebuilt do
      return .pattern span (← part "Pattern" "modifiers" mods (change t mods))
        (← part "Pattern" "ty" ty (change t ty))
        (← part "Pattern" "annotations" anns (change t anns))
        (← part "Pattern" "id" id (change t id))
  | _, .guardedPattern span pat conditions =>
    t.kind (.guardedPattern span pat conditions) <| rebuilt do
      return .guardedPattern span (← part "GuardedPattern" "pattern" pat (change t pat))
        (← part "GuardedPattern" "conditions" conditions (change t conditions))
  | _, .exprItem inner => .lift .exprItem <$> change t inner
  -- operators
  | _, .binaryOperator op => t.kind (.binaryOperator op) (pure .keep)
  | _, .unaryOperator op => t.kind (.unaryOperator op) (pure .keep)
  | _, .postOperator op => t.kind (.postOperator op) (pure .keep)
  | _, .assignOperator op => t.kind (.assignOperator op) (pure .keep)
  -- expressions
  | _, .name span id =>
    t.member (.name span id) <| rebuilt do
      return .name span (← part "Name" "id" id (change t id))
  | _, .constant span value =>
    t.member (.constant span value) <| rebuilt do
      return .constant span (← part "Constant" "literal" value (change t value))
  | _, .thisExpr span args =>
    t.member (.thisExpr span args) <| rebuilt do
      return .thisExpr span (← part "This" "args" args (change t args))
  | _, .superExpr span targs id args =>
    t.member (.superExpr span targs id args) <| rebuilt do
      return .superExpr span (← part "Super" "type_args" targs (change t targs))
        (← part "Super" "id" id (change t id)) (← part "Super" "args" args (change t args))
  | _, .classExpr span ty =>
    t.member (.classExpr span ty) <| rebuilt do
      return .classExpr span (← part "ClassExpr" "ty" ty (change t ty))
  | _, .lambda span params body =>
    t.member (.lambda span params body) <| rebuilt do
      return .lambda span (← part "Lambda" "params" params (change t params))
        (← part "Lambda" "body" body (change t body))
  | _, .assignment span target op value =>
    t.member (.assignment span target op value) <| rebuilt do
      return .assignment span (← part "Assignment" "target" target (change t target))
        (← part "Assignment" "op" op (change t op))
        (← part "Assignment" "value" value (change t value))
  | _, .conditional span test body orelse =>
    t.member (.conditional span test body orelse) <| rebuilt do
      return .conditional span (← part "IfExp" "test" test (change t test))
        (← part "IfExp" "body" body (change t body))
        (← part "IfExp" "orelse" orelse (change t orelse))
  | _, .binary span left op right =>
    t.member (.binary span left op right) <| rebuilt do
      return .binary span (← part "BinOp" "left" left (change t left))
        (← part "BinOp" "op" op (change t op)) (← part "BinOp" "right" right (change t right))
  | _, .instanceOf span value target =>
    t.member (.instanceOf span value target) <| rebuilt do
      return .instanceOf span (← part "InstanceOf" "value" value (change t value))
        (← part "InstanceOf" "target" target (change t target))
  | _, .unary span op operand =>
    t.member (.unary span op operand) <| rebuilt do
      return .unary span (← part "UnaryOp" "op" op (change t op))
        (← part "UnaryOp" "operand" operand (change t operand))
  | _, .post span operand op =>
    t.member (.post span operand op) <| rebuilt do
      return .post span (← part "PostOp" "operand" operand (change t operand))
        (← part "PostOp" "op" op (change t op))
  | _, .cast span anns ty value =>
    t.member (.cast span anns ty value) <| rebuilt do
      return .cast span (← part "Cast" "annotations" anns (change t anns))
        (← part "Cast" "ty" ty (change t ty)) (← part "Cast" "value" value (change t value))
  | _, .newObject span targs ty args body =>
    t.member (.newObject span targs ty args body) <| rebuilt do
      return .newObject span (← part "NewObject" "type_args" targs (change t targs))
        (← part "NewObject" "ty" ty (change t ty)) (← part "NewObject" "args" args (change t args))
        (← part "NewObject" "body" body (change t body))
  | _, .newInner span targs id ctargs args body =>
    t.member (.newInner span targs id ctargs args body) <| rebuilt do
      return .newInner span (← part "NewInnerObject" "type_args" targs (change t targs))
        (← part "NewInnerObject" "id" id (change t id))
        (← part "NewInnerObject" "class_type_args" ctargs (change t ctargs))
        (← part "NewInnerObject" "args" args (change t args))
        (← part "NewInnerObject" "body" body (change t body))
  | _, .newArray span ty exprDims dims init =>
    t.member (.newArray span ty exprDims dims init) <| rebuilt do
      return .newArray span (← part "NewArray" "ty" ty (change t ty))
        (← part "NewArray" "expr_dims" exprDims (change t exprDims))
        (← part "NewArray" "dims" dims (change t dims))
        (← part "NewArray" "init" init (change t init))
  | _, .switchExpr span value rules =>
    t.member (.switchExpr span value rules) <| rebuilt do
      return .switchExpr span (← part "SwitchExp" "value" value (change t value))
        (← part "SwitchExp" "rules" rules (change t rules))
  | _, .call span func args =>
    t.member (.call span func args) <| rebuilt do
      return .call span (← part "Call" "func" func (change t func))
        (← part "Call" "args" args (change t args))
  | _, .member span receiver mem =>
    t.member (.member span receiver mem) <| rebuilt do
      return .member span (← part "Member" "receiver" receiver (change t receiver))
        (← part "Member" "member" mem (change t mem))
  | _, .index span receiver idx =>
    t.member (.index span receiver idx) <| rebuilt do
      return .index span (← part "ArrayAccess" "receiver" receiver (change t receiver))
        (← part "ArrayAccess" "index" idx (change t idx))
  | _, .reference span target targs id isNew =>
    t.member (.reference span target targs id isNew) <| rebuilt do
      return .reference span (← part "Reference" "target" target (change t target))
        (← part "Reference" "type_args" targs (change t targs))
        (← part "Reference" "id" id (change t id)) isNew
  | _, .genericCall span targs value =>
    t.member (.genericCall span targs value) <| rebuilt do
      return .genericCall span
        (← part "ExplicitGenericInvocation" "type_args" targs (change t targs))
        (← part "ExplicitGenericInvocation" "value" value (change t value))
  | _, .arrayInit inner => t.family (.arrayInit inner) (.lift .arrayInit <$> change t inner)
  -- parts of expressions
  | _, .singleParam inner => .lift .singleParam <$> change t inner
  | _, .nameParams inner => .lift .nameParams <$> change t inner
  | _, .formalParams inner => .lift .formalParams <$> change t inner
  | _, .exprBody inner => .lift .exprBody <$> change t inner
  | _, .blockBody inner => .lift .blockBody <$> change t inner
  | _, .typeTarget inner => .lift .typeTarget <$> change t inner
  | _, .patternTarget inner => .lift .patternTarget <$> change t inner
  | _, .dimExpr span anns expr =>
    t.kind (.dimExpr span anns expr) <| rebuilt do
      return .dimExpr span (← part "DimExpr" "annotations" anns (change t anns))
        (← part "DimExpr" "expr" expr (change t expr))
  | _, .arrayInitializer span values =>
    t.kind (.arrayInitializer span values) <| rebuilt do
      return .arrayInitializer span (← part "ArrayInitializer" "values" values (change t values))
  | _, .switchRule span isDefault cases isArrow body =>
    t.kind (.switchRule span isDefault cases isArrow body) <| rebuilt do
      return .switchRule span isDefault (← part "SwitchExprRule" "cases" cases (change t cases))
        isArrow (← part "SwitchExprRule" "body" body (change t body))
  | _, .exprReference inner => .lift .exprReference <$> change t inner
  | _, .typeReference inner => .lift .typeReference <$> change t inner
  -- statements
  | _, .emptyStmt span => t.member (.emptyStmt span) (pure .keep)
  | _, .blockStmt inner => t.family (.blockStmt inner) (.lift .blockStmt <$> change t inner)
  | _, .localTypeStmt span decl =>
    t.member (.localTypeStmt span decl) <| rebuilt do
      return .localTypeStmt span (← part "LocalTypeDeclaration" "decl" decl (change t decl))
  | _, .localVariableStmt inner =>
    t.family (.localVariableStmt inner) (.lift .localVariableStmt <$> change t inner)
  | _, .labeledStmt span label body =>
    t.member (.labeledStmt span label body) <| rebuilt do
      return .labeledStmt span (← part "Labeled" "label" label (change t label))
        (← part "Labeled" "body" body (change t body))
  | _, .exprStmt span value =>
    t.member (.exprStmt span value) <| rebuilt do
      return .exprStmt span (← part "ExpressionStmt" "value" value (change t value))
  | _, .ifStmt span test body orelse =>
    t.member (.ifStmt span test body orelse) <| rebuilt do
      return .ifStmt span (← part "If" "test" test (change t test))
        (← part "If" "body" body (change t body)) (← part "If" "orelse" orelse (change t orelse))
  | _, .assertStmt span test msg =>
    t.member (.assertStmt span test msg) <| rebuilt do
      return .assertStmt span (← part "Assert" "test" test (change t test))
        (← part "Assert" "msg" msg (change t msg))
  | _, .switchStmt span value body =>
    t.member (.switchStmt span value body) <| rebuilt do
      return .switchStmt span (← part "Switch" "value" value (change t value))
        (← part "Switch" "body" body (change t body))
  | _, .whileStmt span test body =>
    t.member (.whileStmt span test body) <| rebuilt do
      return .whileStmt span (← part "While" "test" test (change t test))
        (← part "While" "body" body (change t body))
  | _, .doWhileStmt span body test =>
    t.member (.doWhileStmt span body test) <| rebuilt do
      return .doWhileStmt span (← part "DoWhile" "body" body (change t body))
        (← part "DoWhile" "test" test (change t test))
  | _, .forStmt span init test update body =>
    t.member (.forStmt span init test update body) <| rebuilt do
      return .forStmt span (← part "For" "init" init (change t init))
        (← part "For" "test" test (change t test)) (← part "For" "update" update (change t update))
        (← part "For" "body" body (change t body))
  | _, .forEachStmt span mods ty id iter body =>
    t.member (.forEachStmt span mods ty id iter body) <| rebuilt do
      return .forEachStmt span (← part "ForEach" "modifiers" mods (change t mods))
        (← part "ForEach" "ty" ty (change t ty)) (← part "ForEach" "id" id (change t id))
        (← part "ForEach" "iter" iter (change t iter))
        (← part "ForEach" "body" body (change t body))
  | _, .breakStmt span label =>
    t.member (.breakStmt span label) <| rebuilt do
      return .breakStmt span (← part "Break" "label" label (change t label))
  | _, .continueStmt span label =>
    t.member (.continueStmt span label) <| rebuilt do
      return .continueStmt span (← part "Continue" "label" label (change t label))
  | _, .returnStmt span value =>
    t.member (.returnStmt span value) <| rebuilt do
      return .returnStmt span (← part "Return" "value" value (change t value))
  | _, .throwStmt span exc =>
    t.member (.throwStmt span exc) <| rebuilt do
      return .throwStmt span (← part "Throw" "exc" exc (change t exc))
  | _, .synchronizedStmt span lock body =>
    t.member (.synchronizedStmt span lock body) <| rebuilt do
      return .synchronizedStmt span (← part "Synchronized" "lock" lock (change t lock))
        (← part "Synchronized" "body" body (change t body))
  | _, .yieldStmt span value =>
    t.member (.yieldStmt span value) <| rebuilt do
      return .yieldStmt span (← part "Yield" "value" value (change t value))
  | _, .tryStmt span body catches fin =>
    t.member (.tryStmt span body catches fin) <| rebuilt do
      let n := Node.tryStmt span (← part "Try" "body" body (change t body))
        (← part "Try" "catches" catches (change t catches))
        (← part "Try" "finally" fin (change t fin))
      recheck n
  | _, .tryResourcesStmt span resources body catches fin =>
    t.member (.tryResourcesStmt span resources body catches fin) <| rebuilt do
      return .tryResourcesStmt span
        (← parts "TryWithResources" "resources" resources (change t resources))
        (← part "TryWithResources" "body" body (change t body))
        (← part "TryWithResources" "catches" catches (change t catches))
        (← part "TryWithResources" "finally" fin (change t fin))
  -- parts of statements
  | _, .block span body =>
    t.kind (.block span body) <| rebuilt do
      return .block span (← part "Block" "body" body (change t body))
  | _, .localVariables span mods ty decls =>
    t.kind (.localVariables span mods ty decls) <| rebuilt do
      return .localVariables span
        (← part "LocalVariableDeclaration" "modifiers" mods (change t mods))
        (← part "LocalVariableDeclaration" "ty" ty (change t ty))
        (← parts "LocalVariableDeclaration" "declarators" decls (change t decls))
  | _, .matchValue span ty id =>
    t.kind (.matchValue span ty id) <| rebuilt do
      return .matchValue span (← part "Match" "ty" ty (change t ty))
        (← part "Match" "id" id (change t id))
  | _, .exprCase inner => .lift .exprCase <$> change t inner
  | _, .caseLabel span value =>
    t.kind (.caseLabel span value) <| rebuilt do
      return .caseLabel span (← part "Case" "value" value (change t value))
  | _, .defaultLabel span => t.kind (.defaultLabel span) (pure .keep)
  | _, .switchGroup span labels body =>
    t.kind (.switchGroup span labels body) <| rebuilt do
      return .switchGroup span (← parts "SwitchGroup" "labels" labels (change t labels))
        (← parts "SwitchGroup" "body" body (change t body))
  | _, .switchBlock span groups labels rules =>
    t.kind (.switchBlock span groups labels rules) <| rebuilt do
      return .switchBlock span (← part "SwitchBlock" "groups" groups (change t groups))
        (← part "SwitchBlock" "labels" labels (change t labels))
        (← part "SwitchBlock" "rules" rules (change t rules))
  | _, .noInit => pure .keep
  | _, .exprsInit inner => .lift .exprsInit <$> change t inner
  | _, .variablesInit inner => .lift .variablesInit <$> change t inner
  | _, .catchClause span mods exceptions id body =>
    t.kind (.catchClause span mods exceptions id body) <| rebuilt do
      return .catchClause span (← part "CatchClause" "modifiers" mods (change t mods))
        (← parts "CatchClause" "exceptions" exceptions (change t exceptions))
        (← part "CatchClause" "id" id (change t id))
        (← part "CatchClause" "body" body (change t body))
  | _, .resource span mods ty declarator =>
    t.kind (.resource span mods ty declarator) <| rebuilt do
      return .resource span (← part "Resource" "modifiers" mods (change t mods))
        (← part "Resource" "ty" ty (change t ty))
        (← part "Resource" "declarator" declarator (change t declarator))
  | _, .nameResource inner => .lift .nameResource <$> change t inner
  -- variables and parameters
  | _, .variableDeclaratorId span id dims =>
    t.kind (.variableDeclaratorId span id dims) <| rebuilt do
      return .variableDeclaratorId span (← part "VariableDeclaratorId" "id" id (change t id))
        (← part "VariableDeclaratorId" "dims" dims (change t dims))
  | _, .variableDeclarator span id init =>
    t.kind (.variableDeclarator span id init) <| rebuilt do
      return .variableDeclarator span (← part "VariableDeclarator" "id" id (change t id))
        (← part "VariableDeclarator" "init" init (change t init))
  | _, .receiverParameter span ty ids =>
    t.kind (.receiverParameter span ty ids) <| rebuilt do
      return .receiverParameter span (← part "ReceiverParameter" "ty" ty (change t ty))
        (← part "ReceiverParameter" "identifiers" ids (change t ids))
  | _, .parameter span mods ty id =>
    t.kind (.parameter span mods ty id) <| rebuilt do
      return .parameter span (← part "Parameter" "modifiers" mods (change t mods))
        (← part "Parameter" "ty" ty (change t ty)) (← part "Parameter" "id" id (change t id))
  | _, .variableArityParameter span mods ty anns id =>
    t.kind (.variableArityParameter span mods ty anns id) <| rebuilt do
      return .variableArityParameter span
        (← part "VariableArityParameter" "modifiers" mods (change t mods))
        (← part "VariableArityParameter" "ty" ty (change t ty))
        (← part "VariableArityParameter" "annotations" anns (change t anns))
        (← part "VariableArityParameter" "id" id (change t id))
  | _, .formalParameters span receiver params =>
    t.kind (.formalParameters span receiver params) <| rebuilt do
      return .formalParameters span
        (← part "FormalParameters" "receiver" receiver (change t receiver))
        (← part "FormalParameters" "params" params (change t params))
  -- declarations
  | _, .emptyDecl span => t.member (.emptyDecl span) (pure .keep)
  | _, .fieldDecl span mods ty decls =>
    t.member (.fieldDecl span mods ty decls) <| rebuilt do
      return .fieldDecl span (← part "FieldDeclaration" "modifiers" mods (change t mods))
        (← part "FieldDeclaration" "ty" ty (change t ty))
        (← parts "FieldDeclaration" "declarators" decls (change t decls))
  | _, .methodDecl span mods tparams anns ty id params dims throws body =>
    t.member (.methodDecl span mods tparams anns ty id params dims throws body) <| rebuilt do
      return .methodDecl span (← part "MethodDeclaration" "modifiers" mods (change t mods))
        (← part "MethodDeclaration" "type_params" tparams (change t tparams))
        (← part "MethodDeclaration" "annotations" anns (change t anns))
        (← part "MethodDeclaration" "return_type" ty (change t ty))
        (← part "MethodDeclaration" "id" id (change t id))
        (← part "MethodDeclaration" "params" params (change t params))
        (← part "MethodDeclaration" "dims" dims (change t dims))
        (← part "MethodDeclaration" "throws" throws (change t throws))
        (← part "MethodDeclaration" "body" body (change t body))
  | _, .constructorDecl span mods tparams id params throws body =>
    t.member (.constructorDecl span mods tparams id params throws body) <| rebuilt do
      return .constructorDecl span
        (← part "ConstructorDeclaration" "modifiers" mods (change t mods))
        (← part "ConstructorDeclaration" "type_params" tparams (change t tparams))
        (← part "ConstructorDeclaration" "id" id (change t id))
        (← part "ConstructorDeclaration" "params" params (change t params))
        (← part "ConstructorDeclaration" "throws" throws (change t throws))
        (← part "ConstructorDeclaration" "body" body (change t body))
  | _, .compactConstructorDecl span mods id body =>
    t.member (.compactConstructorDecl span mods id body) <| rebuilt do
      return .compactConstructorDecl span
        (← part "CompactConstructorDeclaration" "modifiers" mods (change t mods))
        (← part "CompactConstructorDeclaration" "id" id (change t id))
        (← part "CompactConstructorDeclaration" "body" body (change t body))
  | _, .initializerDecl span body isStatic =>
    t.member (.initializerDecl span body isStatic) <| rebuilt do
      return .initializerDecl span (← part "Initializer" "body" body (change t body)) isStatic
  | _, .classDecl span mods id tparams extend implement permit body =>
    t.member (.classDecl span mods id tparams extend implement permit body) <| rebuilt do
      return .classDecl span (← part "ClassDeclaration" "modifiers" mods (change t mods))
        (← part "ClassDeclaration" "id" id (change t id))
        (← part "ClassDeclaration" "type_params" tparams (change t tparams))
        (← part "ClassDeclaration" "extends" extend (change t extend))
        (← part "ClassDeclaration" "implements" implement (change t implement))
        (← part "ClassDeclaration" "permits" permit (change t permit))
        (← part "ClassDeclaration" "body" body (change t body))
  | _, .interfaceDecl span mods id tparams extend permit body =>
    t.member (.interfaceDecl span mods id tparams extend permit body) <| rebuilt do
      return .interfaceDecl span (← part "InterfaceDeclaration" "modifiers" mods (change t mods))
        (← part "InterfaceDeclaration" "id" id (change t id))
        (← part "InterfaceDeclaration" "type_params" tparams (change t tparams))
        (← part "InterfaceDeclaration" "extends" extend (change t extend))
        (← part "InterfaceDeclaration" "permits" permit (change t permit))
        (← part "InterfaceDeclaration" "body" body (change t body))
  | _, .enumDecl span mods id implement constants body =>
    t.member (.enumDecl span mods id implement constants body) <| rebuilt do
      return .enumDecl span (← part "EnumDeclaration" "modifiers" mods (change t mods))
        (← part "EnumDeclaration" "id" id (change t id))
        (← part "EnumDeclaration" "implements" implement (change t implement))
        (← part "EnumDeclaration" "constants" constants (change t constants))
        (← part "EnumDeclaration" "body" body (change t body))
  | _, .recordDecl span mods id tparams components implement body =>
    t.member (.recordDecl span mods id tparams components implement body) <| rebuilt do
      return .recordDecl span (← part "RecordDeclaration" "modifiers" mods (change t mods))
        (← part "RecordDeclaration" "id" id (change t id))
        (← part "RecordDeclaration" "type_params" tparams (change t tparams))
        (← part "RecordDeclaration" "components" components (change t components))
        (← part "RecordDeclaration" "implements" implement (change t implement))
        (← part "RecordDeclaration" "body" body (change t body))
  | _, .annotationDecl span mods id body =>
    t.member (.annotationDecl span mods id body) <| rebuilt do
      return .annotationDecl span (← part "AnnotationDeclaration" "modifiers" mods (change t mods))
        (← part "AnnotationDeclaration" "id" id (change t id))
        (← part "AnnotationDeclaration" "body" body (change t body))
  | _, .elementDecl span mods ty id value =>
    t.member (.elementDecl span mods ty id value) <| rebuilt do
      return .elementDecl span
        (← part "AnnotationMethodDeclaration" "modifiers" mods (change t mods))
        (← part "AnnotationMethodDeclaration" "ty" ty (change t ty))
        (← part "AnnotationMethodDeclaration" "id" id (change t id))
        (← part "AnnotationMethodDeclaration" "default" value (change t value))
  -- parts of declarations
  | _, .enumConstant span anns id args body =>
    t.kind (.enumConstant span anns id args body) <| rebuilt do
      return .enumConstant span (← part "EnumConstant" "annotations" anns (change t anns))
        (← part "EnumConstant" "id" id (change t id))
        (← part "EnumConstant" "args" args (change t args))
        (← part "EnumConstant" "body" body (change t body))
  | _, .recordComponent span anns ty isVariableArity id =>
    t.kind (.recordComponent span anns ty isVariableArity id) <| rebuilt do
      return .recordComponent span (← part "RecordComponent" "annotations" anns (change t anns))
        (← part "RecordComponent" "ty" ty (change t ty)) isVariableArity
        (← part "RecordComponent" "id" id (change t id))
  -- compilation units and modules
  | _, .packageDecl span anns qname =>
    t.kind (.packageDecl span anns qname) <| rebuilt do
      return .packageDecl span (← part "PackageDeclaration" "annotations" anns (change t anns))
        (← part "PackageDeclaration" "name" qname (change t qname))
  | _, .importDecl span isStatic qname isOnDemand =>
    t.kind (.importDecl span isStatic qname isOnDemand) <| rebuilt do
      return .importDecl span isStatic (← part "ImportDeclaration" "name" qname (change t qname))
        isOnDemand
  | _, .requiresDirective span mods qname =>
    t.kind (.requiresDirective span mods qname) <| rebuilt do
      return .requiresDirective span (← part "RequiresDirective" "modifiers" mods (change t mods))
        (← part "RequiresDirective" "name" qname (change t qname))
  | _, .exportsDirective span qname targets =>
    t.kind (.exportsDirective span qname targets) <| rebuilt do
      return .exportsDirective span (← part "ExportsDirective" "name" qname (change t qname))
        (← part "ExportsDirective" "to" targets (change t targets))
  | _, .opensDirective span qname targets =>
    t.kind (.opensDirective span qname targets) <| rebuilt do
      return .opensDirective span (← part "OpensDirective" "name" qname (change t qname))
        (← part "OpensDirective" "to" targets (change t targets))
  | _, .usesDirective span qname =>
    t.kind (.usesDirective span qname) <| rebuilt do
      return .usesDirective span (← part "UsesDirective" "name" qname (change t qname))
  | _, .providesDirective span qname providers =>
    t.kind (.providesDirective span qname providers) <| rebuilt do
      return .providesDirective span (← part "ProvidesDirective" "name" qname (change t qname))
        (← parts "ProvidesDirective" "with" providers (change t providers))
  | _, .moduleDecl span anns isOpen qname directives =>
    t.kind (.moduleDecl span anns isOpen qname directives) <| rebuilt do
      return .moduleDecl span (← part "ModuleDeclaration" "annotations" anns (change t anns))
        isOpen (← part "ModuleDeclaration" "name" qname (change t qname))
        (← part "ModuleDeclaration" "directives" directives (change t directives))
  | _, .ordinaryUnit span package imports decls =>
    t.kind (.ordinaryUnit span package imports decls) <| rebuilt do
      return .ordinaryUnit span
        (← part "OrdinaryCompilationUnit" "package" package (change t package))
        (← part "OrdinaryCompilationUnit" "imports" imports (change t imports))
        (← part "OrdinaryCompilationUnit" "declarations" decls (change t decls))
  | _, .modularUnit span imports module =>
    t.kind (.modularUnit span imports module) <| rebuilt do
      return .modularUnit span
        (← part "ModularCompilationUnit" "imports" imports (change t imports))
        (← part "ModularCompilationUnit" "module" module (change t module))

/-- The whole tree, changed.  It cannot be deleted, nor can several take its place. -/
def transform (t : Transformer m) (n : Node c) : m (Node c) := do
  match ← t.change n with
  | .keep       => return n
  | .replace n' => return n'
  | .delete     => throw (NodeError.of n.kindName "root" .removed)
  | .splice _   => throw (NodeError.of n.kindName "root" .several)

end Transformer

end JavaSource
