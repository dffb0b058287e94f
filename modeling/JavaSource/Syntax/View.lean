import JavaSource.Syntax.Kind

/-!
# Syntax — View

Every node as a tree of plain shape: which field of its parent it stands in, the node itself, and
the views of its parts in the order in which they are written.  What is absent has no view, lists
have one for each of their elements, and a choice is seen as what was chosen.

Whatever looks at trees without changing them looks at views.
-/

namespace JavaSource

/-- The field of a parent that a node stands in, and its place in it if that is a list. -/
structure Slot where
  name : String
  index : Option Nat
  deriving DecidableEq, Repr

namespace Slot

/-- The place of a node that has no parent. -/
def root : Slot := ⟨"", none⟩

/-- A field. -/
def field (name : String) : Slot := ⟨name, none⟩

/-- The first place of a list, or the place itself if it is in a list. -/
def item (s : Slot) : Slot := ⟨s.name, some (s.index.getD 0)⟩

/-- The next place of a list. -/
def next (s : Slot) : Slot := ⟨s.name, some (s.index.getD 0 + 1)⟩

/-- A place as it is shown. -/
def text (s : Slot) : String :=
  match s.index with
  | none   => s.name
  | some i => s!"{s.name}[{i}]"

end Slot

/-- A node, where it stands, and the views of its parts. -/
inductive View where
  | mk (slot : Slot) {category : Category} (node : Node category) (parts : List View)

namespace Node

/-- Whether there is neither a parameter nor a receiver. -/
def isBare : Node .formalParameters → Bool
  | .formalParameters _ .absent .nil => true
  | _                                => false

/-- The views of a node in some place: one for a node proper, none for what is absent, one for
each element of a list. -/
def views (slot : Slot) : {c : Category} → Node c → List View
  | _, .nil => []
  | _, .cons head tail => views slot.item head ++ views slot.next tail
  | _, .absent => []
  | _, .present value => views slot value
  -- names and literals
  | _, .identifier span qname => [.mk slot (.identifier span qname) []]
  | _, .qualifiedName span ids =>
    [.mk slot (.qualifiedName span ids) (views (.field "identifiers") ids)]
  | _, .literal span value => [.mk slot (.literal span value) []]
  -- modifiers and annotations
  | _, .keywordModifier span word => [.mk slot (.keywordModifier span word) []]
  | _, .annotationModifier inner => views slot inner
  | _, .annotationUse span qname elements =>
    [.mk slot (.annotationUse span qname elements) (views (.field "name") qname
      ++ views (.field "elements") elements)]
  | _, .elementValuePair span id value =>
    [.mk slot (.elementValuePair span id value) (views (.field "id") id
      ++ views (.field "value") value)]
  | _, .valueElement inner => views slot inner
  | _, .exprValue inner => views slot inner
  | _, .annotationValue inner => views slot inner
  | _, .elementValueArray span values =>
    [.mk slot (.elementValueArray span values) (views (.field "values") values)]
  -- types and patterns
  | _, .wordType span anns word =>
    [.mk slot (.wordType span anns word) (views (.field "annotations") anns)]
  | _, .classType span anns coits =>
    [.mk slot (.classType span anns coits) (views (.field "annotations") anns
      ++ views (.field "coits") coits)]
  | _, .arrayType span anns elem dims =>
    [.mk slot (.arrayType span anns elem dims) (views (.field "annotations") anns
      ++ views (.field "elem") elem ++ views (.field "dims") dims)]
  | _, .wildcardType span anns bound =>
    [.mk slot (.wildcardType span anns bound) (views (.field "annotations") anns
      ++ views (.field "bound") bound)]
  | _, .coit span anns id targs =>
    [.mk slot (.coit span anns id targs) (views (.field "annotations") anns
      ++ views (.field "id") id ++ views (.field "type_args") targs)]
  | _, .wildcardBound span ty isExtends isSuper =>
    [.mk slot (.wildcardBound span ty isExtends isSuper) (views (.field "ty") ty)]
  | _, .typeArguments span types =>
    [.mk slot (.typeArguments span types) (views (.field "types") types)]
  | _, .dim span anns =>
    [.mk slot (.dim span anns) (views (.field "annotations") anns)]
  | _, .typeParameter span anns id bound =>
    [.mk slot (.typeParameter span anns id bound) (views (.field "annotations") anns
      ++ views (.field "id") id ++ views (.field "bound") bound)]
  | _, .typeBound span anns types =>
    [.mk slot (.typeBound span anns types) (views (.field "annotations") anns
      ++ views (.field "types") types)]
  | _, .typeParameters span parameters =>
    [.mk slot (.typeParameters span parameters) (views (.field "parameters") parameters)]
  | _, .pattern span mods ty anns id =>
    [.mk slot (.pattern span mods ty anns id) (views (.field "modifiers") mods
      ++ views (.field "ty") ty ++ views (.field "annotations") anns ++ views (.field "id") id)]
  | _, .guardedPattern span pat conditions =>
    [.mk slot (.guardedPattern span pat conditions) (views (.field "pattern") pat
      ++ views (.field "conditions") conditions)]
  | _, .exprItem inner => views slot inner
  -- operators
  | _, .binaryOperator op => [.mk slot (.binaryOperator op) []]
  | _, .unaryOperator op => [.mk slot (.unaryOperator op) []]
  | _, .postOperator op => [.mk slot (.postOperator op) []]
  | _, .assignOperator op => [.mk slot (.assignOperator op) []]
  -- expressions
  | _, .name span id =>
    [.mk slot (.name span id) (views (.field "id") id)]
  | _, .constant span value =>
    [.mk slot (.constant span value) (views (.field "literal") value)]
  | _, .thisExpr span args =>
    [.mk slot (.thisExpr span args) (views (.field "args") args)]
  | _, .superExpr span targs id args =>
    [.mk slot (.superExpr span targs id args) (views (.field "type_args") targs
      ++ views (.field "id") id ++ views (.field "args") args)]
  | _, .classExpr span ty =>
    [.mk slot (.classExpr span ty) (views (.field "ty") ty)]
  | _, .lambda span params body =>
    [.mk slot (.lambda span params body) (views (.field "params") params
      ++ views (.field "body") body)]
  | _, .assignment span target op value =>
    [.mk slot (.assignment span target op value) (views (.field "target") target
      ++ views (.field "op") op ++ views (.field "value") value)]
  | _, .conditional span test body orelse =>
    [.mk slot (.conditional span test body orelse) (views (.field "test") test
      ++ views (.field "body") body ++ views (.field "orelse") orelse)]
  | _, .binary span left op right =>
    [.mk slot (.binary span left op right) (views (.field "left") left
      ++ views (.field "op") op ++ views (.field "right") right)]
  | _, .instanceOf span value target =>
    [.mk slot (.instanceOf span value target) (views (.field "value") value
      ++ views (.field "target") target)]
  | _, .unary span op operand =>
    [.mk slot (.unary span op operand) (views (.field "op") op
      ++ views (.field "operand") operand)]
  | _, .post span operand op =>
    [.mk slot (.post span operand op) (views (.field "operand") operand
      ++ views (.field "op") op)]
  | _, .cast span anns ty value =>
    [.mk slot (.cast span anns ty value) (views (.field "annotations") anns
      ++ views (.field "ty") ty ++ views (.field "value") value)]
  | _, .newObject span targs ty args body =>
    [.mk slot (.newObject span targs ty args body) (views (.field "type_args") targs
      ++ views (.field "ty") ty ++ views (.field "args") args ++ views (.field "body") body)]
  | _, .newInner span targs id ctargs args body =>
    [.mk slot (.newInner span targs id ctargs args body) (views (.field "type_args") targs
      ++ views (.field "id") id ++ views (.field "class_type_args") ctargs
      ++ views (.field "args") args ++ views (.field "body") body)]
  | _, .newArray span ty exprDims dims init =>
    [.mk slot (.newArray span ty exprDims dims init) (views (.field "ty") ty
      ++ views (.field "expr_dims") exprDims ++ views (.field "dims") dims
      ++ views (.field "init") init)]
  | _, .switchExpr span value rules =>
    [.mk slot (.switchExpr span value rules) (views (.field "value") value
      ++ views (.field "rules") rules)]
  | _, .call span func args =>
    [.mk slot (.call span func args) (views (.field "func") func ++ views (.field "args") args)]
  | _, .member span receiver mem =>
    [.mk slot (.member span receiver mem) (views (.field "receiver") receiver
      ++ views (.field "member") mem)]
  | _, .index span receiver idx =>
    [.mk slot (.index span receiver idx) (views (.field "receiver") receiver
      ++ views (.field "index") idx)]
  | _, .reference span target targs id isNew =>
    [.mk slot (.reference span target targs id isNew) (views (.field "target") target
      ++ views (.field "type_args") targs ++ views (.field "id") id)]
  | _, .genericCall span targs value =>
    [.mk slot (.genericCall span targs value) (views (.field "type_args") targs
      ++ views (.field "value") value)]
  | _, .arrayInit inner => views slot inner
  -- parts of expressions
  | _, .singleParam inner => views slot inner
  | _, .nameParams inner => views slot inner
  | _, .formalParams inner => views slot inner
  | _, .exprBody inner => views slot inner
  | _, .blockBody inner => views slot inner
  | _, .typeTarget inner => views slot inner
  | _, .patternTarget inner => views slot inner
  | _, .dimExpr span anns expr =>
    [.mk slot (.dimExpr span anns expr) (views (.field "annotations") anns
      ++ views (.field "expr") expr)]
  | _, .arrayInitializer span values =>
    [.mk slot (.arrayInitializer span values) (views (.field "values") values)]
  | _, .switchRule span isDefault cases isArrow body =>
    [.mk slot (.switchRule span isDefault cases isArrow body) (views (.field "cases") cases
      ++ views (.field "body") body)]
  | _, .exprReference inner => views slot inner
  | _, .typeReference inner => views slot inner
  -- statements
  | _, .emptyStmt span => [.mk slot (.emptyStmt span) []]
  | _, .blockStmt inner => views slot inner
  | _, .localTypeStmt span decl =>
    [.mk slot (.localTypeStmt span decl) (views (.field "decl") decl)]
  | _, .localVariableStmt inner => views slot inner
  | _, .labeledStmt span label body =>
    [.mk slot (.labeledStmt span label body) (views (.field "label") label
      ++ views (.field "body") body)]
  | _, .exprStmt span value =>
    [.mk slot (.exprStmt span value) (views (.field "value") value)]
  | _, .ifStmt span test body orelse =>
    [.mk slot (.ifStmt span test body orelse) (views (.field "test") test
      ++ views (.field "body") body ++ views (.field "orelse") orelse)]
  | _, .assertStmt span test msg =>
    [.mk slot (.assertStmt span test msg) (views (.field "test") test
      ++ views (.field "msg") msg)]
  | _, .switchStmt span value body =>
    [.mk slot (.switchStmt span value body) (views (.field "value") value
      ++ views (.field "body") body)]
  | _, .whileStmt span test body =>
    [.mk slot (.whileStmt span test body) (views (.field "test") test
      ++ views (.field "body") body)]
  | _, .doWhileStmt span body test =>
    [.mk slot (.doWhileStmt span body test) (views (.field "body") body
      ++ views (.field "test") test)]
  | _, .forStmt span init test update body =>
    [.mk slot (.forStmt span init test update body) (views (.field "init") init
      ++ views (.field "test") test ++ views (.field "update") update
      ++ views (.field "body") body)]
  | _, .forEachStmt span mods ty id iter body =>
    [.mk slot (.forEachStmt span mods ty id iter body) (views (.field "modifiers") mods
      ++ views (.field "ty") ty ++ views (.field "id") id ++ views (.field "iter") iter
      ++ views (.field "body") body)]
  | _, .breakStmt span label =>
    [.mk slot (.breakStmt span label) (views (.field "label") label)]
  | _, .continueStmt span label =>
    [.mk slot (.continueStmt span label) (views (.field "label") label)]
  | _, .returnStmt span value =>
    [.mk slot (.returnStmt span value) (views (.field "value") value)]
  | _, .throwStmt span exc =>
    [.mk slot (.throwStmt span exc) (views (.field "exc") exc)]
  | _, .synchronizedStmt span lock body =>
    [.mk slot (.synchronizedStmt span lock body) (views (.field "lock") lock
      ++ views (.field "body") body)]
  | _, .yieldStmt span value =>
    [.mk slot (.yieldStmt span value) (views (.field "value") value)]
  | _, .tryStmt span body catches fin =>
    [.mk slot (.tryStmt span body catches fin) (views (.field "body") body
      ++ views (.field "catches") catches ++ views (.field "finally") fin)]
  | _, .tryResourcesStmt span resources body catches fin =>
    [.mk slot (.tryResourcesStmt span resources body catches fin) (
      views (.field "resources") resources ++ views (.field "body") body
      ++ views (.field "catches") catches ++ views (.field "finally") fin)]
  -- parts of statements
  | _, .block span body =>
    [.mk slot (.block span body) (views (.field "body") body)]
  | _, .localVariables span mods ty decls =>
    [.mk slot (.localVariables span mods ty decls) (views (.field "modifiers") mods
      ++ views (.field "ty") ty ++ views (.field "declarators") decls)]
  | _, .matchValue span ty id =>
    [.mk slot (.matchValue span ty id) (views (.field "ty") ty ++ views (.field "id") id)]
  | _, .exprCase inner => views slot inner
  | _, .caseLabel span value =>
    [.mk slot (.caseLabel span value) (views (.field "value") value)]
  | _, .defaultLabel span => [.mk slot (.defaultLabel span) []]
  | _, .switchGroup span labels body =>
    [.mk slot (.switchGroup span labels body) (views (.field "labels") labels
      ++ views (.field "body") body)]
  | _, .switchBlock span groups labels rules =>
    [.mk slot (.switchBlock span groups labels rules) (views (.field "groups") groups
      ++ views (.field "labels") labels ++ views (.field "rules") rules)]
  | _, .noInit => []
  | _, .exprsInit inner => views slot inner
  | _, .variablesInit inner => views slot inner
  | _, .catchClause span mods exceptions id body =>
    [.mk slot (.catchClause span mods exceptions id body) (views (.field "modifiers") mods
      ++ views (.field "exceptions") exceptions ++ views (.field "id") id
      ++ views (.field "body") body)]
  | _, .resource span mods ty declarator =>
    [.mk slot (.resource span mods ty declarator) (views (.field "modifiers") mods
      ++ views (.field "ty") ty ++ views (.field "declarator") declarator)]
  | _, .nameResource inner => views slot inner
  -- variables and parameters
  | _, .variableDeclaratorId span id dims =>
    [.mk slot (.variableDeclaratorId span id dims) (views (.field "id") id
      ++ views (.field "dims") dims)]
  | _, .variableDeclarator span id init =>
    [.mk slot (.variableDeclarator span id init) (views (.field "id") id
      ++ views (.field "init") init)]
  | _, .receiverParameter span ty ids =>
    [.mk slot (.receiverParameter span ty ids) (views (.field "ty") ty
      ++ views (.field "identifiers") ids)]
  | _, .parameter span mods ty id =>
    [.mk slot (.parameter span mods ty id) (views (.field "modifiers") mods
      ++ views (.field "ty") ty ++ views (.field "id") id)]
  | _, .variableArityParameter span mods ty anns id =>
    [.mk slot (.variableArityParameter span mods ty anns id) (views (.field "modifiers") mods
      ++ views (.field "ty") ty ++ views (.field "annotations") anns ++ views (.field "id") id)]
  | _, .formalParameters span receiver params =>
    [.mk slot (.formalParameters span receiver params) (views (.field "receiver") receiver
      ++ views (.field "params") params)]
  -- declarations
  | _, .emptyDecl span => [.mk slot (.emptyDecl span) []]
  | _, .fieldDecl span mods ty decls =>
    [.mk slot (.fieldDecl span mods ty decls) (views (.field "modifiers") mods
      ++ views (.field "ty") ty ++ views (.field "declarators") decls)]
  | _, .methodDecl span mods tparams anns ty id params dims throws body =>
    [.mk slot (.methodDecl span mods tparams anns ty id params dims throws body) (
      views (.field "modifiers") mods ++ views (.field "type_params") tparams
      ++ views (.field "annotations") anns ++ views (.field "return_type") ty
      ++ views (.field "id") id
      ++ (if params.isBare then [] else views (.field "params") params)
      ++ views (.field "dims") dims ++ views (.field "throws") throws
      ++ views (.field "body") body)]
  | _, .constructorDecl span mods tparams id params throws body =>
    [.mk slot (.constructorDecl span mods tparams id params throws body) (
      views (.field "modifiers") mods ++ views (.field "type_params") tparams
      ++ views (.field "id") id
      ++ (if params.isBare then [] else views (.field "params") params)
      ++ views (.field "throws") throws ++ views (.field "body") body)]
  | _, .compactConstructorDecl span mods id body =>
    [.mk slot (.compactConstructorDecl span mods id body) (views (.field "modifiers") mods
      ++ views (.field "id") id ++ views (.field "body") body)]
  | _, .initializerDecl span body isStatic =>
    [.mk slot (.initializerDecl span body isStatic) (views (.field "body") body)]
  | _, .classDecl span mods id tparams extend implement permit body =>
    [.mk slot (.classDecl span mods id tparams extend implement permit body) (
      views (.field "modifiers") mods ++ views (.field "id") id
      ++ views (.field "type_params") tparams ++ views (.field "extends") extend
      ++ views (.field "implements") implement ++ views (.field "permits") permit
      ++ views (.field "body") body)]
  | _, .interfaceDecl span mods id tparams extend permit body =>
    [.mk slot (.interfaceDecl span mods id tparams extend permit body) (
      views (.field "modifiers") mods ++ views (.field "id") id
      ++ views (.field "type_params") tparams ++ views (.field "extends") extend
      ++ views (.field "permits") permit ++ views (.field "body") body)]
  | _, .enumDecl span mods id implement constants body =>
    [.mk slot (.enumDecl span mods id implement constants body) (
      views (.field "modifiers") mods ++ views (.field "id") id
      ++ views (.field "implements") implement ++ views (.field "constants") constants
      ++ views (.field "body") body)]
  | _, .recordDecl span mods id tparams components implement body =>
    [.mk slot (.recordDecl span mods id tparams components implement body) (
      views (.field "modifiers") mods ++ views (.field "id") id
      ++ views (.field "type_params") tparams ++ views (.field "components") components
      ++ views (.field "implements") implement ++ views (.field "body") body)]
  | _, .annotationDecl span mods id body =>
    [.mk slot (.annotationDecl span mods id body) (views (.field "modifiers") mods
      ++ views (.field "id") id ++ views (.field "body") body)]
  | _, .elementDecl span mods ty id value =>
    [.mk slot (.elementDecl span mods ty id value) (views (.field "modifiers") mods
      ++ views (.field "ty") ty ++ views (.field "id") id ++ views (.field "default") value)]
  -- parts of declarations
  | _, .enumConstant span anns id args body =>
    [.mk slot (.enumConstant span anns id args body) (views (.field "annotations") anns
      ++ views (.field "id") id ++ views (.field "args") args ++ views (.field "body") body)]
  | _, .recordComponent span anns ty isVariableArity id =>
    [.mk slot (.recordComponent span anns ty isVariableArity id) (
      views (.field "annotations") anns ++ views (.field "ty") ty ++ views (.field "id") id)]
  -- compilation units and modules
  | _, .packageDecl span anns qname =>
    [.mk slot (.packageDecl span anns qname) (views (.field "annotations") anns
      ++ views (.field "name") qname)]
  | _, .importDecl span isStatic qname isOnDemand =>
    [.mk slot (.importDecl span isStatic qname isOnDemand) (views (.field "name") qname)]
  | _, .requiresDirective span mods qname =>
    [.mk slot (.requiresDirective span mods qname) (views (.field "modifiers") mods
      ++ views (.field "name") qname)]
  | _, .exportsDirective span qname targets =>
    [.mk slot (.exportsDirective span qname targets) (views (.field "name") qname
      ++ views (.field "to") targets)]
  | _, .opensDirective span qname targets =>
    [.mk slot (.opensDirective span qname targets) (views (.field "name") qname
      ++ views (.field "to") targets)]
  | _, .usesDirective span qname =>
    [.mk slot (.usesDirective span qname) (views (.field "name") qname)]
  | _, .providesDirective span qname providers =>
    [.mk slot (.providesDirective span qname providers) (views (.field "name") qname
      ++ views (.field "with") providers)]
  | _, .moduleDecl span anns isOpen qname directives =>
    [.mk slot (.moduleDecl span anns isOpen qname directives) (
      views (.field "annotations") anns ++ views (.field "name") qname
      ++ views (.field "directives") directives)]
  | _, .ordinaryUnit span package imports decls =>
    [.mk slot (.ordinaryUnit span package imports decls) (views (.field "package") package
      ++ views (.field "imports") imports ++ views (.field "declarations") decls)]
  | _, .modularUnit span imports module =>
    [.mk slot (.modularUnit span imports module) (views (.field "imports") imports
      ++ views (.field "module") module)]

end Node

/-- The view of a node that stands alone; a list or an option may have none. -/
def Node.view? {c : Category} (n : Node c) : Option View := (n.views .root).head?

namespace View

/-- Where the node stands. -/
def slot : View → Slot
  | mk s _ _ => s

/-- The views of the parts. -/
def parts : View → List View
  | mk _ _ ps => ps

/-- The node. -/
def node : View → AnyNode
  | mk _ n _ => ⟨_, n⟩

/-- What the node is. -/
def kind? : View → Option Kind
  | mk _ n _ => n.kind?

/-- What the node is, as closely as it can be named. -/
def kindName : View → String
  | mk _ n _ => n.kindName

/-- The names of the fields that hold something. -/
def fieldNames (v : View) : List String :=
  (v.parts.filter fun p => p.slot.index.all (· == 0)).map fun p => p.slot.name

mutual

/-- Every view within a view, itself first, with its depth. -/
def preorder (depth : Nat) : View → List (Nat × View)
  | mk s n ps => (depth, mk s n ps) :: preorderAll (depth + 1) ps

/-- The same for several views at one depth. -/
def preorderAll (depth : Nat) : List View → List (Nat × View)
  | []      => []
  | v :: vs => v.preorder depth ++ preorderAll depth vs

end

/-- Every view within a view, itself first. -/
def all (v : View) : List View := (v.preorder 0).map (·.2)

/-- The first node of a kind. -/
def find? (kind : Kind) (v : View) : Option AnyNode :=
  (v.all.find? fun w => w.kind? == some kind).map node

end View

end JavaSource
