import JavaSource.Syntax.View

/-!
# Syntax — Attribute

What a node has besides its parts, as a short list of named values.  Kind, attributes and parts
together are all there is to a node but its span; so they decide when two trees are the same.
-/

namespace JavaSource

/-- A value that a node has besides its parts. -/
inductive Attribute where
  | flag (value : Bool)
  | text (value : String)
  | lines (value : List String)
  | word (value : UInt64)
  | real (value : Binary64)
  deriving DecidableEq, Repr

/-- Whether two values are the same; numbers compare as numbers. -/
def Attribute.same : Attribute → Attribute → Bool
  | real a, real b => a.equals b
  | a,      b      => a == b

/-- The attributes of a literal. -/
def LiteralValue.attributes : LiteralValue → List (String × Attribute)
  | int value long          => [("value", .word value), ("long", .flag long)]
  | float value double      => [("bits", .real value), ("double", .flag double)]
  | bool value              => [("value", .flag value)]
  | char text | string text => [("text", .text text)]
  | textBlock lines         => [("lines", .lines lines)]
  | null                    => []

/-- Whether a type is primitive. -/
def Node.isPrimitive : TypeNode → Bool
  | .wordType _ _ word => word.isPrimitive
  | _                  => false

/-- Whether a cast is to a primitive type. -/
def Node.isPrimitiveBound : Node .typeBound → Bool
  | .typeBound _ _ (.cons ty .nil) => ty.isPrimitive
  | _                              => false

/-- The name of a form of lambda parameters. -/
def Node.paramsForm : Node .lambdaParams → String
  | .singleParam _  => "single"
  | .nameParams _   => "identifiers"
  | .formalParams _ => "formal"

/-- The name of a form of initialization. -/
def Node.initForm : Node .forInit → String
  | .noInit          => "none"
  | .exprsInit _     => "expressions"
  | .variablesInit _ => "local"

/-- What a node has besides its parts. -/
def Node.attributes {c : Category} (n : Node c) : List (String × Attribute) :=
  match c, n with
  | _, .identifier _ text                  => [("name", .text text)]
  | _, .literal _ value                    => value.attributes
  | _, .wildcardBound _ _ up down          => [("extends", .flag up), ("super", .flag down)]
  | _, .typeArguments _ types              => [("diamond", .flag types.isEmpty)]
  | .type, ty                              => [("primitive", .flag ty.isPrimitive)]
  | _, .thisExpr _ args                    => [("args", .flag args.isSome)]
  | _, .superExpr _ _ _ args               => [("args", .flag args.isSome)]
  | _, .newObject _ _ _ _ body             => [("body", .flag body.isSome)]
  | _, .newInner _ _ _ _ _ body            => [("body", .flag body.isSome)]
  | _, .enumConstant _ _ _ args body       =>
    [("args", .flag args.isSome), ("body", .flag body.isSome)]
  | _, .cast _ _ bound _                   => [("primitive", .flag bound.isPrimitiveBound)]
  | _, .lambda _ params _                  => [("params", .text params.paramsForm)]
  | _, .reference _ _ _ _ isNew            => [("new", .flag isNew)]
  | _, .switchRule _ isDefault _ arrow _   => [("default", .flag isDefault), ("arrow", .flag arrow)]
  | _, .forStmt _ init ..                  => [("init", .text init.initForm)]
  | _, .initializerDecl _ _ isStatic       => [("static", .flag isStatic)]
  | _, .recordComponent _ _ _ isVariable _ => [("variable_arity", .flag isVariable)]
  | _, .importDecl _ isStatic _ isOnDemand =>
    [("static", .flag isStatic), ("on_demand", .flag isOnDemand)]
  | _, .moduleDecl _ _ isOpen _ _          => [("open", .flag isOpen)]
  | _, _                                   => []

/-- What a node has besides its parts. -/
def View.attributes : View → List (String × Attribute)
  | mk _ n _ => n.attributes

/-- Whether two nodes have the same attributes. -/
def sameAttributes : List (String × Attribute) → List (String × Attribute) → Bool
  | [],           []           => true
  | (m, a) :: as, (n, b) :: bs => m == n && a.same b && sameAttributes as bs
  | _,            _            => false

mutual

/-- Whether two views are the same but for spans. -/
def View.same : View → View → Bool
  | .mk s m ps, .mk t n qs =>
    s == t && m.kindName == n.kindName && sameAttributes m.attributes n.attributes
      && sameViews ps qs

/-- Whether two lists of views are the same but for spans. -/
def View.sameViews : List View → List View → Bool
  | [],      []      => true
  | v :: vs, w :: ws => v.same w && sameViews vs ws
  | _,       _       => false

end

/-- Whether two nodes are the same but for spans. -/
def AnyNode.same (m n : AnyNode) : Bool :=
  View.sameViews (m.node.views .root) (n.node.views .root)

end JavaSource
