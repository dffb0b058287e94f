import JavaSource.Syntax.Node

/-!
# Syntax — Shared

What nodes have in common, whatever their kind: their span, the modifiers of a declaration, the
annotations of a type.
-/

namespace JavaSource

open Text (Span)

/-! ### Spans -/

/-- Where a node was read from; a choice was read where what was chosen was. -/
def Node.span : {c : Category} → Node c → Option Span
  | _, .identifier s .. | _, .qualifiedName s .. | _, .literal s .. | _, .keywordModifier s ..
  | _, .annotationUse s .. | _, .elementValuePair s .. | _, .elementValueArray s ..
  | _, .wordType s .. | _, .classType s .. | _, .arrayType s .. | _, .wildcardType s ..
  | _, .coit s .. | _, .wildcardBound s .. | _, .typeArguments s .. | _, .dim s ..
  | _, .typeParameter s .. | _, .typeBound s .. | _, .typeParameters s .. | _, .pattern s ..
  | _, .guardedPattern s .. | _, .name s .. | _, .constant s .. | _, .thisExpr s ..
  | _, .superExpr s .. | _, .classExpr s .. | _, .lambda s .. | _, .assignment s ..
  | _, .conditional s .. | _, .binary s .. | _, .instanceOf s .. | _, .unary s .. | _, .post s ..
  | _, .cast s .. | _, .newObject s .. | _, .newInner s .. | _, .newArray s ..
  | _, .switchExpr s .. | _, .call s .. | _, .member s .. | _, .index s .. | _, .reference s ..
  | _, .genericCall s .. | _, .dimExpr s .. | _, .arrayInitializer s .. | _, .switchRule s ..
  | _, .emptyStmt s | _, .localTypeStmt s .. | _, .labeledStmt s .. | _, .exprStmt s ..
  | _, .ifStmt s .. | _, .assertStmt s .. | _, .switchStmt s .. | _, .whileStmt s ..
  | _, .doWhileStmt s .. | _, .forStmt s .. | _, .forEachStmt s .. | _, .breakStmt s ..
  | _, .continueStmt s .. | _, .returnStmt s .. | _, .throwStmt s .. | _, .synchronizedStmt s ..
  | _, .yieldStmt s .. | _, .tryStmt s .. | _, .tryResourcesStmt s .. | _, .block s ..
  | _, .localVariables s .. | _, .matchValue s .. | _, .caseLabel s .. | _, .defaultLabel s
  | _, .switchGroup s .. | _, .switchBlock s .. | _, .catchClause s .. | _, .resource s ..
  | _, .variableDeclaratorId s .. | _, .variableDeclarator s .. | _, .receiverParameter s ..
  | _, .parameter s .. | _, .variableArityParameter s .. | _, .formalParameters s ..
  | _, .emptyDecl s | _, .fieldDecl s .. | _, .methodDecl s .. | _, .constructorDecl s ..
  | _, .compactConstructorDecl s .. | _, .initializerDecl s .. | _, .classDecl s ..
  | _, .interfaceDecl s .. | _, .enumDecl s .. | _, .recordDecl s .. | _, .annotationDecl s ..
  | _, .elementDecl s .. | _, .enumConstant s .. | _, .recordComponent s .. | _, .packageDecl s ..
  | _, .importDecl s .. | _, .requiresDirective s .. | _, .exportsDirective s ..
  | _, .opensDirective s .. | _, .usesDirective s .. | _, .providesDirective s ..
  | _, .moduleDecl s .. | _, .ordinaryUnit s .. | _, .modularUnit s .. => s
  | _, .annotationModifier n => n.span
  | _, .valueElement n => n.span
  | _, .exprValue n => n.span
  | _, .annotationValue n => n.span
  | _, .exprItem n => n.span
  | _, .arrayInit n => n.span
  | _, .singleParam n => n.span
  | _, .formalParams n => n.span
  | _, .exprBody n => n.span
  | _, .blockBody n => n.span
  | _, .typeTarget n => n.span
  | _, .patternTarget n => n.span
  | _, .exprReference n => n.span
  | _, .typeReference n => n.span
  | _, .blockStmt n => n.span
  | _, .localVariableStmt n => n.span
  | _, .exprCase n => n.span
  | _, .variablesInit n => n.span
  | _, .nameResource n => n.span
  | _, _ => none

/-! ### Declarations -/

/-- Whether a declaration declares a type. -/
def Node.isTypeDeclaration : Decl → Bool
  | .classDecl .. | .interfaceDecl .. | .enumDecl .. | .recordDecl .. | .annotationDecl .. => true
  | _ => false

/-- The modifiers of a declaration, if it can have any. -/
def Node.modifiers? : Decl → Option (Nodes .modifier)
  | .fieldDecl _ ms .. | .methodDecl _ ms .. | .constructorDecl _ ms ..
  | .compactConstructorDecl _ ms .. | .classDecl _ ms .. | .interfaceDecl _ ms ..
  | .enumDecl _ ms .. | .recordDecl _ ms .. | .annotationDecl _ ms .. | .elementDecl _ ms .. =>
    some ms
  | .emptyDecl _ | .initializerDecl .. => none

/-- A declaration with other modifiers, if it can have any. -/
def Node.withModifiers? (d : Decl) (ms : Nodes .modifier) : Option Decl :=
  match d with
  | .fieldDecl s _ ty ds => some (.fieldDecl s ms ty ds)
  | .methodDecl s _ ts as ty id ps ds th body => some (.methodDecl s ms ts as ty id ps ds th body)
  | .constructorDecl s _ ts id ps th body => some (.constructorDecl s ms ts id ps th body)
  | .compactConstructorDecl s _ id body => some (.compactConstructorDecl s ms id body)
  | .classDecl s _ id ts ex im pe body => some (.classDecl s ms id ts ex im pe body)
  | .interfaceDecl s _ id ts ex pe body => some (.interfaceDecl s ms id ts ex pe body)
  | .enumDecl s _ id im cs body => some (.enumDecl s ms id im cs body)
  | .recordDecl s _ id ts cs im body => some (.recordDecl s ms id ts cs im body)
  | .annotationDecl s _ id body => some (.annotationDecl s ms id body)
  | .elementDecl s _ ty id value => some (.elementDecl s ms ty id value)
  | .emptyDecl _ | .initializerDecl .. => none

/-- A declaration with a span in place of its own. -/
def Node.declAt (s : Option Span) : Decl → Decl
  | .emptyDecl _ => .emptyDecl s
  | .fieldDecl _ ms ty ds => .fieldDecl s ms ty ds
  | .methodDecl _ ms ts as ty id ps ds th body => .methodDecl s ms ts as ty id ps ds th body
  | .constructorDecl _ ms ts id ps th body => .constructorDecl s ms ts id ps th body
  | .compactConstructorDecl _ ms id body => .compactConstructorDecl s ms id body
  | .initializerDecl _ body isStatic => .initializerDecl s body isStatic
  | .classDecl _ ms id ts ex im pe body => .classDecl s ms id ts ex im pe body
  | .interfaceDecl _ ms id ts ex pe body => .interfaceDecl s ms id ts ex pe body
  | .enumDecl _ ms id im cs body => .enumDecl s ms id im cs body
  | .recordDecl _ ms id ts cs im body => .recordDecl s ms id ts cs im body
  | .annotationDecl _ ms id body => .annotationDecl s ms id body
  | .elementDecl _ ms ty id value => .elementDecl s ms ty id value

/-- Variables with a span in place of their own. -/
def Node.localVariablesAt (span : Option Span) : Node .localVariables → Node .localVariables
  | .localVariables _ modifiers ty declarators => .localVariables span modifiers ty declarators

/-! ### Types -/

/-- The annotations on a type as a whole. -/
def Node.typeAnnotations : TypeNode → Nodes .annotationUse
  | .wordType _ as _ | .classType _ as _ | .arrayType _ as .. | .wildcardType _ as _ => as

/-- A type with a span and annotations in place of its own. -/
def Node.annotatedWith (ty : TypeNode) (span : Option Span) (as : Nodes .annotationUse) :
    TypeNode :=
  match ty with
  | .wordType _ _ word     => .wordType span as word
  | .classType _ _ coits   => .classType span as coits
  | .arrayType _ _ el dims => .arrayType span as el dims
  | .wildcardType _ _ b    => .wildcardType span as b

end JavaSource
