import JavaSource.Syntax.Attribute
import JavaSource.Syntax.Check
import Mathlib.Data.List.Forall2

/-!
# Nodes that differ in nothing but spans

`Node.Alike` relates nodes that are made in the same way from alike parts; it has one rule for
each way to make a node.  Everything that is asked of a node has the same answer for an alike one
(`kindName_eq`, `isEmpty_eq` …), and alike nodes are the same to `AnyNode.same`
(`Node.Alike.same`).
-/

namespace JavaSource

open List (Forall₂)

/-- Values of literals that are of one kind and have the same attributes. -/
def LiteralValue.Same (v w : LiteralValue) : Prop :=
  v.kindName = w.kindName ∧ sameAttributes v.attributes w.attributes = true

/-- Nodes that differ in nothing but spans. -/
inductive Node.Alike : {c : Category} → Node c → Node c → Prop where
  | nil : Alike (.nil : Nodes c) .nil
  | cons (head : Alike a a') (tail : Alike b b') : Alike (.cons a b) (.cons a' b')
  | absent : Alike (.absent : OptNode c) .absent
  | present (value : Alike a a') : Alike (.present a) (.present a')
  -- names and literals
  | identifier : Alike (.identifier s x) (.identifier t x)
  | qualifiedName (identifiers : Alike a a') : Alike (.qualifiedName s a) (.qualifiedName t a')
  | literal (value : v.Same w) : Alike (.literal s v) (.literal t w)
  -- modifiers and annotations
  | keywordModifier : Alike (.keywordModifier s x) (.keywordModifier t x)
  | annotationModifier (inner : Alike a a') : Alike (.annotationModifier a) (.annotationModifier a')
  | annotationUse (name : Alike a a') (elements : Alike b b')
      : Alike (.annotationUse s a b) (.annotationUse t a' b')
  | elementValuePair (id : Alike a a') (value : Alike b b')
      : Alike (.elementValuePair s a b) (.elementValuePair t a' b')
  | valueElement (inner : Alike a a') : Alike (.valueElement a) (.valueElement a')
  | exprValue (inner : Alike a a') : Alike (.exprValue a) (.exprValue a')
  | annotationValue (inner : Alike a a') : Alike (.annotationValue a) (.annotationValue a')
  | elementValueArray (values : Alike a a')
      : Alike (.elementValueArray s a) (.elementValueArray t a')
  -- types and patterns
  | wordType (annotations : Alike a a') : Alike (.wordType s a x) (.wordType t a' x)
  | classType (annotations : Alike a a') (coits : Alike b b')
      : Alike (.classType s a b) (.classType t a' b')
  | arrayType (annotations : Alike a a') (elem : Alike b b') (dims : Alike d d')
      : Alike (.arrayType s a b d) (.arrayType t a' b' d')
  | wildcardType (annotations : Alike a a') (bound : Alike b b')
      : Alike (.wildcardType s a b) (.wildcardType t a' b')
  | coit (annotations : Alike a a') (id : Alike b b') (typeArgs : Alike d d')
      : Alike (.coit s a b d) (.coit t a' b' d')
  | wildcardBound (ty : Alike a a') : Alike (.wildcardBound s a x y) (.wildcardBound t a' x y)
  | typeArguments (types : Alike a a') : Alike (.typeArguments s a) (.typeArguments t a')
  | dim (annotations : Alike a a') : Alike (.dim s a) (.dim t a')
  | typeParameter (annotations : Alike a a') (id : Alike b b') (bound : Alike d d')
      : Alike (.typeParameter s a b d) (.typeParameter t a' b' d')
  | typeBound (annotations : Alike a a') (types : Alike b b')
      : Alike (.typeBound s a b) (.typeBound t a' b')
  | typeParameters (parameters : Alike a a') : Alike (.typeParameters s a) (.typeParameters t a')
  | pattern (modifiers : Alike a a') (ty : Alike b b') (annotations : Alike d d') (id : Alike e e')
      : Alike (.pattern s a b d e) (.pattern t a' b' d' e')
  | guardedPattern (pattern : Alike a a') (conditions : Alike b b')
      : Alike (.guardedPattern s a b) (.guardedPattern t a' b')
  | exprItem (inner : Alike a a') : Alike (.exprItem a) (.exprItem a')
  -- operators
  | binaryOperator : Alike (.binaryOperator x) (.binaryOperator x)
  | unaryOperator : Alike (.unaryOperator x) (.unaryOperator x)
  | postOperator : Alike (.postOperator x) (.postOperator x)
  | assignOperator : Alike (.assignOperator x) (.assignOperator x)
  -- expressions
  | name (id : Alike a a') : Alike (.name s a) (.name t a')
  | constant (value : Alike a a') : Alike (.constant s a) (.constant t a')
  | thisExpr (args : Alike a a') : Alike (.thisExpr s a) (.thisExpr t a')
  | superExpr (typeArgs : Alike a a') (id : Alike b b') (args : Alike d d')
      : Alike (.superExpr s a b d) (.superExpr t a' b' d')
  | classExpr (ty : Alike a a') : Alike (.classExpr s a) (.classExpr t a')
  | lambda (params : Alike a a') (body : Alike b b') : Alike (.lambda s a b) (.lambda t a' b')
  | assignment (target : Alike a a') (op : Alike b b') (value : Alike d d')
      : Alike (.assignment s a b d) (.assignment t a' b' d')
  | conditional (test : Alike a a') (body : Alike b b') (orelse : Alike d d')
      : Alike (.conditional s a b d) (.conditional t a' b' d')
  | binary (left : Alike a a') (op : Alike b b') (right : Alike d d')
      : Alike (.binary s a b d) (.binary t a' b' d')
  | instanceOf (value : Alike a a') (target : Alike b b')
      : Alike (.instanceOf s a b) (.instanceOf t a' b')
  | unary (op : Alike a a') (operand : Alike b b') : Alike (.unary s a b) (.unary t a' b')
  | post (operand : Alike a a') (op : Alike b b') : Alike (.post s a b) (.post t a' b')
  | cast (annotations : Alike a a') (ty : Alike b b') (value : Alike d d')
      : Alike (.cast s a b d) (.cast t a' b' d')
  | newObject (typeArgs : Alike a a') (ty : Alike b b') (args : Alike d d') (body : Alike e e')
      : Alike (.newObject s a b d e) (.newObject t a' b' d' e')
  | newInner (typeArgs : Alike a a') (id : Alike b b') (classTypeArgs : Alike d d')
      (args : Alike e e') (body : Alike f f')
      : Alike (.newInner s a b d e f) (.newInner t a' b' d' e' f')
  | newArray (ty : Alike a a') (exprDims : Alike b b') (dims : Alike d d') (init : Alike e e')
      : Alike (.newArray s a b d e) (.newArray t a' b' d' e')
  | switchExpr (value : Alike a a') (rules : Alike b b')
      : Alike (.switchExpr s a b) (.switchExpr t a' b')
  | call (func : Alike a a') (args : Alike b b') : Alike (.call s a b) (.call t a' b')
  | member (receiver : Alike a a') (member : Alike b b') : Alike (.member s a b) (.member t a' b')
  | index (receiver : Alike a a') (index : Alike b b') : Alike (.index s a b) (.index t a' b')
  | reference (target : Alike a a') (typeArgs : Alike b b') (id : Alike d d')
      : Alike (.reference s a b d x) (.reference t a' b' d' x)
  | genericCall (typeArgs : Alike a a') (value : Alike b b')
      : Alike (.genericCall s a b) (.genericCall t a' b')
  | arrayInit (inner : Alike a a') : Alike (.arrayInit a) (.arrayInit a')
  -- parts of expressions
  | singleParam (inner : Alike a a') : Alike (.singleParam a) (.singleParam a')
  | nameParams (inner : Alike a a') : Alike (.nameParams a) (.nameParams a')
  | formalParams (inner : Alike a a') : Alike (.formalParams a) (.formalParams a')
  | exprBody (inner : Alike a a') : Alike (.exprBody a) (.exprBody a')
  | blockBody (inner : Alike a a') : Alike (.blockBody a) (.blockBody a')
  | typeTarget (inner : Alike a a') : Alike (.typeTarget a) (.typeTarget a')
  | patternTarget (inner : Alike a a') : Alike (.patternTarget a) (.patternTarget a')
  | dimExpr (annotations : Alike a a') (expr : Alike b b')
      : Alike (.dimExpr s a b) (.dimExpr t a' b')
  | arrayInitializer (values : Alike a a') : Alike (.arrayInitializer s a) (.arrayInitializer t a')
  | switchRule (cases : Alike a a') (body : Alike b b')
      : Alike (.switchRule s x a y b) (.switchRule t x a' y b')
  | exprReference (inner : Alike a a') : Alike (.exprReference a) (.exprReference a')
  | typeReference (inner : Alike a a') : Alike (.typeReference a) (.typeReference a')
  -- statements
  | emptyStmt : Alike (.emptyStmt s) (.emptyStmt t)
  | blockStmt (inner : Alike a a') : Alike (.blockStmt a) (.blockStmt a')
  | localTypeStmt (decl : Alike a a') : Alike (.localTypeStmt s a) (.localTypeStmt t a')
  | localVariableStmt (inner : Alike a a') : Alike (.localVariableStmt a) (.localVariableStmt a')
  | labeledStmt (label : Alike a a') (body : Alike b b')
      : Alike (.labeledStmt s a b) (.labeledStmt t a' b')
  | exprStmt (value : Alike a a') : Alike (.exprStmt s a) (.exprStmt t a')
  | ifStmt (test : Alike a a') (body : Alike b b') (orelse : Alike d d')
      : Alike (.ifStmt s a b d) (.ifStmt t a' b' d')
  | assertStmt (test : Alike a a') (msg : Alike b b')
      : Alike (.assertStmt s a b) (.assertStmt t a' b')
  | switchStmt (value : Alike a a') (body : Alike b b')
      : Alike (.switchStmt s a b) (.switchStmt t a' b')
  | whileStmt (test : Alike a a') (body : Alike b b')
      : Alike (.whileStmt s a b) (.whileStmt t a' b')
  | doWhileStmt (body : Alike a a') (test : Alike b b')
      : Alike (.doWhileStmt s a b) (.doWhileStmt t a' b')
  | forStmt (init : Alike a a') (test : Alike b b') (update : Alike d d') (body : Alike e e')
      : Alike (.forStmt s a b d e) (.forStmt t a' b' d' e')
  | forEachStmt (modifiers : Alike a a') (ty : Alike b b') (id : Alike d d') (iter : Alike e e')
      (body : Alike f f') : Alike (.forEachStmt s a b d e f) (.forEachStmt t a' b' d' e' f')
  | breakStmt (label : Alike a a') : Alike (.breakStmt s a) (.breakStmt t a')
  | continueStmt (label : Alike a a') : Alike (.continueStmt s a) (.continueStmt t a')
  | returnStmt (value : Alike a a') : Alike (.returnStmt s a) (.returnStmt t a')
  | throwStmt (exc : Alike a a') : Alike (.throwStmt s a) (.throwStmt t a')
  | synchronizedStmt (lock : Alike a a') (body : Alike b b')
      : Alike (.synchronizedStmt s a b) (.synchronizedStmt t a' b')
  | yieldStmt (value : Alike a a') : Alike (.yieldStmt s a) (.yieldStmt t a')
  | tryStmt (body : Alike a a') (catches : Alike b b') (final : Alike d d')
      : Alike (.tryStmt s a b d) (.tryStmt t a' b' d')
  | tryResourcesStmt (resources : Alike a a') (body : Alike b b') (catches : Alike d d')
      (final : Alike e e') : Alike (.tryResourcesStmt s a b d e) (.tryResourcesStmt t a' b' d' e')
  -- parts of statements
  | block (body : Alike a a') : Alike (.block s a) (.block t a')
  | localVariables (modifiers : Alike a a') (ty : Alike b b') (declarators : Alike d d')
      : Alike (.localVariables s a b d) (.localVariables t a' b' d')
  | matchValue (ty : Alike a a') (id : Alike b b') : Alike (.matchValue s a b) (.matchValue t a' b')
  | exprCase (inner : Alike a a') : Alike (.exprCase a) (.exprCase a')
  | caseLabel (value : Alike a a') : Alike (.caseLabel s a) (.caseLabel t a')
  | defaultLabel : Alike (.defaultLabel s) (.defaultLabel t)
  | switchGroup (labels : Alike a a') (body : Alike b b')
      : Alike (.switchGroup s a b) (.switchGroup t a' b')
  | switchBlock (groups : Alike a a') (labels : Alike b b') (rules : Alike d d')
      : Alike (.switchBlock s a b d) (.switchBlock t a' b' d')
  | noInit : Alike .noInit .noInit
  | exprsInit (inner : Alike a a') : Alike (.exprsInit a) (.exprsInit a')
  | variablesInit (inner : Alike a a') : Alike (.variablesInit a) (.variablesInit a')
  | catchClause (modifiers : Alike a a') (exceptions : Alike b b') (id : Alike d d')
      (body : Alike e e') : Alike (.catchClause s a b d e) (.catchClause t a' b' d' e')
  | resource (modifiers : Alike a a') (ty : Alike b b') (declarator : Alike d d')
      : Alike (.resource s a b d) (.resource t a' b' d')
  | nameResource (inner : Alike a a') : Alike (.nameResource a) (.nameResource a')
  -- variables and parameters
  | variableDeclaratorId (id : Alike a a') (dims : Alike b b')
      : Alike (.variableDeclaratorId s a b) (.variableDeclaratorId t a' b')
  | variableDeclarator (id : Alike a a') (init : Alike b b')
      : Alike (.variableDeclarator s a b) (.variableDeclarator t a' b')
  | receiverParameter (ty : Alike a a') (identifiers : Alike b b')
      : Alike (.receiverParameter s a b) (.receiverParameter t a' b')
  | parameter (modifiers : Alike a a') (ty : Alike b b') (id : Alike d d')
      : Alike (.parameter s a b d) (.parameter t a' b' d')
  | variableArityParameter (modifiers : Alike a a') (ty : Alike b b') (annotations : Alike d d')
      (id : Alike e e')
      : Alike (.variableArityParameter s a b d e) (.variableArityParameter t a' b' d' e')
  | formalParameters (receiver : Alike a a') (params : Alike b b')
      : Alike (.formalParameters s a b) (.formalParameters t a' b')
  -- declarations
  | emptyDecl : Alike (.emptyDecl s) (.emptyDecl t)
  | fieldDecl (modifiers : Alike a a') (ty : Alike b b') (declarators : Alike d d')
      : Alike (.fieldDecl s a b d) (.fieldDecl t a' b' d')
  | methodDecl (modifiers : Alike a a') (typeParams : Alike b b') (annotations : Alike d d')
      (returnType : Alike e e') (id : Alike f f') (params : Alike g g') (dims : Alike h h')
      (throws : Alike i i') (body : Alike j j')
      : Alike (.methodDecl s a b d e f g h i j) (.methodDecl t a' b' d' e' f' g' h' i' j')
  | constructorDecl (modifiers : Alike a a') (typeParams : Alike b b') (id : Alike d d')
      (params : Alike e e') (throws : Alike f f') (body : Alike g g')
      : Alike (.constructorDecl s a b d e f g) (.constructorDecl t a' b' d' e' f' g')
  | compactConstructorDecl (modifiers : Alike a a') (id : Alike b b') (body : Alike d d')
      : Alike (.compactConstructorDecl s a b d) (.compactConstructorDecl t a' b' d')
  | initializerDecl (body : Alike a a') : Alike (.initializerDecl s a x) (.initializerDecl t a' x)
  | classDecl (modifiers : Alike a a') (id : Alike b b') (typeParams : Alike d d')
      (extend : Alike e e') (implement : Alike f f') (permit : Alike g g') (body : Alike h h')
      : Alike (.classDecl s a b d e f g h) (.classDecl t a' b' d' e' f' g' h')
  | interfaceDecl (modifiers : Alike a a') (id : Alike b b') (typeParams : Alike d d')
      (extend : Alike e e') (permit : Alike f f') (body : Alike g g')
      : Alike (.interfaceDecl s a b d e f g) (.interfaceDecl t a' b' d' e' f' g')
  | enumDecl (modifiers : Alike a a') (id : Alike b b') (implement : Alike d d')
      (constants : Alike e e') (body : Alike f f')
      : Alike (.enumDecl s a b d e f) (.enumDecl t a' b' d' e' f')
  | recordDecl (modifiers : Alike a a') (id : Alike b b') (typeParams : Alike d d')
      (components : Alike e e') (implement : Alike f f') (body : Alike g g')
      : Alike (.recordDecl s a b d e f g) (.recordDecl t a' b' d' e' f' g')
  | annotationDecl (modifiers : Alike a a') (id : Alike b b') (body : Alike d d')
      : Alike (.annotationDecl s a b d) (.annotationDecl t a' b' d')
  | elementDecl (modifiers : Alike a a') (ty : Alike b b') (id : Alike d d') (value : Alike e e')
      : Alike (.elementDecl s a b d e) (.elementDecl t a' b' d' e')
  -- parts of declarations
  | enumConstant (annotations : Alike a a') (id : Alike b b') (args : Alike d d')
      (body : Alike e e') : Alike (.enumConstant s a b d e) (.enumConstant t a' b' d' e')
  | recordComponent (annotations : Alike a a') (ty : Alike b b') (id : Alike d d')
      : Alike (.recordComponent s a b x d) (.recordComponent t a' b' x d')
  -- compilation units and modules
  | packageDecl (annotations : Alike a a') (name : Alike b b')
      : Alike (.packageDecl s a b) (.packageDecl t a' b')
  | importDecl (name : Alike a a') : Alike (.importDecl s x a y) (.importDecl t x a' y)
  | requiresDirective (modifiers : Alike a a') (name : Alike b b')
      : Alike (.requiresDirective s a b) (.requiresDirective t a' b')
  | exportsDirective (name : Alike a a') (targets : Alike b b')
      : Alike (.exportsDirective s a b) (.exportsDirective t a' b')
  | opensDirective (name : Alike a a') (targets : Alike b b')
      : Alike (.opensDirective s a b) (.opensDirective t a' b')
  | usesDirective (name : Alike a a') : Alike (.usesDirective s a) (.usesDirective t a')
  | providesDirective (name : Alike a a') (providers : Alike b b')
      : Alike (.providesDirective s a b) (.providesDirective t a' b')
  | moduleDecl (annotations : Alike a a') (name : Alike b b') (directives : Alike d d')
      : Alike (.moduleDecl s a x b d) (.moduleDecl t a' x b' d')
  | ordinaryUnit (package : Alike a a') (imports : Alike b b') (declarations : Alike d d')
      : Alike (.ordinaryUnit s a b d) (.ordinaryUnit t a' b' d')
  | modularUnit (imports : Alike a a') (module : Alike b b')
      : Alike (.modularUnit s a b) (.modularUnit t a' b')

/-! ### What is asked of a node -/

namespace Node.Alike

variable {c : Category}

theorem isEmpty_eq {m n : Nodes c} (h : Alike m n) : m.isEmpty = n.isEmpty := by
  cases h <;> rfl

theorem isSome_eq {m n : OptNode c} (h : Alike m n) : m.isSome = n.isSome := by
  cases h <;> rfl

theorem kindName_eq {m n : Node c} (h : Alike m n) : m.kindName = n.kindName := by
  induction h <;> first | rfl | assumption | exact And.left ‹_›

theorem isPrimitive_eq {m n : TypeNode} (h : Alike m n) : m.isPrimitive = n.isPrimitive := by
  cases h <;> rfl

theorem isPrimitiveBound_eq {m n : Node .typeBound} (h : Alike m n) :
    m.isPrimitiveBound = n.isPrimitiveBound := by
  cases h with
  | typeBound _ types =>
    cases types with
    | nil => rfl
    | cons head tail =>
      cases tail with
      | nil => exact head.isPrimitive_eq
      | cons => rfl

theorem paramsForm_eq {m n : Node .lambdaParams} (h : Alike m n) :
    m.paramsForm = n.paramsForm := by
  cases h <;> rfl

theorem initForm_eq {m n : Node .forInit} (h : Alike m n) : m.initForm = n.initForm := by
  cases h <;> rfl

theorem isBare_eq {m n : Node .formalParameters} (h : Alike m n) : m.isBare = n.isBare := by
  cases h with
  | formalParameters receiver params => cases receiver <;> cases params <;> rfl

end Node.Alike

/-! ### What is made of a node -/

namespace Node.Alike

variable {c : Category}

theorem ofList {ms ns : List (Node c)} (h : Forall₂ Alike ms ns) :
    Alike (Node.ofList ms) (Node.ofList ns) := by
  induction h with
  | nil => exact .nil
  | cons hhead _ ih => exact .cons hhead ih

theorem toList {ms ns : Nodes c} : Alike ms ns → Forall₂ Alike ms.toList ns.toList
  | .nil            => .nil
  | .cons head tail => .cons head tail.toList

theorem append {ms ms' ns ns' : Nodes c} (h : Alike ms ns) (h' : Alike ms' ns') :
    Alike (ms.append ms') (ns.append ns') := by
  have hlists := h.toList
  unfold Node.append
  generalize ms.toList = as, ns.toList = bs at hlists
  induction hlists with
  | nil => exact h'
  | cons hhead _ ih => exact .cons hhead ih

theorem ofOption {m? n? : Option (Node c)} (h : Option.Rel Alike m? n?) :
    Alike (Node.ofOption m?) (Node.ofOption n?) := by
  cases h with
  | none => exact .absent
  | some h => exact .present h

variable {span span' : Option Text.Span}

theorem typeAnnotations {m n : TypeNode} (h : Alike m n) :
    Alike m.typeAnnotations n.typeAnnotations := by
  cases h <;> assumption

theorem annotatedWith {m n : TypeNode} {as bs : Nodes .annotationUse} (h : Alike m n)
    (has : Alike as bs) : Alike (m.annotatedWith span as) (n.annotatedWith span' bs) := by
  cases h <;> constructor <;> assumption

theorem declAt {m n : Decl} (h : Alike m n) : Alike (m.declAt span) (n.declAt span') := by
  cases h <;> constructor <;> assumption

theorem withModifiers? {m n : Decl} {ms ns : Nodes .modifier} (h : Alike m n)
    (hms : Alike ms ns) : Option.Rel Alike (m.withModifiers? ms) (n.withModifiers? ns) := by
  cases h <;> first | exact .none | exact .some (by constructor <;> assumption)

theorem localVariablesAt {m n : Node .localVariables} (h : Alike m n) :
    Alike (m.localVariablesAt span) (n.localVariablesAt span') := by
  cases h
  constructor <;> assumption

theorem isTypeDeclaration_eq {m n : Decl} (h : Alike m n) :
    m.isTypeDeclaration = n.isTypeDeclaration := by
  cases h <;> rfl

/-! ### Rules about one node -/

theorem lacking?_eq {node field : String} {ms ns : Nodes c} (h : Alike ms ns) :
    lacking? node field ms = lacking? node field ns := by
  rw [lacking?, lacking?, h.isEmpty_eq]

theorem annotated?_eq {node : String} {m n : TypeNode} (h : Alike m n) :
    annotated? node m = annotated? node n := by
  rw [annotated?, annotated?, h.typeAnnotations.isEmpty_eq]

theorem mixture?_eq {m n : Node .switchBlock} (h : Alike m n) : m.mixture? = n.mixture? := by
  cases h with
  | switchBlock groups labels rules =>
    rw [mixture?, mixture?, groups.isEmpty_eq, labels.isEmpty_eq, rules.isEmpty_eq]

/-- Alike nodes break the same rule about their kind. -/
theorem flaw?_eq {m n : Node c} (h : Alike m n) : m.flaw? = n.flaw? := by
  unfold flaw?
  cases h with
  | qualifiedName h | typeParameters h => exact h.lacking?_eq
  | classType _ h | typeBound _ h | providesDirective _ h => exact h.lacking?_eq
  | arrayType _ _ h | localVariables _ _ h => exact h.lacking?_eq
  | tryResourcesStmt h => exact h.lacking?_eq
  | catchClause _ h => exact h.lacking?_eq
  | lambda params _ =>
    cases params with
    | formalParams inner =>
      cases inner with
      | formalParameters receiver _ => cases receiver <;> rfl
    | _ => rfl
  | newArray _ exprDims dims init =>
    simp only [sizing?, init.isSome_eq, exprDims.isEmpty_eq, dims.lacking?_eq]
  | reference _ _ id => simp only [id.isSome_eq]
  | localTypeStmt decl => simp only [decl.isTypeDeclaration_eq, decl.kindName_eq]
  | switchStmt _ body => exact body.mixture?_eq
  | switchGroup labels body => simp only [labels.lacking?_eq, body.lacking?_eq]
  | tryStmt _ catches final => cases catches <;> cases final <;> rfl
  | fieldDecl _ ty ds => simp only [ty.annotated?_eq, ds.lacking?_eq]
  | elementDecl _ ty => exact ty.annotated?_eq
  | _ => rfl

end Node.Alike

/-! ### The same views -/

theorem Attribute.same_flag (b : Bool) : (flag b).same (flag b) = true := beq_self_eq_true _

theorem Attribute.same_text (s : String) : (text s).same (text s) = true := beq_self_eq_true _

namespace View

theorem sameViews_append {vs vs' ws ws' : List View} (h : sameViews vs vs' = true)
    (h' : sameViews ws ws' = true) : sameViews (vs ++ ws) (vs' ++ ws') = true := by
  induction vs generalizing vs' with
  | nil =>
    cases vs' with
    | nil => exact h'
    | cons v' vs' => cases h
  | cons v vs ih =>
    cases vs' with
    | nil => cases h
    | cons v' vs' =>
      obtain ⟨hhead, htail⟩ := (Bool.and_eq_true ..).mp h
      exact (Bool.and_eq_true ..).mpr ⟨hhead, ih htail⟩

end View

namespace Node.Alike

variable {c : Category}

/-- Alike nodes have the same attributes. -/
theorem sameAttributes {m n : Node c} (h : Alike m n) :
    JavaSource.sameAttributes m.attributes n.attributes = true := by
  have hflag := Attribute.same_flag
  have htext := Attribute.same_text
  have hone (field : String) {a b : Attribute} (h : a.same b = true) :
      JavaSource.sameAttributes [(field, a)] [(field, b)] = true := by
    simp only [JavaSource.sameAttributes, h, beq_self_eq_true, Bool.and_self]
  have htwo (field field' : String) {a b a' b' : Attribute} (h : a.same b = true)
      (h' : a'.same b' = true) :
      JavaSource.sameAttributes [(field, a), (field', a')] [(field, b), (field', b')] = true := by
    simp only [JavaSource.sameAttributes, h, h', beq_self_eq_true, Bool.and_self]
  unfold attributes
  cases h with
  | literal value => exact value.2
  | typeArguments types => exact hone _ (types.isEmpty_eq ▸ hflag _)
  | thisExpr args => exact hone _ (args.isSome_eq ▸ hflag _)
  | superExpr _ _ args => exact hone _ (args.isSome_eq ▸ hflag _)
  | newObject _ _ _ body => exact hone _ (body.isSome_eq ▸ hflag _)
  | newInner _ _ _ _ body => exact hone _ (body.isSome_eq ▸ hflag _)
  | enumConstant _ _ args body =>
    exact htwo _ _ (args.isSome_eq ▸ hflag _) (body.isSome_eq ▸ hflag _)
  | cast _ ty _ => exact hone _ (ty.isPrimitiveBound_eq ▸ hflag _)
  | lambda params _ => exact hone _ (params.paramsForm_eq ▸ htext _)
  | forStmt init => exact hone _ (init.initForm_eq ▸ htext _)
  | wordType | classType | arrayType | wildcardType => exact hone _ (hflag _)
  | identifier => exact hone _ (htext _)
  | reference | initializerDecl | recordComponent | moduleDecl => exact hone _ (hflag _)
  | wildcardBound | switchRule | importDecl => exact htwo _ _ (hflag _) (hflag _)
  | _ => rfl

/-- One view each. -/
theorem sameViews_mk {m n : Node c} (h : Alike m n) {ps qs : List View} (slot : Slot)
    (hparts : View.sameViews ps qs = true) :
    View.sameViews [.mk slot m ps] [.mk slot n qs] = true := by
  simp only [View.sameViews, View.same, h.kindName_eq, h.sameAttributes, hparts,
    beq_self_eq_true, Bool.and_self]

/-- Parameters that are not shown if there are none. -/
theorem sameViews_unlessBare {m n : Node .formalParameters} {slot : Slot} (h : Alike m n)
    (hviews : View.sameViews (m.views slot) (n.views slot) = true) :
    View.sameViews (if m.isBare then [] else m.views slot) (if n.isBare then [] else n.views slot)
      = true := by
  rw [h.isBare_eq]
  split
  · rfl
  · exact hviews

/-- Alike nodes in one place have the same views but for spans. -/
theorem sameViews {m n : Node c} (h : Alike m n) (slot : Slot) :
    View.sameViews (m.views slot) (n.views slot) = true := by
  have halike := h
  induction h generalizing slot with
  | nil | absent | noInit => rfl
  | cons head tail hhead htail => exact View.sameViews_append (hhead _ head) (htail _ tail)
  -- What stands for what was chosen.
  | present h ih | annotationModifier h ih | valueElement h ih | exprValue h ih
  | annotationValue h ih | exprItem h ih | arrayInit h ih | singleParam h ih | nameParams h ih
  | formalParams h ih | exprBody h ih | blockBody h ih | typeTarget h ih | patternTarget h ih
  | exprReference h ih | typeReference h ih | blockStmt h ih | localVariableStmt h ih
  | exprCase h ih | exprsInit h ih | variablesInit h ih | nameResource h ih => exact ih slot h
  | _ =>
    refine halike.sameViews_mk slot ?_
    repeat' first | simp only [*] | apply View.sameViews_append
    all_goals first | rfl | exact sameViews_unlessBare ‹_› (by simp only [*])

/-- **Alike nodes are the same but for spans.** -/
theorem same {m n : Node c} (h : Alike m n) : AnyNode.same ⟨c, m⟩ ⟨c, n⟩ = true :=
  h.sameViews .root

end Node.Alike

end JavaSource
