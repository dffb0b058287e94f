import JavaSource.Syntax.Operator
import JavaSource.Syntax.Leaf
import JavaSource.Text.Span

/-!
# Syntax — Node

The abstract syntax.  Nodes are sorted by category: what may stand in a place is a category, and
lists and options of nodes are nodes too.  A node has the span it was read from, or none if it was
made by hand; then come its parts in the order in which they are written.

Where a category offers a choice, a node of another category enters it under a constructor
without a span, such as a block among statements.
-/

namespace JavaSource

open Text (Span)

/-- What may stand in a place. -/
inductive Category where
  /-- Any number of nodes. -/
  | list (of : Category)
  /-- A node or none. -/
  | opt (of : Category)
  | identifier | qualifiedName | literal | modifier | annotationUse | annotationElement
  | elementValue | type | coit | wildcardBound | typeArguments | dim | typeParameter | typeBound
  | typeParameters | pattern | caseItem | binaryOperator | unaryOperator | postOperator
  | assignOperator | expr | lambdaParams | lambdaBody | instanceOfTarget | dimExpr
  | arrayInitializer | switchRule | referenceTarget | stmt | block | localVariables | caseValue
  | switchLabel | switchGroup | switchBlock | forInit | catchClause | tryResource
  | variableDeclaratorId | variableDeclarator | receiverParameter | formalParameter
  | formalParameters | decl | enumConstant | recordComponent | packageDecl | importDecl
  | directive | moduleDecl | compilationUnit
  deriving DecidableEq, Repr

/-- A node of the abstract syntax. -/
inductive Node : Category → Type where
  | nil {c : Category} : Node (.list c)
  | cons {c : Category} (head : Node c) (tail : Node (.list c)) : Node (.list c)
  | absent {c : Category} : Node (.opt c)
  | present {c : Category} (value : Node c) : Node (.opt c)
  -- names and literals
  /-- A name. -/
  | identifier (span : Option Span) (name : String) : Node .identifier
  /-- `a.b.c` -/
  | qualifiedName (span : Option Span) (identifiers : Node (.list .identifier))
      : Node .qualifiedName
  /-- A literal. -/
  | literal (span : Option Span) (value : LiteralValue) : Node .literal
  -- modifiers and annotations
  /-- `final` -/
  | keywordModifier (span : Option Span) (word : ModifierWord) : Node .modifier
  /-- An annotation among modifiers. -/
  | annotationModifier (inner : Node .annotationUse) : Node .modifier
  /-- `@a.B(c = 1)`; without elements there are no parentheses. -/
  | annotationUse (span : Option Span) (name : Node .qualifiedName)
      (elements : Node (.list .annotationElement)) : Node .annotationUse
  /-- `c = 1` -/
  | elementValuePair (span : Option Span) (id : Node .identifier) (value : Node .elementValue)
      : Node .annotationElement
  /-- A value alone. -/
  | valueElement (inner : Node .elementValue) : Node .annotationElement
  /-- An expression as a value. -/
  | exprValue (inner : Node .expr) : Node .elementValue
  /-- An annotation as a value. -/
  | annotationValue (inner : Node .annotationUse) : Node .elementValue
  /-- `{1, 2}` -/
  | elementValueArray (span : Option Span) (values : Node (.list .elementValue))
      : Node .elementValue
  -- types and patterns
  /-- A type with a word of its own. -/
  | wordType (span : Option Span) (annotations : Node (.list .annotationUse)) (word : TypeWord)
      : Node .type
  /-- `@A b.C<D>` -/
  | classType (span : Option Span) (annotations : Node (.list .annotationUse))
      (coits : Node (.list .coit)) : Node .type
  /-- `T[][]` -/
  | arrayType (span : Option Span) (annotations : Node (.list .annotationUse)) (elem : Node .type)
      (dims : Node (.list .dim)) : Node .type
  /-- `? extends T` -/
  | wildcardType (span : Option Span) (annotations : Node (.list .annotationUse))
      (bound : Node (.opt .wildcardBound)) : Node .type
  /-- `@A B<C>`, a part of a class type. -/
  | coit (span : Option Span) (annotations : Node (.list .annotationUse)) (id : Node .identifier)
      (typeArgs : Node (.opt .typeArguments)) : Node .coit
  /-- `extends T` or `super T` -/
  | wildcardBound (span : Option Span) (ty : Node .type) (isExtends isSuper : Bool)
      : Node .wildcardBound
  /-- `<A, B>`; without types it is the diamond. -/
  | typeArguments (span : Option Span) (types : Node (.list .type)) : Node .typeArguments
  /-- `@A []` -/
  | dim (span : Option Span) (annotations : Node (.list .annotationUse)) : Node .dim
  /-- `@A T extends B` -/
  | typeParameter (span : Option Span) (annotations : Node (.list .annotationUse))
      (id : Node .identifier) (bound : Node (.opt .typeBound)) : Node .typeParameter
  /-- `A & B` -/
  | typeBound (span : Option Span) (annotations : Node (.list .annotationUse))
      (types : Node (.list .type)) : Node .typeBound
  /-- `<A, B extends C>` -/
  | typeParameters (span : Option Span) (parameters : Node (.list .typeParameter))
      : Node .typeParameters
  /-- `final T x` -/
  | pattern (span : Option Span) (modifiers : Node (.list .modifier)) (ty : Node .type)
      (annotations : Node (.list .annotationUse)) (id : Node .identifier) : Node .pattern
  /-- A pattern, and conditions that must hold. -/
  | guardedPattern (span : Option Span) (pattern : Node .pattern)
      (conditions : Node (.list .expr)) : Node .caseItem
  /-- An expression after `case`. -/
  | exprItem (inner : Node .expr) : Node .caseItem
  -- operators
  /-- An operator between operands. -/
  | binaryOperator (op : BinaryOp) : Node .binaryOperator
  /-- An operator before its operand. -/
  | unaryOperator (op : UnaryOp) : Node .unaryOperator
  /-- An operator behind its operand. -/
  | postOperator (op : PostOp) : Node .postOperator
  /-- The operator of a compound assignment. -/
  | assignOperator (op : AssignOp) : Node .assignOperator
  -- expressions
  /-- `a` -/
  | name (span : Option Span) (id : Node .identifier) : Node .expr
  /-- A literal as an expression. -/
  | constant (span : Option Span) (value : Node .literal) : Node .expr
  /-- `this`, or `this(a)` with arguments. -/
  | thisExpr (span : Option Span) (args : Node (.opt (.list .expr))) : Node .expr
  /-- `super`, `super(a)` or `super.<T>b(c)` -/
  | superExpr (span : Option Span) (typeArgs : Node (.opt .typeArguments))
      (id : Node (.opt .identifier)) (args : Node (.opt (.list .expr))) : Node .expr
  /-- `T.class` -/
  | classExpr (span : Option Span) (ty : Node .type) : Node .expr
  /-- `x -> y` -/
  | lambda (span : Option Span) (params : Node .lambdaParams) (body : Node .lambdaBody)
      : Node .expr
  /-- `a = b`, or `a += b` with an operator. -/
  | assignment (span : Option Span) (target : Node .expr) (op : Node (.opt .assignOperator))
      (value : Node .expr) : Node .expr
  /-- `a ? b : c` -/
  | conditional (span : Option Span) (test body orelse : Node .expr) : Node .expr
  /-- `a + b` -/
  | binary (span : Option Span) (left : Node .expr) (op : Node .binaryOperator)
      (right : Node .expr) : Node .expr
  /-- `a instanceof T` -/
  | instanceOf (span : Option Span) (value : Node .expr) (target : Node .instanceOfTarget)
      : Node .expr
  /-- `-a` -/
  | unary (span : Option Span) (op : Node .unaryOperator) (operand : Node .expr) : Node .expr
  /-- `a++` -/
  | post (span : Option Span) (operand : Node .expr) (op : Node .postOperator) : Node .expr
  /-- `(@A T & U) a` -/
  | cast (span : Option Span) (annotations : Node (.list .annotationUse)) (ty : Node .typeBound)
      (value : Node .expr) : Node .expr
  /-- `new <T> A(b) { … }` -/
  | newObject (span : Option Span) (typeArgs : Node (.opt .typeArguments)) (ty : Node .type)
      (args : Node (.list .expr)) (body : Node (.opt (.list .decl))) : Node .expr
  /-- `new <T> A<U>(b) { … }` behind an object and a dot. -/
  | newInner (span : Option Span) (typeArgs : Node (.opt .typeArguments)) (id : Node .identifier)
      (classTypeArgs : Node (.opt .typeArguments)) (args : Node (.list .expr))
      (body : Node (.opt (.list .decl))) : Node .expr
  /-- `new T[a][]` or `new T[] {a}` -/
  | newArray (span : Option Span) (ty : Node .type) (exprDims : Node (.list .dimExpr))
      (dims : Node (.list .dim)) (init : Node (.opt .arrayInitializer)) : Node .expr
  /-- `switch (a) { … }` as an expression. -/
  | switchExpr (span : Option Span) (value : Node .expr) (rules : Node (.list .switchRule))
      : Node .expr
  /-- `f(a)` -/
  | call (span : Option Span) (func : Node .expr) (args : Node (.list .expr)) : Node .expr
  /-- `a.b` -/
  | member (span : Option Span) (receiver member : Node .expr) : Node .expr
  /-- `a[b]` -/
  | index (span : Option Span) (receiver index : Node .expr) : Node .expr
  /-- `a::b` or `T::new` -/
  | reference (span : Option Span) (target : Node .referenceTarget)
      (typeArgs : Node (.opt .typeArguments)) (id : Node (.opt .identifier)) (isNew : Bool)
      : Node .expr
  /-- `<T>f(a)` -/
  | genericCall (span : Option Span) (typeArgs : Node .typeArguments) (value : Node .expr)
      : Node .expr
  /-- `{a, b}` where a variable gets its value. -/
  | arrayInit (inner : Node .arrayInitializer) : Node .expr
  -- parts of expressions
  /-- `x` -/
  | singleParam (inner : Node .identifier) : Node .lambdaParams
  /-- `(x, y)` -/
  | nameParams (inner : Node (.list .identifier)) : Node .lambdaParams
  /-- `(T x, U y)` -/
  | formalParams (inner : Node .formalParameters) : Node .lambdaParams
  /-- An expression as a body. -/
  | exprBody (inner : Node .expr) : Node .lambdaBody
  /-- A block as a body. -/
  | blockBody (inner : Node .block) : Node .lambdaBody
  /-- `T` -/
  | typeTarget (inner : Node .type) : Node .instanceOfTarget
  /-- `T x` -/
  | patternTarget (inner : Node .pattern) : Node .instanceOfTarget
  /-- `[a]` -/
  | dimExpr (span : Option Span) (annotations : Node (.list .annotationUse)) (expr : Node .expr)
      : Node .dimExpr
  /-- `{a, b}` -/
  | arrayInitializer (span : Option Span) (values : Node (.list .expr)) : Node .arrayInitializer
  /-- `case a, b -> c`, with a colon if there is no arrow. -/
  | switchRule (span : Option Span) (isDefault : Bool) (cases : Node (.list .caseItem))
      (isArrow : Bool) (body : Node (.list .stmt)) : Node .switchRule
  /-- An expression before `::`. -/
  | exprReference (inner : Node .expr) : Node .referenceTarget
  /-- A type before `::`. -/
  | typeReference (inner : Node .type) : Node .referenceTarget
  -- statements
  /-- `;` -/
  | emptyStmt (span : Option Span) : Node .stmt
  /-- A block among statements. -/
  | blockStmt (inner : Node .block) : Node .stmt
  /-- A type declared in a block. -/
  | localTypeStmt (span : Option Span) (decl : Node .decl) : Node .stmt
  /-- Variables declared in a block. -/
  | localVariableStmt (inner : Node .localVariables) : Node .stmt
  /-- `a: …` -/
  | labeledStmt (span : Option Span) (label : Node .identifier) (body : Node .stmt) : Node .stmt
  /-- `a;` -/
  | exprStmt (span : Option Span) (value : Node .expr) : Node .stmt
  /-- `if (a) … else …` -/
  | ifStmt (span : Option Span) (test : Node .expr) (body : Node .stmt)
      (orelse : Node (.opt .stmt)) : Node .stmt
  /-- `assert a : b;` -/
  | assertStmt (span : Option Span) (test : Node .expr) (msg : Node (.opt .expr)) : Node .stmt
  /-- `switch (a) { … }` -/
  | switchStmt (span : Option Span) (value : Node .expr) (body : Node .switchBlock) : Node .stmt
  /-- `while (a) …` -/
  | whileStmt (span : Option Span) (test : Node .expr) (body : Node .stmt) : Node .stmt
  /-- `do … while (a);` -/
  | doWhileStmt (span : Option Span) (body : Node .stmt) (test : Node .expr) : Node .stmt
  /-- `for (a; b; c) …` -/
  | forStmt (span : Option Span) (init : Node .forInit) (test : Node (.opt .expr))
      (update : Node (.list .expr)) (body : Node .stmt) : Node .stmt
  /-- `for (T x : a) …` -/
  | forEachStmt (span : Option Span) (modifiers : Node (.list .modifier)) (ty : Node .type)
      (id : Node .variableDeclaratorId) (iter : Node .expr) (body : Node .stmt) : Node .stmt
  /-- `break a;` -/
  | breakStmt (span : Option Span) (label : Node (.opt .identifier)) : Node .stmt
  /-- `continue a;` -/
  | continueStmt (span : Option Span) (label : Node (.opt .identifier)) : Node .stmt
  /-- `return a;` -/
  | returnStmt (span : Option Span) (value : Node (.opt .expr)) : Node .stmt
  /-- `throw a;` -/
  | throwStmt (span : Option Span) (exc : Node .expr) : Node .stmt
  /-- `synchronized (a) { … }` -/
  | synchronizedStmt (span : Option Span) (lock : Node .expr) (body : Node .block) : Node .stmt
  /-- `yield a;` -/
  | yieldStmt (span : Option Span) (value : Node .expr) : Node .stmt
  /-- `try { … } catch … finally …` -/
  | tryStmt (span : Option Span) (body : Node .block) (catches : Node (.list .catchClause))
      (final : Node (.opt .block)) : Node .stmt
  /-- `try (a) { … }` -/
  | tryResourcesStmt (span : Option Span) (resources : Node (.list .tryResource))
      (body : Node .block) (catches : Node (.list .catchClause)) (final : Node (.opt .block))
      : Node .stmt
  -- parts of statements
  /-- `{ … }` -/
  | block (span : Option Span) (body : Node (.list .stmt)) : Node .block
  /-- `final T a = 1, b` -/
  | localVariables (span : Option Span) (modifiers : Node (.list .modifier)) (ty : Node .type)
      (declarators : Node (.list .variableDeclarator)) : Node .localVariables
  /-- `T x` after `case`. -/
  | matchValue (span : Option Span) (ty : Node .type) (id : Node .identifier) : Node .caseValue
  /-- An expression after `case`. -/
  | exprCase (inner : Node .expr) : Node .caseValue
  /-- `case a:` -/
  | caseLabel (span : Option Span) (value : Node .caseValue) : Node .switchLabel
  /-- `default:` -/
  | defaultLabel (span : Option Span) : Node .switchLabel
  /-- Labels and the statements that they select. -/
  | switchGroup (span : Option Span) (labels : Node (.list .switchLabel))
      (body : Node (.list .stmt)) : Node .switchGroup
  /-- Groups with labels behind them, or rules. -/
  | switchBlock (span : Option Span) (groups : Node (.list .switchGroup))
      (labels : Node (.list .switchLabel)) (rules : Node (.list .switchRule)) : Node .switchBlock
  /-- Nothing before the first semicolon. -/
  | noInit : Node .forInit
  /-- Expressions before the first semicolon. -/
  | exprsInit (inner : Node (.list .expr)) : Node .forInit
  /-- Variables before the first semicolon. -/
  | variablesInit (inner : Node .localVariables) : Node .forInit
  /-- `catch (final A | B e) { … }` -/
  | catchClause (span : Option Span) (modifiers : Node (.list .modifier))
      (exceptions : Node (.list .qualifiedName)) (id : Node .identifier) (body : Node .block)
      : Node .catchClause
  /-- `final T x = a` -/
  | resource (span : Option Span) (modifiers : Node (.list .modifier)) (ty : Node .type)
      (declarator : Node .variableDeclarator) : Node .tryResource
  /-- A variable that is closed. -/
  | nameResource (inner : Node .qualifiedName) : Node .tryResource
  -- variables and parameters
  /-- `a[][]` -/
  | variableDeclaratorId (span : Option Span) (id : Node .identifier) (dims : Node (.list .dim))
      : Node .variableDeclaratorId
  /-- `a[] = b` -/
  | variableDeclarator (span : Option Span) (id : Node .variableDeclaratorId)
      (init : Node (.opt .expr)) : Node .variableDeclarator
  /-- `T A.this` -/
  | receiverParameter (span : Option Span) (ty : Node .type)
      (identifiers : Node (.list .identifier)) : Node .receiverParameter
  /-- `final T x` -/
  | parameter (span : Option Span) (modifiers : Node (.list .modifier)) (ty : Node .type)
      (id : Node .variableDeclaratorId) : Node .formalParameter
  /-- `final T @A ... x` -/
  | variableArityParameter (span : Option Span) (modifiers : Node (.list .modifier))
      (ty : Node .type) (annotations : Node (.list .annotationUse)) (id : Node .identifier)
      : Node .formalParameter
  /-- A receiver or none, and parameters. -/
  | formalParameters (span : Option Span) (receiver : Node (.opt .receiverParameter))
      (params : Node (.list .formalParameter)) : Node .formalParameters
  -- declarations
  /-- `;` -/
  | emptyDecl (span : Option Span) : Node .decl
  /-- `T a = 1, b;` -/
  | fieldDecl (span : Option Span) (modifiers : Node (.list .modifier)) (ty : Node .type)
      (declarators : Node (.list .variableDeclarator)) : Node .decl
  /-- `<T> @A U f(a)[] throws E { … }` -/
  | methodDecl (span : Option Span) (modifiers : Node (.list .modifier))
      (typeParams : Node (.opt .typeParameters)) (annotations : Node (.list .annotationUse))
      (returnType : Node .type) (id : Node .identifier) (params : Node .formalParameters)
      (dims : Node (.list .dim)) (throws : Node (.list .qualifiedName))
      (body : Node (.opt .block)) : Node .decl
  /-- `<T> A(b) throws E { … }` -/
  | constructorDecl (span : Option Span) (modifiers : Node (.list .modifier))
      (typeParams : Node (.opt .typeParameters)) (id : Node .identifier)
      (params : Node .formalParameters) (throws : Node (.list .qualifiedName))
      (body : Node .block) : Node .decl
  /-- `A { … }` -/
  | compactConstructorDecl (span : Option Span) (modifiers : Node (.list .modifier))
      (id : Node .identifier) (body : Node .block) : Node .decl
  /-- `static { … }` -/
  | initializerDecl (span : Option Span) (body : Node .block) (isStatic : Bool) : Node .decl
  /-- `class A<T> extends B implements C permits D { … }` -/
  | classDecl (span : Option Span) (modifiers : Node (.list .modifier)) (id : Node .identifier)
      (typeParams : Node (.opt .typeParameters)) (extend : Node (.opt .type))
      (implement permit : Node (.list .type)) (body : Node (.list .decl)) : Node .decl
  /-- `interface A<T> extends B permits C { … }` -/
  | interfaceDecl (span : Option Span) (modifiers : Node (.list .modifier))
      (id : Node .identifier) (typeParams : Node (.opt .typeParameters))
      (extend permit : Node (.list .type)) (body : Node (.list .decl)) : Node .decl
  /-- `enum A implements B { … }` -/
  | enumDecl (span : Option Span) (modifiers : Node (.list .modifier)) (id : Node .identifier)
      (implement : Node (.list .type)) (constants : Node (.list .enumConstant))
      (body : Node (.list .decl)) : Node .decl
  /-- `record A<T>(B b) implements C { … }` -/
  | recordDecl (span : Option Span) (modifiers : Node (.list .modifier)) (id : Node .identifier)
      (typeParams : Node (.opt .typeParameters)) (components : Node (.list .recordComponent))
      (implement : Node (.list .type)) (body : Node (.list .decl)) : Node .decl
  /-- `@interface A { … }` -/
  | annotationDecl (span : Option Span) (modifiers : Node (.list .modifier))
      (id : Node .identifier) (body : Node (.list .decl)) : Node .decl
  /-- `T a() default b;` -/
  | elementDecl (span : Option Span) (modifiers : Node (.list .modifier)) (ty : Node .type)
      (id : Node .identifier) (value : Node (.opt .elementValue)) : Node .decl
  -- parts of declarations
  /-- `@A B(c) { … }` -/
  | enumConstant (span : Option Span) (annotations : Node (.list .annotationUse))
      (id : Node .identifier) (args : Node (.opt (.list .expr)))
      (body : Node (.opt (.list .decl))) : Node .enumConstant
  /-- `@A T... x` -/
  | recordComponent (span : Option Span) (annotations : Node (.list .annotationUse))
      (ty : Node .type) (isVariableArity : Bool) (id : Node .identifier) : Node .recordComponent
  -- compilation units and modules
  /-- `@A package b;` -/
  | packageDecl (span : Option Span) (annotations : Node (.list .annotationUse))
      (name : Node .qualifiedName) : Node .packageDecl
  /-- `import static a.*;` -/
  | importDecl (span : Option Span) (isStatic : Bool) (name : Node .qualifiedName)
      (isOnDemand : Bool) : Node .importDecl
  /-- `requires static a;` -/
  | requiresDirective (span : Option Span) (modifiers : Node (.list .modifier))
      (name : Node .qualifiedName) : Node .directive
  /-- `exports a to b;` -/
  | exportsDirective (span : Option Span) (name : Node .qualifiedName)
      (targets : Node (.list .qualifiedName)) : Node .directive
  /-- `opens a to b;` -/
  | opensDirective (span : Option Span) (name : Node .qualifiedName)
      (targets : Node (.list .qualifiedName)) : Node .directive
  /-- `uses a;` -/
  | usesDirective (span : Option Span) (name : Node .qualifiedName) : Node .directive
  /-- `provides a with b;` -/
  | providesDirective (span : Option Span) (name : Node .qualifiedName)
      (providers : Node (.list .qualifiedName)) : Node .directive
  /-- `@A open module b { … }` -/
  | moduleDecl (span : Option Span) (annotations : Node (.list .annotationUse)) (isOpen : Bool)
      (name : Node .qualifiedName) (directives : Node (.list .directive)) : Node .moduleDecl
  /-- A package, imports and types. -/
  | ordinaryUnit (span : Option Span) (package : Node (.opt .packageDecl))
      (imports : Node (.list .importDecl)) (declarations : Node (.list .decl))
      : Node .compilationUnit
  /-- Imports and a module. -/
  | modularUnit (span : Option Span) (imports : Node (.list .importDecl))
      (module : Node .moduleDecl) : Node .compilationUnit

/-! ### Names for common categories -/

abbrev Expr := Node .expr
abbrev Stmt := Node .stmt
abbrev Decl := Node .decl

/-- A type of the language. -/
abbrev TypeNode := Node .type

/-- Several nodes of a category. -/
abbrev Nodes (c : Category) := Node (.list c)

/-- A node of a category or none. -/
abbrev OptNode (c : Category) := Node (.opt c)

namespace Node

variable {c : Category}

/-- Nodes from a list. -/
def ofList : List (Node c) → Nodes c
  | []      => nil
  | n :: ns => cons n (ofList ns)

/-- What a node of a category lists. -/
def Listed : Category → Type
  | .list c => List (Node c)
  | _       => Unit

instance : Inhabited (Listed c) := by
  cases c with
  | list c => exact ⟨([] : List (Node c))⟩
  | _ => exact ⟨()⟩

/-- What a node lists; the recursion is on nodes of every category. -/
def listed : {c : Category} → Node c → Listed c
  | _, nil       => []
  | _, cons n ns => n :: ns.listed
  | _, _         => default

/-- The nodes as a list. -/
def toList (ns : Nodes c) : List (Node c) := ns.listed

@[simp] theorem toList_nil : (nil : Nodes c).toList = [] := rfl

@[simp] theorem toList_cons (n : Node c) (ns : Nodes c) : (cons n ns).toList = n :: ns.toList :=
  rfl

/-- A node or none from an option. -/
def ofOption : Option (Node c) → OptNode c
  | none   => absent
  | some n => present n

/-- The node or none as an option. -/
def toOption : OptNode c → Option (Node c)
  | absent    => none
  | present n => some n

/-- Two lists of nodes one after the other. -/
def append (ns ms : Nodes c) : Nodes c := ns.toList.foldr cons ms

/-- Whether there are no nodes. -/
def isEmpty : Nodes c → Bool
  | nil      => true
  | cons _ _ => false

/-- Whether there is a node. -/
def isSome : OptNode c → Bool
  | absent    => false
  | present _ => true

@[simp] theorem toList_ofList (ns : List (Node c)) : (ofList ns).toList = ns := by
  induction ns with
  | nil => rfl
  | cons n ns ih => rw [ofList, toList_cons, ih]

@[simp] theorem toOption_ofOption (n : Option (Node c)) : (ofOption n).toOption = n := by
  cases n <;> rfl

end Node

/-- A node of any category. -/
structure AnyNode where
  category : Category
  node : Node category

end JavaSource
