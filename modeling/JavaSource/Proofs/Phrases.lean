import JavaSource.Proofs.Shape
import JavaSource.Syntax.Level

/-!
# Phrases as the grammar builds them

`Phrase.shape` is a table: for every kind of phrase, what its parts are.  A tree is *regular* when
each phrase in it has the shape of its kind, starts where its first part starts and stops where its
last part stops, and each token in it is written as its kind is spelled.

The shapes say no more than what can be told from the parts of a phrase one by one: they leave out
which of several types a name stands for, but they do tell, for instance, that the type of a field
has no annotations of its own, or that a `try` without resources has a handler.

* `Tree.Regular.leaves_ne_nil`: only a compilation unit can be empty.
* `Tree.Regular.ends`: a regular tree that is not empty starts where its first token stands and
  stops where its last one does.
-/

namespace JavaSource

namespace Phrase

open Shape

/-! ### Classes of phrases -/

/-- What is read as an expression. -/
def expressions : List Phrase :=
  [.lambda, .assignment, .ternary, .conditionalOr, .conditionalAnd, .inclusiveOr, .exclusiveOr,
   .bitAnd, .equality, .relational, .instanceOf, .shift, .additive, .multiplicative, .cast,
   .prefixed, .postfixed, .parenthesized, .literal, .plainName, .thisWord, .superWord,
   .superAccess, .methodCall, .memberAccess, .arrayAccess, .classLiteral, .methodReference,
   .objectCreation, .innerCreation, .arrayCreation, .switchExpression,
   .explicitGenericInvocation]

/-- The tightest level of an operand that an expression of a kind can be, parentheses aside.  Any
operator may follow the type of an `instanceof`. -/
def level : Phrase → Level
  | assignment                  => .assignment
  | lambda | ternary            => .ternary
  | conditionalOr               => .logicalOr
  | conditionalAnd              => .logicalAnd
  | inclusiveOr                 => .bitwiseOr
  | exclusiveOr                 => .bitwiseXor
  | bitAnd                      => .bitwiseAnd
  | equality                    => .equality
  | relational                  => .relational
  | shift                       => .shift
  | additive                    => .additive
  | multiplicative | instanceOf => .multiplicative
  | prefixed | cast             => .unary
  | postfixed                   => .post
  | _                           => .primary

/-- The expressions of a level and of tighter ones. -/
def operands (l : Level) : List Phrase := expressions.filter fun kind => l.rank ≤ kind.level.rank

/-- What a variable is given at the start. -/
def initializers : List Phrase := .arrayInitializer :: expressions

/-- What a `case` lists. -/
def caseItems : List Phrase := .pattern :: .guardedPattern :: expressions

/-- What stands in a block. -/
def statements : List Phrase :=
  [.block, .localVariableDeclarationStatement, .localTypeDeclaration, .emptyStatement,
   .labeledStatement, .expressionStatement, .ifStatement, .assertStatement, .switchStatement,
   .whileStatement, .doStatement, .forStatement, .enhancedForStatement, .breakStatement,
   .continueStatement, .returnStatement, .throwStatement, .synchronizedStatement, .tryStatement,
   .tryWithResourcesStatement, .yieldStatement]

/-- What stands in the body of a type. -/
def declarations : List Phrase := [.memberDeclaration, .emptyDeclaration, .initializer]

/-- What declares a type, behind its modifiers. -/
def typeDeclarations : List Phrase :=
  [.classDeclaration, .interfaceDeclaration, .enumDeclaration, .recordDeclaration,
   .annotationTypeDeclaration]

/-- What a member is behind its modifiers. -/
def members : List Phrase :=
  typeDeclarations ++ [.fieldDeclaration, .methodDeclaration, .constructorDeclaration,
    .compactConstructorDeclaration, .annotationMethodDeclaration]

/-- The lines of a module. -/
def directives : List Phrase :=
  [.requiresDirective, .exportsDirective, .opensDirective, .usesDirective, .providesDirective]

/-- What stands between the parentheses of a method. -/
def parameters : List Phrase := [.formalParameter, .variableArityParameter, .receiverParameter]

/-- What stands between the parentheses of a lambda. -/
def lambdaParams : List Phrase := [.formalParameter, .variableArityParameter]

/-! ### Classes of tokens -/

/-- The words for primitive types. -/
def primitives : List TokenKind :=
  [.booleanKw, .byteKw, .shortKw, .intKw, .longKw, .charKw, .floatKw, .doubleKw]

/-- The reserved words among the modifiers. -/
def modifierWords : List TokenKind :=
  [.publicKw, .protectedKw, .privateKw, .staticKw, .abstractKw, .finalKw, .nativeKw,
   .synchronizedKw, .transientKw, .volatileKw, .strictfpKw, .defaultKw, .nonSealed]

/-- The tokens that are expressions by themselves. -/
def literals : List TokenKind :=
  [.integerLiteral, .floatingLiteral, .charLiteral, .stringLiteral, .textBlock, .trueKw,
   .falseKw, .nullKw]

/-- What stands between the sides of an assignment. -/
def assignments : List TokenKind :=
  [.assign, .addAssign, .subAssign, .mulAssign, .divAssign, .andAssign, .orAssign, .xorAssign,
   .modAssign, .lshiftAssign, .rshiftAssign, .urshiftAssign]

/-! ### The table -/

/-- One of some phrases. -/
def anyOf (kinds : List Phrase) : Shape := one (.phrase kinds)

/-- One of some tokens. -/
def oneOf (kinds : List TokenKind) : Shape := one (.token kinds)

def expr : Shape := anyOf expressions
def stmt : Shape := anyOf statements
def decl : Shape := anyOf declarations
def annotations : Shape := many (phr .annotationUse)
def dims : Shape := many (phr .dim)

/-- A token and a row behind it, or nothing. -/
def behind (kind : TokenKind) (a : Shape) : Shape := opt ((tok kind).andThen a)

/-- A word and a row behind it, or nothing. -/
def behindWord (text : String) (a : Shape) : Shape := opt ((word text).andThen a)

/-- A type without annotations of its own. -/
def plainType : Shape := one (.only .type [.classType, .dim])

/-- `( expression )` -/
def condition : List Shape := [tok .lparen, expr, tok .rparen]

/-- A modifier of one word, or an annotation. -/
def modifier : Shape := (oneOf modifierWords).alt ((word "sealed").alt (phr .annotationUse))

/-- An operand of a level. -/
def operand (l : Level) : Shape := anyOf (operands l)

/-- Operands on either side of a token; equal operators group to the left. -/
def operation (l : Level) (kinds : List TokenKind) : Shape :=
  all [operand l, oneOf kinds, operand l.next]

/-- `(A & B)` -/
def castHead : Shape := all [tok .lparen, separated .bitAnd (phr .type), tok .rparen]

/-- A group of a switch block with statements behind its labels. -/
def fullGroup : Shape := one (.holding .switchGroup statements)

/-- A group of a switch block with labels alone. -/
def emptyGroup : Shape := one (.only .switchGroup [.switchLabel])

/-- The parts of every kind of phrase. -/
def shape : Phrase → Shape
  | compilationUnit => all [opt (phr packageDeclaration), many (phr importDeclaration),
      (phr moduleDeclaration).alt (many decl)]
  | declarationStart =>
    anyOf (packageDeclaration :: importDeclaration :: moduleDeclaration :: declarations)
  | statementStart => stmt
  | expressionStart => expr
  -- names, modifiers and annotations
  | qualifiedName => all [tok .identifier, many ((tok .dot).andThen (tok .identifier))]
  | qualifiedNameList => separated .comma (phr qualifiedName)
  | modifiers => several modifier
  | annotationUse => all [tok .atSign, phr qualifiedName, opt (all [tok .lparen,
      (separated .comma (phr elementValuePair)).alt (opt (phr elementValue)), tok .rparen])]
  | elementValuePair => all [tok .identifier, tok .assign, phr elementValue]
  | elementValue => anyOf (annotationUse :: elementValueArrayInitializer :: expressions)
  | elementValueArrayInitializer =>
    all [tok .lbrace, listed .comma (phr elementValue), tok .rbrace]
  -- types
  | type => all [annotations, (oneOf (.voidKw :: primitives)).alt (phr classType), dims]
  | classType => separated .dot (phr coit)
  | coit => all [annotations, tok .identifier, opt (phr typeArguments)]
  | typeArguments => all [tok .lt, opt (separated .comma (anyOf [type, wildcard])), tok .gt]
  | wildcard => all [annotations, tok .question,
      opt ((oneOf [.extendsKw, .superKw]).andThen (phr type))]
  | dim => all [annotations, tok .lbrack, tok .rbrack]
  | typeList => separated .comma (phr type)
  | typeParameters => all [tok .lt, separated .comma (phr typeParameter), tok .gt]
  | typeParameter => all [annotations, tok .identifier, behind .extendsKw (phr typeBound)]
  | typeBound => separated .bitAnd (phr type)
  -- compilation units and modules
  | packageDeclaration => all [annotations, tok .packageKw, phr qualifiedName, tok .semi]
  | importDeclaration => all [tok .importKw, opt (tok .staticKw), phr qualifiedName,
      opt ((tok .dot).andThen (tok .mul)), tok .semi]
  | moduleDeclaration => all [annotations, opt (word "open"), word "module", phr qualifiedName,
      tok .lbrace, many (anyOf directives), tok .rbrace]
  | requiresDirective => all [word "requires", many ((tok .staticKw).alt (word "transitive")),
      phr qualifiedName, tok .semi]
  | exportsDirective => all [word "exports", phr qualifiedName,
      behindWord "to" (phr qualifiedNameList), tok .semi]
  | opensDirective => all [word "opens", phr qualifiedName,
      behindWord "to" (phr qualifiedNameList), tok .semi]
  | usesDirective => all [word "uses", phr qualifiedName, tok .semi]
  | providesDirective => all [word "provides", phr qualifiedName, word "with",
      phr qualifiedNameList, tok .semi]
  -- declarations
  | memberDeclaration => all [opt (phr modifiers), anyOf members]
  | emptyDeclaration => tok .semi
  | initializer => all [opt (tok .staticKw), phr block]
  | classDeclaration => all [tok .classKw, tok .identifier, opt (phr typeParameters),
      behind .extendsKw (phr type), behind .implementsKw (phr typeList),
      behindWord "permits" (phr typeList), phr classBody]
  | interfaceDeclaration => all [tok .interfaceKw, tok .identifier, opt (phr typeParameters),
      behind .extendsKw (phr typeList), behindWord "permits" (phr typeList), phr classBody]
  | enumDeclaration => all [tok .enumKw, tok .identifier, behind .implementsKw (phr typeList),
      phr enumBody]
  | recordDeclaration => all [word "record", tok .identifier, opt (phr typeParameters),
      phr recordHeader, behind .implementsKw (phr typeList), phr classBody]
  | annotationTypeDeclaration => all [tok .atSign, tok .interfaceKw, tok .identifier,
      phr classBody]
  | classBody => all [tok .lbrace, many decl, tok .rbrace]
  | enumBody => all [tok .lbrace, listed .comma (phr enumConstant), behind .semi (many decl),
      tok .rbrace]
  | enumConstant => all [annotations, tok .identifier, opt (phr arguments), opt (phr classBody)]
  | recordHeader => all [tok .lparen, opt (separated .comma (phr recordComponent)), tok .rparen]
  | recordComponent => all [annotations, phr type, opt (tok .ellipsis), tok .identifier]
  | fieldDeclaration => all [plainType, phr variableDeclarators, tok .semi]
  | methodDeclaration => all [opt (phr typeParameters), annotations, phr type, tok .identifier,
      phr formalParameters, dims, behind .throwsKw (phr qualifiedNameList),
      (phr block).alt (tok .semi)]
  | constructorDeclaration => all [opt (phr typeParameters), tok .identifier,
      phr formalParameters, behind .throwsKw (phr qualifiedNameList), phr block]
  | compactConstructorDeclaration => all [tok .identifier, phr block]
  | annotationMethodDeclaration => all [plainType, tok .identifier, tok .lparen, tok .rparen,
      dims, behind .defaultKw (phr elementValue), tok .semi]
  | formalParameters => all [tok .lparen, opt (listed .comma (anyOf parameters)), tok .rparen]
  | formalParameter => all [opt (phr modifiers), phr type, phr variableDeclaratorId]
  | variableArityParameter => all [opt (phr modifiers), phr type, annotations, tok .ellipsis,
      tok .identifier]
  | receiverParameter => all [opt (phr modifiers), phr type,
      many ((tok .identifier).andThen (tok .dot)), tok .thisKw]
  | variableDeclarators => separated .comma (phr variableDeclarator)
  | variableDeclarator => all [phr variableDeclaratorId, behind .assign (anyOf initializers)]
  | variableDeclaratorId => all [tok .identifier, dims]
  | arrayInitializer => all [tok .lbrace, listed .comma (anyOf initializers), tok .rbrace]
  -- statements
  | block => all [tok .lbrace, many stmt, tok .rbrace]
  | localVariableDeclaration => all [opt (phr modifiers), phr type, phr variableDeclarators]
  | localVariableDeclarationStatement => all [phr localVariableDeclaration, tok .semi]
  | localTypeDeclaration => one (.only .memberDeclaration (modifiers :: typeDeclarations))
  | emptyStatement => tok .semi
  | labeledStatement => all [tok .identifier, tok .colon, stmt]
  | expressionStatement => all [expr, tok .semi]
  | ifStatement => all ([tok .ifKw] ++ condition ++ [stmt, behind .elseKw stmt])
  | assertStatement => all [tok .assertKw, expr, behind .colon expr, tok .semi]
  | switchStatement => all ([tok .switchKw] ++ condition ++ [phr switchBlock])
  | whileStatement => all ([tok .whileKw] ++ condition ++ [stmt])
  | doStatement => all ([tok .doKw, stmt, tok .whileKw] ++ condition ++ [tok .semi])
  | forStatement => all [tok .forKw, tok .lparen, opt (phr forInit), tok .semi, opt expr,
      tok .semi, opt (phr forUpdate), tok .rparen, stmt]
  | forInit => (phr localVariableDeclaration).alt (separated .comma expr)
  | forUpdate => separated .comma expr
  | enhancedForStatement => all [tok .forKw, tok .lparen, opt (phr modifiers), phr type,
      phr variableDeclaratorId, tok .colon, expr, tok .rparen, stmt]
  | breakStatement => all [tok .breakKw, opt (tok .identifier), tok .semi]
  | continueStatement => all [tok .continueKw, opt (tok .identifier), tok .semi]
  | returnStatement => all [tok .returnKw, opt expr, tok .semi]
  | throwStatement => all [tok .throwKw, expr, tok .semi]
  | synchronizedStatement => all ([tok .synchronizedKw] ++ condition ++ [phr block])
  | tryStatement => all [tok .tryKw, phr block,
      ((several (phr catchClause)).andThen (opt (phr finallyClause))).alt (phr finallyClause)]
  | tryWithResourcesStatement => all [tok .tryKw, phr resourceSpecification, phr block,
      many (phr catchClause), opt (phr finallyClause)]
  | resourceSpecification => all [tok .lparen, several ((phr resource).andThen (opt (tok .semi))),
      tok .rparen]
  | resource => (all [opt (phr modifiers), phr type, phr variableDeclarator]).alt
      (phr qualifiedName)
  | catchClause => all [tok .catchKw, tok .lparen, opt (phr modifiers), phr catchType,
      tok .identifier, tok .rparen, phr block]
  | catchType => separated .bitOr (phr qualifiedName)
  | finallyClause => all [tok .finallyKw, phr block]
  | yieldStatement => all [word "yield", expr, tok .semi]
  | switchBlock => all [tok .lbrace, many ((phr switchRule).alt fullGroup), opt emptyGroup,
      tok .rbrace]
  | switchGroup => all [phr switchLabel, tok .colon,
      many ((phr switchLabel).andThen (tok .colon)), many stmt]
  | switchRule => all [phr switchLabel, tok .arrow, stmt]
  | switchLabel => (tok .defaultKw).alt
      (all [tok .caseKw, separated .comma (anyOf caseItems)])
  | pattern => all [opt (phr modifiers), phr type, tok .identifier]
  | guardedPattern => all [phr pattern, (word "when").alt (tok .andAnd), expr]
  -- expressions
  | lambda => all [phr lambdaParameters, tok .arrow, anyOf (block :: expressions)]
  | lambdaParameters => (tok .identifier).alt ((all [tok .lparen, listed .comma (tok .identifier),
      tok .rparen]).alt (one (.only formalParameters lambdaParams)))
  | assignment => all [operand .ternary, oneOf assignments, expr]
  | ternary => all [operand .logicalOr, tok .question, expr, tok .colon, operand .ternary]
  | conditionalOr => operation .logicalOr [.orOr]
  | conditionalAnd => operation .logicalAnd [.andAnd]
  | inclusiveOr => operation .bitwiseOr [.bitOr]
  | exclusiveOr => operation .bitwiseXor [.caret]
  | bitAnd => operation .bitwiseAnd [.bitAnd]
  | equality => operation .equality [.eqEq, .notEq]
  | relational => operation .relational [.lt, .gt, .le, .ge]
  | instanceOf => all [expr, tok .instanceOfKw, anyOf [pattern, type]]
  | shift => operation .shift [.lshift, .rshift, .urshift]
  | additive => operation .additive [.add, .sub]
  | multiplicative => operation .multiplicative [.mul, .div, .mod]
  | cast => castHead.andThen expr
  | prefixed => all [oneOf [.inc, .dec, .add, .sub, .tilde, .bang], operand .unary]
  | postfixed => all [operand .post, oneOf [.inc, .dec]]
  | parenthesized => all condition
  | literal => oneOf literals
  | plainName => tok .identifier
  | thisWord => tok .thisKw
  | superWord => tok .superKw
  | superAccess => all [tok .superKw, tok .dot, opt (phr typeArguments), tok .identifier,
      opt (phr arguments)]
  | methodCall => all [oneOf [.identifier, .thisKw, .superKw], phr arguments]
  | arguments => all [tok .lparen, opt (separated .comma expr), tok .rparen]
  | memberAccess => all [operand .primary, tok .dot, operand .primary]
  | arrayAccess => all [operand .primary, tok .lbrack, expr, tok .rbrack]
  | classLiteral => all [phr type, tok .dot, tok .classKw]
  | methodReference => all [anyOf (type :: expressions), tok .colonColon,
      opt (phr typeArguments), (tok .newKw).alt (tok .identifier)]
  | objectCreation => all [tok .newKw, opt (phr typeArguments), phr type, phr arguments,
      opt (phr classBody)]
  | innerCreation => all [tok .newKw, opt (phr typeArguments), annotations, tok .identifier,
      opt (phr typeArguments), phr arguments, opt (phr classBody)]
  | arrayCreation => all [tok .newKw, opt (phr typeArguments), phr type,
      ((several (phr dimExpr)).andThen dims).alt
        ((several (phr dim)).andThen (phr arrayInitializer))]
  | dimExpr => all [tok .lbrack, expr, tok .rbrack]
  | switchExpression => all ([tok .switchKw] ++ condition ++ [phr switchBlock])
  | explicitGenericInvocation => all [phr typeArguments,
      anyOf [methodCall, superAccess, superWord]]

/-- A tighter operand is a looser one. -/
theorem operand_within {l l' : Level} (h : l'.rank ≤ l.rank) : Within (operand l) (operand l') :=
  .phrases fun _ hk => by
    obtain ⟨hexpr, hle⟩ := List.mem_filter.mp hk
    exact List.mem_filter.mpr ⟨hexpr, decide_eq_true (Nat.le_trans h (of_decide_eq_true hle))⟩

/-- An operand is an expression. -/
theorem operand_within_expr {l : Level} : Within (operand l) expr :=
  .phrases fun _ hk => (List.mem_filter.mp hk).1

theorem mem_operands {kind : Phrase} {l : Level} (h : kind ∈ expressions)
    (hl : l.rank ≤ kind.level.rank) : kind ∈ operands l :=
  List.mem_filter.mpr ⟨h, decide_eq_true hl⟩

/-- A compilation unit is never a part. -/
theorem compilationUnit_notMem (kind : Phrase) : compilationUnit ∉ kind.shape.kinds := by
  cases kind <;> decide

/-- Only a compilation unit has to have no parts. -/
theorem shape_needs (kind : Phrase) (h : kind ≠ compilationUnit) :
    kind.shape.needs fun i => !i.kinds.contains compilationUnit := by
  cases kind <;> first | rfl | exact absurd rfl h

end Phrase

/-! ### Regular trees -/

/-- Written as its kind is spelled, if that has a spelling. -/
def Token.Spelled (t : Token) : Prop := ∀ w, t.kind.text? = some w → t.text = w

namespace Tree

/-- A tree as the grammar builds it. -/
inductive Regular : Tree → Prop where
  | leaf {t : Token} (spelled : t.Spelled) : Regular (.leaf t)
  | node {kind : Phrase} {parts : List Tree} {start stop : Location}
      (holds : kind.shape.Holds parts) (regular : ∀ p ∈ parts, Regular p)
      (starts : ∀ p, parts.head? = some p → start = p.start)
      (stops : ∀ p, parts.getLast? = some p → stop = p.stop) : Regular (.node kind parts start stop)

theorem leavesAll_eq_flatMap (ts : List Tree) : leavesAll ts = ts.flatMap leaves := by
  induction ts with
  | nil => rfl
  | cons t ts ih => rw [leavesAll, ih, List.flatMap_cons]

theorem leavesAll_append (ts us : List Tree) :
    leavesAll (ts ++ us) = leavesAll ts ++ leavesAll us := by
  simp only [leavesAll_eq_flatMap, List.flatMap_append]

namespace Regular

theorem ofParts {kind : Phrase} {parts : List Tree} (holds : kind.shape.Holds parts)
    (regular : ∀ p ∈ parts, p.Regular) (place : Location) : (ofParts kind parts place).Regular :=
  .node holds regular (fun p hp => by rw [hp]; rfl) (fun p hp => by rw [hp]; rfl)

theorem holds_of {t : Tree} (h : t.Regular) {kind : Phrase} (hk : t.phrase? = some kind) :
    kind.shape.Holds t.parts := by
  cases h with
  | leaf => cases hk
  | node holds =>
    cases hk
    exact holds

/-- Only a compilation unit can be empty. -/
theorem leaves_ne_nil {t : Tree} (h : t.Regular) (hk : t.phrase? ≠ some .compilationUnit) :
    t.leaves ≠ [] := by
  induction h with
  | leaf => exact nofun
  | node holds regular starts stops ih =>
    obtain ⟨p, hp, i, hi, hfits⟩ := holds.needs (Phrase.shape_needs _ fun he => hk (he ▸ rfl))
    have hkind : p.phrase? ≠ some .compilationUnit := fun hp' => by
      have hmem := Item.mem_kinds_of_fits hfits hp'
      rw [List.contains_iff_mem.mpr hmem] at hi
      cases hi
    rw [leaves, leavesAll_eq_flatMap]
    exact fun hnil => ih p hp hkind (List.flatMap_eq_nil_iff.mp hnil p hp)

/-- A part of a regular phrase is not empty. -/
theorem part_leaves_ne_nil {kind : Phrase} {parts : List Tree} (holds : kind.shape.Holds parts)
    {p : Tree} (hp : p ∈ parts) (h : p.Regular) : p.leaves ≠ [] :=
  h.leaves_ne_nil fun hk => kind.compilationUnit_notMem (holds.kind hp hk)

/-- **A regular tree starts where its first token stands and stops where its last one does.** -/
theorem ends {t : Tree} (h : t.Regular) (hleaves : t.leaves ≠ []) :
    t.leaves.head?.map Token.location = some t.start ∧
      t.leaves.getLast?.map Token.location = some t.stop := by
  induction h with
  | leaf => exact ⟨rfl, rfl⟩
  | @node kind parts start stop holds regular starts stops ih =>
    rw [leaves, leavesAll_eq_flatMap] at hleaves ⊢
    have hparts : parts ≠ [] := fun hnil => hleaves (by rw [hnil]; rfl)
    constructor
    · obtain ⟨p, ps, rfl⟩ := List.exists_cons_of_ne_nil hparts
      have hp : p ∈ p :: ps := List.mem_cons_self
      have hne := part_leaves_ne_nil holds hp (regular p hp)
      obtain ⟨t, ht, hloc⟩ := Option.map_eq_some_iff.mp (ih p hp hne).1
      rw [List.flatMap_cons, List.head?_append, ht]
      exact congrArg some (hloc.trans (starts p rfl).symm)
    · obtain ⟨ps, p, rfl⟩ : ∃ ps p, parts = ps ++ [p] :=
        ⟨_, _, (List.dropLast_concat_getLast hparts).symm⟩
      have hp : p ∈ ps ++ [p] := List.mem_append_right _ (List.mem_singleton_self p)
      have hne := part_leaves_ne_nil holds hp (regular p hp)
      obtain ⟨t, ht, hloc⟩ := Option.map_eq_some_iff.mp (ih p hp hne).2
      rw [List.flatMap_append, List.flatMap_cons, List.flatMap_nil, List.append_nil,
        List.getLast?_append, ht]
      exact congrArg some (hloc.trans (stops p List.getLast?_concat).symm)

end Regular

mutual

/-- Every tree within a regular tree is regular. -/
theorem Regular.preorder {t : Tree} (h : t.Regular) (depth : Nat) :
    ∀ n ∈ t.preorder depth, n.2.Regular := by
  cases t with
  | leaf t =>
    intro n hn
    rw [List.mem_singleton.mp hn]
    exact h
  | node kind parts start stop =>
    intro n hn
    rcases List.mem_cons.mp hn with rfl | hn
    · exact h
    · cases h with
      | node holds regular starts stops => exact Regular.preorderAll parts regular _ n hn

theorem Regular.preorderAll (ts : List Tree) (h : ∀ t ∈ ts, t.Regular) (depth : Nat) :
    ∀ n ∈ preorderAll depth ts, n.2.Regular := by
  cases ts with
  | nil => exact nofun
  | cons t ts =>
    intro n hn
    rcases List.mem_append.mp hn with hn | hn
    · exact Regular.preorder (h t List.mem_cons_self) depth n hn
    · exact Regular.preorderAll ts (fun t' ht' => h t' (List.mem_cons_of_mem t ht')) depth n hn

end

end Tree

end JavaSource
