import JavaSource.Literal.Integer
import JavaSource.Printing.Context

/-!
# Printing — Printer

The document of a node.  A list gives a document for each of its elements, what is absent gives
none, and every other node gives one, built from those of its parts.
-/

namespace JavaSource

/-- The document of a literal. -/
def LiteralValue.doc : LiteralValue → Doc
  | int value long     => Literal.integerText value long false
  | float value double =>
    if !value.isFinite then .refuse (.noLiteral value)
    else Decimal.text value ++ (if double then "d" else "")
  | bool value         => if value then "true" else "false"
  | char text          => "'" ++ text ++ "'"
  | string text        => "\"" ++ text ++ "\""
  | textBlock lines    => .textBlock lines
  | null               => "null"

namespace Doc

/-- Annotations in front of brackets or dots, set apart by blanks. -/
def beforeBrackets (annotations : List Doc) : Doc :=
  if annotations.isEmpty then nil else " " ++ each " " annotations

/-- Arguments, where an empty list is not the same as none. -/
def arguments (args : OptNode (.list .expr)) (ds : List Doc) : Doc :=
  if args.isSome then tuple ds else nil

/-- A body in braces, where an empty one is not the same as none. -/
def classBody (body : OptNode (.list .decl)) (ds : List Doc) : Doc :=
  if body.isSome then " " ++ braces ds else nil

/-- An integer with a minus in front of it. -/
def negated : UInt64 × Bool → Doc
  | (value, long) => "-" ++ Literal.integerText value long true

/-- An operator and its operand. -/
def prefixed (op : UnaryOp) (e : Expr) (d : Doc) : Doc :=
  match op, e.integer? with
  | .minus, some literal => negated literal
  | _,      _            =>
    op.text ++ (if e.startsWithSign op then " " else "") ++ operand ⟨.unary, true⟩ e d

/-- `extends` or `super` and a type. -/
def bound (up down : Bool) (ty : Doc) : Doc :=
  match up, down with
  | true, false => " extends " ++ ty
  | false, true => " super " ++ ty
  | _,    _     => refuse .boundDirection

/-- What a reference refers to. -/
def referred (isNew : Bool) (id : List Doc) : Doc :=
  if isNew then "new" else if id.isEmpty then refuse .noReferenceName else concat id

/-- The items of a rule. -/
def ruleHead (isDefault : Bool) (cases : List Doc) : Doc :=
  if isDefault then "default"
  else if cases.isEmpty then refuse .noCaseItem
  else "case " ++ sep ", " cases

/-- What a rule does. -/
def ruleBody (isArrow : Bool) (body : List Doc) : Doc :=
  if !isArrow then ":" ++ indented body
  else match body with
    | [d] => " -> " ++ d
    | ds  => refuse (.arrowBody ds.length)

/-- The body of a switch statement, rules or else groups and labels. -/
def switchBody (groups labels rules : List Doc) : Doc :=
  if rules.isEmpty then braces (groups ++ labels)
  else if groups.isEmpty && labels.isEmpty then braces rules
  else refuse .mixedSwitch

/-- What follows the block of a `try`. -/
def handlers (catches final : List Doc) : Doc :=
  concat (catches.map (" " ++ ·)) ++ lead " finally " final

/-- Constants, a line each, with commas between them and, if members follow, a semicolon. -/
def constants (hasMembers : Bool) : List Doc → Doc
  | []      => if hasMembers then line ++ ";" else nil
  | [d]     => line ++ d ++ (if hasMembers then ";" else "")
  | d :: ds => line ++ d ++ "," ++ constants hasMembers ds

/-- The body of an enum. -/
def enumBody (cs members : List Doc) : Doc :=
  if cs.isEmpty && members.isEmpty then "\x7b\x7d"
  else "\x7b" ++ nest (constants (!members.isEmpty) cs) ++ indented members ++ line ++ "\x7d"

/-- The sections of a compilation unit: a package, imports on lines of their own, and what
follows. -/
def sections (package imports rest : List Doc) : Doc :=
  sepBy blankLine (package ++ (if imports.isEmpty then [] else [sepBy line imports]) ++ rest)

end Doc

open Doc

/-- The documents of a node. -/
def Node.docs : {c : Category} → Node c → List Doc
  | _, .nil => []
  | _, .cons head tail => concat (docs head) :: docs tail
  | _, .absent => []
  | _, .present value => docs value
  -- names and literals
  | _, .identifier _ word => [word]
  | _, .qualifiedName _ ids => [sep "." (docs ids)]
  | _, .literal _ value => [value.doc]
  -- modifiers and annotations
  | _, .keywordModifier _ word => [word.text]
  | _, .annotationModifier inner => docs inner
  | _, .annotationUse _ qname elements =>
    ["@" ++ concat (docs qname) ++ (if elements.isEmpty then Doc.nil else tuple (docs elements))]
  | _, .elementValuePair _ id value => [concat (docs id) ++ " = " ++ concat (docs value)]
  | _, .valueElement inner => docs inner
  | _, .exprValue inner => docs inner
  | _, .annotationValue inner => docs inner
  | _, .elementValueArray _ values => ["\x7b" ++ sep ", " (docs values) ++ "\x7d"]
  -- types and patterns
  | _, .wordType _ anns word => [each " " (docs anns) ++ word.text]
  | _, .classType _ anns coits => [each " " (docs anns) ++ sep "." (docs coits)]
  | _, .arrayType _ anns elem dims =>
    [each " " (docs anns) ++ concat (docs elem) ++ concat (docs dims)]
  | _, .wildcardType _ anns bound => [each " " (docs anns) ++ "?" ++ concat (docs bound)]
  | _, .coit _ anns id targs => [each " " (docs anns) ++ concat (docs id) ++ concat (docs targs)]
  | _, .wildcardBound _ ty up down => [Doc.bound up down (concat (docs ty))]
  | _, .typeArguments _ types => ["<" ++ sep ", " (docs types) ++ ">"]
  | _, .dim _ anns => [beforeBrackets (docs anns) ++ "[]"]
  | _, .typeParameter _ anns id bound =>
    [each " " (docs anns) ++ concat (docs id) ++ lead " extends " (docs bound)]
  | _, .typeBound _ anns types => [each " " (docs anns) ++ sep " & " (docs types)]
  | _, .typeParameters _ parameters => ["<" ++ sep ", " (docs parameters) ++ ">"]
  | _, .pattern _ mods ty anns id =>
    [each " " (docs mods) ++ each " " (docs anns) ++ concat (docs ty) ++ " " ++ concat (docs id)]
  | _, .guardedPattern _ pat conditions =>
    [concat (docs pat) ++
      clause " when " " && " (operands ⟨.logicalAnd, false⟩ conditions (docs conditions))]
  | _, .exprItem inner => docs inner
  -- operators
  | _, .binaryOperator op => [op.text]
  | _, .unaryOperator op => [op.text]
  | _, .postOperator op => [op.text]
  | _, .assignOperator op => [op.text]
  -- expressions
  | _, .name _ id => docs id
  | _, .constant _ value => docs value
  | _, .thisExpr _ args => ["this" ++ arguments args (docs args)]
  | _, .superExpr _ targs id args =>
    ["super" ++ (if id.isSome then "." ++ concat (docs targs) ++ concat (docs id) else "")
      ++ arguments args (docs args)]
  | _, .classExpr _ ty => [concat (docs ty) ++ ".class"]
  | _, .lambda _ params body => [concat (docs params) ++ " -> " ++ concat (docs body)]
  | _, .assignment _ target op value =>
    [operand ⟨.assignment, false⟩ target (concat (docs target)) ++ " "
      ++ (if op.isSome then concat (docs op) else "=") ++ " "
      ++ operand ⟨.assignment, true⟩ value (concat (docs value))]
  | _, .conditional _ test body orelse =>
    [operand ⟨.ternary, false⟩ test (concat (docs test)) ++ " ? " ++ concat (docs body) ++ " : "
      ++ operand ⟨.ternary, true⟩ orelse (concat (docs orelse))]
  | _, .binary _ left (.binaryOperator op) right =>
    [operand ⟨op.level, true⟩ left (concat (docs left)) ++ " " ++ op.text ++ " "
      ++ operand ⟨op.level, false⟩ right (concat (docs right))]
  | _, .instanceOf _ value target =>
    [operand ⟨.relational, true⟩ value (concat (docs value)) ++ " instanceof "
      ++ concat (docs target)]
  | _, .unary _ (.unaryOperator op) e => [prefixed op e (concat (docs e))]
  | _, .post _ e (.postOperator op) => [operand ⟨.post, true⟩ e (concat (docs e)) ++ op.text]
  | _, .cast _ anns ty value =>
    ["(" ++ each " " (docs anns) ++ concat (docs ty) ++ ") "
      ++ castOperand (takesSign anns ty) value (concat (docs value))]
  | _, .newObject _ targs ty args body =>
    ["new " ++ each " " (docs targs) ++ concat (docs ty) ++ tuple (docs args)
      ++ classBody body (docs body)]
  | _, .newInner _ targs id ctargs args body =>
    ["new " ++ each " " (docs targs) ++ concat (docs id) ++ concat (docs ctargs)
      ++ tuple (docs args) ++ classBody body (docs body)]
  | _, .newArray _ ty exprDims dims init =>
    ["new " ++ concat (docs ty) ++ concat (docs exprDims) ++ concat (docs dims)
      ++ lead " " (docs init)]
  | _, .switchExpr _ value rules =>
    ["switch (" ++ concat (docs value) ++ ") " ++ braces (docs rules)]
  | _, .call _ func args => [operand .primary func (concat (docs func)) ++ tuple (docs args)]
  | _, .member _ recv mem =>
    [operand .primary recv (concat (docs recv)) ++ "." ++ operand .primary mem (concat (docs mem))]
  | _, .index _ recv idx =>
    [operand .primary recv (concat (docs recv)) ++ "[" ++ concat (docs idx) ++ "]"]
  | _, .reference _ target targs id isNew =>
    [concat (docs target) ++ "::" ++ concat (docs targs) ++ referred isNew (docs id)]
  | _, .genericCall _ targs value =>
    [concat (docs targs) ++ operand .primary value (concat (docs value))]
  | _, .arrayInit inner => docs inner
  -- parts of expressions
  | _, .singleParam inner => docs inner
  | _, .nameParams inner => [tuple (docs inner)]
  | _, .formalParams inner => docs inner
  | _, .exprBody inner => docs inner
  | _, .blockBody inner => docs inner
  | _, .typeTarget inner => docs inner
  | _, .patternTarget inner => docs inner
  | _, .dimExpr _ anns expr => [beforeBrackets (docs anns) ++ "[" ++ concat (docs expr) ++ "]"]
  | _, .arrayInitializer _ values => ["\x7b" ++ sep ", " (docs values) ++ "\x7d"]
  | _, .switchRule _ isDefault cases isArrow body =>
    [ruleHead isDefault (docs cases) ++ ruleBody isArrow (docs body)]
  | _, .exprReference inner => [operand .primary inner (concat (docs inner))]
  | _, .typeReference inner => docs inner
  -- statements
  | _, .emptyStmt _ => [";"]
  | _, .blockStmt inner => docs inner
  | _, .localTypeStmt _ decl => docs decl
  | _, .localVariableStmt inner => [concat (docs inner) ++ ";"]
  | _, .labeledStmt _ label body => [concat (docs label) ++ ":" ++ line ++ concat (docs body)]
  | _, .exprStmt _ value => [concat (docs value) ++ ";"]
  | _, .ifStmt _ test body .absent =>
    ["if (" ++ concat (docs test) ++ ")" ++ Doc.body body (concat (docs body))]
  | _, .ifStmt _ test body (.present orelse) =>
    ["if (" ++ concat (docs test) ++ ")" ++ thenBranch body (concat (docs body))
      ++ elseBranch orelse (concat (docs orelse))]
  | _, .assertStmt _ test msg => ["assert " ++ concat (docs test) ++ lead " : " (docs msg) ++ ";"]
  | _, .switchStmt _ value body => ["switch (" ++ concat (docs value) ++ ") " ++ concat (docs body)]
  | _, .whileStmt _ test body =>
    ["while (" ++ concat (docs test) ++ ")" ++ Doc.body body (concat (docs body))]
  | _, .doWhileStmt _ body test =>
    ["do" ++ Doc.body body (concat (docs body)) ++ line ++ "while (" ++ concat (docs test) ++ ");"]
  | _, .forStmt _ init test update body =>
    ["for (" ++ concat (docs init) ++ ";" ++ lead " " (docs test) ++ ";"
      ++ clause " " ", " (docs update) ++ ")" ++ Doc.body body (concat (docs body))]
  | _, .forEachStmt _ mods ty id iter body =>
    ["for (" ++ each " " (docs mods) ++ concat (docs ty) ++ " " ++ concat (docs id) ++ " : "
      ++ concat (docs iter) ++ ")" ++ Doc.body body (concat (docs body))]
  | _, .breakStmt _ label => ["break" ++ lead " " (docs label) ++ ";"]
  | _, .continueStmt _ label => ["continue" ++ lead " " (docs label) ++ ";"]
  | _, .returnStmt _ value => ["return" ++ lead " " (docs value) ++ ";"]
  | _, .throwStmt _ exc => ["throw " ++ concat (docs exc) ++ ";"]
  | _, .synchronizedStmt _ lock body =>
    ["synchronized (" ++ concat (docs lock) ++ ") " ++ concat (docs body)]
  | _, .yieldStmt _ value => ["yield " ++ concat (docs value) ++ ";"]
  | _, .tryStmt _ body catches fin =>
    ["try " ++ concat (docs body) ++ handlers (docs catches) (docs fin)]
  | _, .tryResourcesStmt _ resources body catches fin =>
    ["try (" ++ sep "; " (docs resources) ++ ") " ++ concat (docs body)
      ++ handlers (docs catches) (docs fin)]
  -- parts of statements
  | _, .block _ body => [braces (docs body)]
  | _, .localVariables _ mods ty decls =>
    [each " " (docs mods) ++ concat (docs ty) ++ " " ++ sep ", " (docs decls)]
  | _, .matchValue _ ty id => [concat (docs ty) ++ " " ++ concat (docs id)]
  | _, .exprCase inner => docs inner
  | _, .caseLabel _ value => ["case " ++ concat (docs value) ++ ":"]
  | _, .defaultLabel _ => ["default:"]
  | _, .switchGroup _ labels body => [sepBy line (docs labels) ++ indented (docs body)]
  | _, .switchBlock _ groups labels rules => [switchBody (docs groups) (docs labels) (docs rules)]
  | _, .noInit => []
  | _, .exprsInit inner => [sep ", " (docs inner)]
  | _, .variablesInit inner => docs inner
  | _, .catchClause _ mods exceptions id body =>
    ["catch (" ++ each " " (docs mods) ++ sep " | " (docs exceptions) ++ " " ++ concat (docs id)
      ++ ") " ++ concat (docs body)]
  | _, .resource _ mods ty declarator =>
    [each " " (docs mods) ++ concat (docs ty) ++ " " ++ concat (docs declarator)]
  | _, .nameResource inner => docs inner
  -- variables and parameters
  | _, .variableDeclaratorId _ id dims => [concat (docs id) ++ concat (docs dims)]
  | _, .variableDeclarator _ id init => [concat (docs id) ++ lead " = " (docs init)]
  | _, .receiverParameter _ ty ids => [concat (docs ty) ++ " " ++ each "." (docs ids) ++ "this"]
  | _, .parameter _ mods ty id =>
    [each " " (docs mods) ++ concat (docs ty) ++ " " ++ concat (docs id)]
  | _, .variableArityParameter _ mods ty anns id =>
    [each " " (docs mods) ++ concat (docs ty) ++ beforeBrackets (docs anns) ++ "... "
      ++ concat (docs id)]
  | _, .formalParameters _ recv params => [tuple (docs recv ++ docs params)]
  -- declarations
  | _, .emptyDecl _ => [";"]
  | _, .fieldDecl _ mods ty decls =>
    [each " " (docs mods) ++ concat (docs ty) ++ " " ++ sep ", " (docs decls) ++ ";"]
  | _, .methodDecl _ mods tparams anns ty id params dims throws body =>
    [each " " (docs mods) ++ each " " (docs tparams) ++ each " " (docs anns) ++ concat (docs ty)
      ++ " " ++ concat (docs id) ++ concat (docs params) ++ concat (docs dims)
      ++ clause " throws " ", " (docs throws)
      ++ (if body.isSome then " " ++ concat (docs body) else ";")]
  | _, .constructorDecl _ mods tparams id params throws body =>
    [each " " (docs mods) ++ each " " (docs tparams) ++ concat (docs id) ++ concat (docs params)
      ++ clause " throws " ", " (docs throws) ++ " " ++ concat (docs body)]
  | _, .compactConstructorDecl _ mods id body =>
    [each " " (docs mods) ++ concat (docs id) ++ " " ++ concat (docs body)]
  | _, .initializerDecl _ body isStatic =>
    [(if isStatic then "static " else "") ++ concat (docs body)]
  | _, .classDecl _ mods id tparams extend implement permit body =>
    [each " " (docs mods) ++ "class " ++ concat (docs id) ++ concat (docs tparams)
      ++ lead " extends " (docs extend) ++ clause " implements " ", " (docs implement)
      ++ clause " permits " ", " (docs permit) ++ " " ++ braces (docs body)]
  | _, .interfaceDecl _ mods id tparams extend permit body =>
    [each " " (docs mods) ++ "interface " ++ concat (docs id) ++ concat (docs tparams)
      ++ clause " extends " ", " (docs extend) ++ clause " permits " ", " (docs permit) ++ " "
      ++ braces (docs body)]
  | _, .enumDecl _ mods id implement constants body =>
    [each " " (docs mods) ++ "enum " ++ concat (docs id)
      ++ clause " implements " ", " (docs implement) ++ " "
      ++ enumBody (docs constants) (docs body)]
  | _, .recordDecl _ mods id tparams components implement body =>
    [each " " (docs mods) ++ "record " ++ concat (docs id) ++ concat (docs tparams)
      ++ tuple (docs components) ++ clause " implements " ", " (docs implement) ++ " "
      ++ braces (docs body)]
  | _, .annotationDecl _ mods id body =>
    [each " " (docs mods) ++ "@interface " ++ concat (docs id) ++ " " ++ braces (docs body)]
  | _, .elementDecl _ mods ty id value =>
    [each " " (docs mods) ++ concat (docs ty) ++ " " ++ concat (docs id) ++ "()"
      ++ lead " default " (docs value) ++ ";"]
  -- parts of declarations
  | _, .enumConstant _ anns id args body =>
    [each " " (docs anns) ++ concat (docs id) ++ arguments args (docs args)
      ++ classBody body (docs body)]
  | _, .recordComponent _ anns ty isVariableArity id =>
    [each " " (docs anns) ++ concat (docs ty) ++ (if isVariableArity then "... " else " ")
      ++ concat (docs id)]
  -- compilation units and modules
  | _, .packageDecl _ anns qname =>
    [each " " (docs anns) ++ "package " ++ concat (docs qname) ++ ";"]
  | _, .importDecl _ isStatic qname isOnDemand =>
    ["import " ++ (if isStatic then "static " else "") ++ concat (docs qname)
      ++ (if isOnDemand then ".*;" else ";")]
  | _, .requiresDirective _ mods qname =>
    ["requires " ++ each " " (docs mods) ++ concat (docs qname) ++ ";"]
  | _, .exportsDirective _ qname targets =>
    ["exports " ++ concat (docs qname) ++ clause " to " ", " (docs targets) ++ ";"]
  | _, .opensDirective _ qname targets =>
    ["opens " ++ concat (docs qname) ++ clause " to " ", " (docs targets) ++ ";"]
  | _, .usesDirective _ qname => ["uses " ++ concat (docs qname) ++ ";"]
  | _, .providesDirective _ qname providers =>
    ["provides " ++ concat (docs qname) ++ clause " with " ", " (docs providers) ++ ";"]
  | _, .moduleDecl _ anns isOpen qname directives =>
    [each " " (docs anns) ++ (if isOpen then "open " else "") ++ "module " ++ concat (docs qname)
      ++ " " ++ braces (docs directives)]
  | _, .ordinaryUnit _ package imports decls =>
    [sections (docs package) (docs imports) (docs decls)]
  | _, .modularUnit _ imports module => [sections [] (docs imports) (docs module)]

/-- The document of a node that stands alone.  Variables end in a semicolon then. -/
def Node.doc {c : Category} (n : Node c) : Doc :=
  match c with
  | .localVariables => concat n.docs ++ ";"
  | _               => concat n.docs

/-- The text of a node, with a number of blanks for each level; with none all is on one line. -/
def Node.print {c : Category} (n : Node c) (indent : Nat) : Except PrintError String :=
  n.doc.render indent

/-- The text of a node. -/
def AnyNode.print (n : AnyNode) (indent : Nat) : Except PrintError String := n.node.print indent

end JavaSource
