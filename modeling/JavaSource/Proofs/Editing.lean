import JavaSource.Syntax.Kind
import JavaSource.Proofs.Preorder

/-!
# Trees with statements left out and names changed

An edit says which statements to leave out and what to call what has a name.  `Node.edited` is the
tree that comes of it, without a thought for whether the tree may look so: a statement that is left
out goes from lists and from places that may stay empty, and stays where there has to be one.

* `Node.within`: the nodes in a tree that are in no statement that is passed over.  If none is,
  these are all nodes of the tree, with those that stand for a choice
  (`Node.preorder_eq_filter_within`).
* `Node.isEmptied`: a node cannot do without a statement that is left out.
* `Node.within_edited`: if this happens nowhere, the nodes in the edited tree are those of the tree
  that are in no statement that is left out, in the same order, edited.
-/

namespace JavaSource

/-! ### Statements that are passed over -/

namespace Node

variable {c : Category}

/-- Whether the node is a statement to be passed over. -/
def isIn (skip : Stmt → Bool) : {c : Category} → Node c → Bool
  | .stmt, s => skip s
  | _,     _ => false

theorem isIn_never (n : Node c) : n.isIn (fun _ => false) = false := by cases c <;> rfl

theorem isIn_eq_false (skip : Stmt → Bool) (hc : c ≠ .stmt) (n : Node c) : n.isIn skip = false := by
  cases c with
  | stmt => exact absurd rfl hc
  | _ => rfl

/-- A node in front of what is in its parts, or nothing if it is passed over. -/
def passing (skip : Stmt → Bool) (n : Node c) (parts : List (List AnyNode)) : List AnyNode :=
  if n.isIn skip then [] else ⟨c, n⟩ :: parts.flatten

/-- The nodes in a tree, itself first, but for statements that are passed over and all that is in
them; lists and options are seen as what is in them. -/
def within (skip : Stmt → Bool) : {c : Category} → Node c → List AnyNode
  | _, .nil | _, .absent => []
  | _, .cons head tail => head.within skip ++ tail.within skip
  | _, .present value => value.within skip
  -- By the number of parts.
  | _, n@(.identifier _ _) | _, n@(.literal _ _) | _, n@(.keywordModifier _ _)
  | _, n@(.binaryOperator _) | _, n@(.unaryOperator _) | _, n@(.postOperator _)
  | _, n@(.assignOperator _) | _, n@(.emptyStmt _) | _, n@(.defaultLabel _) | _, n@(.noInit)
  | _, n@(.emptyDecl _) => n.passing skip []
  | _, n@(.qualifiedName _ a) | _, n@(.annotationModifier a) | _, n@(.valueElement a)
  | _, n@(.exprValue a) | _, n@(.annotationValue a) | _, n@(.elementValueArray _ a)
  | _, n@(.wordType _ a _) | _, n@(.wildcardBound _ a _ _) | _, n@(.typeArguments _ a)
  | _, n@(.dim _ a) | _, n@(.typeParameters _ a) | _, n@(.exprItem a) | _, n@(.name _ a)
  | _, n@(.constant _ a) | _, n@(.thisExpr _ a) | _, n@(.classExpr _ a) | _, n@(.arrayInit a)
  | _, n@(.singleParam a) | _, n@(.nameParams a) | _, n@(.formalParams a) | _, n@(.exprBody a)
  | _, n@(.blockBody a) | _, n@(.typeTarget a) | _, n@(.patternTarget a)
  | _, n@(.arrayInitializer _ a) | _, n@(.exprReference a) | _, n@(.typeReference a)
  | _, n@(.blockStmt a) | _, n@(.localTypeStmt _ a) | _, n@(.localVariableStmt a)
  | _, n@(.exprStmt _ a) | _, n@(.breakStmt _ a) | _, n@(.continueStmt _ a) | _, n@(.returnStmt _ a)
  | _, n@(.throwStmt _ a) | _, n@(.yieldStmt _ a) | _, n@(.block _ a) | _, n@(.exprCase a)
  | _, n@(.caseLabel _ a) | _, n@(.exprsInit a) | _, n@(.variablesInit a) | _, n@(.nameResource a)
  | _, n@(.initializerDecl _ a _) | _, n@(.importDecl _ _ a _) | _, n@(.usesDirective _ a) =>
    n.passing skip [a.within skip]
  | _, n@(.annotationUse _ a b) | _, n@(.elementValuePair _ a b) | _, n@(.classType _ a b)
  | _, n@(.wildcardType _ a b) | _, n@(.typeBound _ a b) | _, n@(.guardedPattern _ a b)
  | _, n@(.lambda _ a b) | _, n@(.instanceOf _ a b) | _, n@(.unary _ a b) | _, n@(.post _ a b)
  | _, n@(.switchExpr _ a b) | _, n@(.call _ a b) | _, n@(.member _ a b) | _, n@(.index _ a b)
  | _, n@(.genericCall _ a b) | _, n@(.dimExpr _ a b) | _, n@(.switchRule _ _ a _ b)
  | _, n@(.labeledStmt _ a b) | _, n@(.assertStmt _ a b) | _, n@(.switchStmt _ a b)
  | _, n@(.whileStmt _ a b) | _, n@(.doWhileStmt _ a b) | _, n@(.synchronizedStmt _ a b)
  | _, n@(.matchValue _ a b) | _, n@(.switchGroup _ a b) | _, n@(.variableDeclaratorId _ a b)
  | _, n@(.variableDeclarator _ a b) | _, n@(.receiverParameter _ a b)
  | _, n@(.formalParameters _ a b) | _, n@(.packageDecl _ a b) | _, n@(.requiresDirective _ a b)
  | _, n@(.exportsDirective _ a b) | _, n@(.opensDirective _ a b) | _, n@(.providesDirective _ a b)
  | _, n@(.modularUnit _ a b) => n.passing skip [a.within skip, b.within skip]
  | _, n@(.arrayType _ a b d) | _, n@(.coit _ a b d) | _, n@(.typeParameter _ a b d)
  | _, n@(.superExpr _ a b d) | _, n@(.assignment _ a b d) | _, n@(.conditional _ a b d)
  | _, n@(.binary _ a b d) | _, n@(.cast _ a b d) | _, n@(.reference _ a b d _)
  | _, n@(.ifStmt _ a b d) | _, n@(.tryStmt _ a b d) | _, n@(.localVariables _ a b d)
  | _, n@(.switchBlock _ a b d) | _, n@(.resource _ a b d) | _, n@(.parameter _ a b d)
  | _, n@(.fieldDecl _ a b d) | _, n@(.compactConstructorDecl _ a b d)
  | _, n@(.annotationDecl _ a b d) | _, n@(.recordComponent _ a b _ d)
  | _, n@(.moduleDecl _ a _ b d) | _, n@(.ordinaryUnit _ a b d) =>
    n.passing skip [a.within skip, b.within skip, d.within skip]
  | _, n@(.pattern _ a b d e) | _, n@(.newObject _ a b d e) | _, n@(.newArray _ a b d e)
  | _, n@(.forStmt _ a b d e) | _, n@(.tryResourcesStmt _ a b d e) | _, n@(.catchClause _ a b d e)
  | _, n@(.variableArityParameter _ a b d e) | _, n@(.elementDecl _ a b d e)
  | _, n@(.enumConstant _ a b d e) =>
    n.passing skip [a.within skip, b.within skip, d.within skip, e.within skip]
  | _, n@(.newInner _ a b d e f) | _, n@(.forEachStmt _ a b d e f) | _, n@(.enumDecl _ a b d e f) =>
    n.passing skip [a.within skip, b.within skip, d.within skip, e.within skip, f.within skip]
  | _, n@(.constructorDecl _ a b d e f g) | _, n@(.interfaceDecl _ a b d e f g)
  | _, n@(.recordDecl _ a b d e f g) =>
    n.passing skip [a.within skip, b.within skip, d.within skip, e.within skip, f.within skip,
      g.within skip]
  | _, n@(.classDecl _ a b d e f g h) =>
    n.passing skip [a.within skip, b.within skip, d.within skip, e.within skip, f.within skip,
      g.within skip, h.within skip]
  | _, n@(.methodDecl _ a b d e f g h i j) =>
    n.passing skip [a.within skip, b.within skip, d.within skip, e.within skip, f.within skip,
      g.within skip, h.within skip, i.within skip, j.within skip]

/-- Whether all statements are passed over that the node cannot do without: the only one in its
place, or all of a group. -/
def isEmptied (skip : Stmt → Bool) : {c : Category} → Node c → Bool
  | _, .labeledStmt _ _ body | _, .ifStmt _ _ body _ | _, .whileStmt _ _ body
  | _, .doWhileStmt _ body _ | _, .forStmt _ _ _ _ body | _, .forEachStmt _ _ _ _ _ body =>
    skip body
  | _, .switchGroup _ _ body => body.toList.all skip
  | _, _ => false

end Node

/-- Whether the node stands for what was chosen, or for there being nothing. -/
def AnyNode.isChoice : AnyNode → Bool
  | ⟨_, .annotationModifier _⟩ | ⟨_, .valueElement _⟩ | ⟨_, .exprValue _⟩
  | ⟨_, .annotationValue _⟩ | ⟨_, .exprItem _⟩ | ⟨_, .arrayInit _⟩ | ⟨_, .singleParam _⟩
  | ⟨_, .nameParams _⟩ | ⟨_, .formalParams _⟩ | ⟨_, .exprBody _⟩ | ⟨_, .blockBody _⟩
  | ⟨_, .typeTarget _⟩ | ⟨_, .patternTarget _⟩ | ⟨_, .exprReference _⟩ | ⟨_, .typeReference _⟩
  | ⟨_, .blockStmt _⟩ | ⟨_, .localVariableStmt _⟩ | ⟨_, .exprCase _⟩ | ⟨_, .noInit⟩
  | ⟨_, .exprsInit _⟩ | ⟨_, .variablesInit _⟩ | ⟨_, .nameResource _⟩ => true
  | _ => false

/-! ### Edits -/

/-- What to leave out of a tree, and what to change in it. -/
structure Edit where
  /-- The statements that are left out. -/
  drops : Stmt → Bool
  /-- The new name for a name. -/
  name : String → String

/-- The tree without the statements to be left out, and with new names. -/
def Node.edited (edit : Edit) : {c : Category} → Node c → Node c
  | _, .nil => .nil
  | _, .cons head tail =>
    if head.isIn edit.drops then tail.edited edit else .cons (head.edited edit) (tail.edited edit)
  | _, .absent => .absent
  | _, .present value =>
    if value.isIn edit.drops then .absent else .present (value.edited edit)
  -- names and literals
  | _, .identifier s qname => .identifier s (edit.name qname)
  | _, .qualifiedName s a => .qualifiedName s (a.edited edit)
  | _, .literal s value => .literal s value
  -- modifiers and annotations
  | _, .keywordModifier s word => .keywordModifier s word
  | _, .annotationModifier a => .annotationModifier (a.edited edit)
  | _, .annotationUse s a b => .annotationUse s (a.edited edit) (b.edited edit)
  | _, .elementValuePair s a b => .elementValuePair s (a.edited edit) (b.edited edit)
  | _, .valueElement a => .valueElement (a.edited edit)
  | _, .exprValue a => .exprValue (a.edited edit)
  | _, .annotationValue a => .annotationValue (a.edited edit)
  | _, .elementValueArray s a => .elementValueArray s (a.edited edit)
  -- types and patterns
  | _, .wordType s a word => .wordType s (a.edited edit) word
  | _, .classType s a b => .classType s (a.edited edit) (b.edited edit)
  | _, .arrayType s a b d => .arrayType s (a.edited edit) (b.edited edit) (d.edited edit)
  | _, .wildcardType s a b => .wildcardType s (a.edited edit) (b.edited edit)
  | _, .coit s a b d => .coit s (a.edited edit) (b.edited edit) (d.edited edit)
  | _, .wildcardBound s a isExtends isSuper => .wildcardBound s (a.edited edit) isExtends isSuper
  | _, .typeArguments s a => .typeArguments s (a.edited edit)
  | _, .dim s a => .dim s (a.edited edit)
  | _, .typeParameter s a b d => .typeParameter s (a.edited edit) (b.edited edit) (d.edited edit)
  | _, .typeBound s a b => .typeBound s (a.edited edit) (b.edited edit)
  | _, .typeParameters s a => .typeParameters s (a.edited edit)
  | _, .pattern s a b d e =>
    .pattern s (a.edited edit) (b.edited edit) (d.edited edit) (e.edited edit)
  | _, .guardedPattern s a b => .guardedPattern s (a.edited edit) (b.edited edit)
  | _, .exprItem a => .exprItem (a.edited edit)
  -- operators
  | _, .binaryOperator op => .binaryOperator op
  | _, .unaryOperator op => .unaryOperator op
  | _, .postOperator op => .postOperator op
  | _, .assignOperator op => .assignOperator op
  -- expressions
  | _, .name s a => .name s (a.edited edit)
  | _, .constant s a => .constant s (a.edited edit)
  | _, .thisExpr s a => .thisExpr s (a.edited edit)
  | _, .superExpr s a b d => .superExpr s (a.edited edit) (b.edited edit) (d.edited edit)
  | _, .classExpr s a => .classExpr s (a.edited edit)
  | _, .lambda s a b => .lambda s (a.edited edit) (b.edited edit)
  | _, .assignment s a b d => .assignment s (a.edited edit) (b.edited edit) (d.edited edit)
  | _, .conditional s a b d => .conditional s (a.edited edit) (b.edited edit) (d.edited edit)
  | _, .binary s a b d => .binary s (a.edited edit) (b.edited edit) (d.edited edit)
  | _, .instanceOf s a b => .instanceOf s (a.edited edit) (b.edited edit)
  | _, .unary s a b => .unary s (a.edited edit) (b.edited edit)
  | _, .post s a b => .post s (a.edited edit) (b.edited edit)
  | _, .cast s a b d => .cast s (a.edited edit) (b.edited edit) (d.edited edit)
  | _, .newObject s a b d e =>
    .newObject s (a.edited edit) (b.edited edit) (d.edited edit) (e.edited edit)
  | _, .newInner s a b d e f =>
    .newInner s (a.edited edit) (b.edited edit) (d.edited edit) (e.edited edit) (f.edited edit)
  | _, .newArray s a b d e =>
    .newArray s (a.edited edit) (b.edited edit) (d.edited edit) (e.edited edit)
  | _, .switchExpr s a b => .switchExpr s (a.edited edit) (b.edited edit)
  | _, .call s a b => .call s (a.edited edit) (b.edited edit)
  | _, .member s a b => .member s (a.edited edit) (b.edited edit)
  | _, .index s a b => .index s (a.edited edit) (b.edited edit)
  | _, .reference s a b d isNew =>
    .reference s (a.edited edit) (b.edited edit) (d.edited edit) isNew
  | _, .genericCall s a b => .genericCall s (a.edited edit) (b.edited edit)
  | _, .arrayInit a => .arrayInit (a.edited edit)
  -- parts of expressions
  | _, .singleParam a => .singleParam (a.edited edit)
  | _, .nameParams a => .nameParams (a.edited edit)
  | _, .formalParams a => .formalParams (a.edited edit)
  | _, .exprBody a => .exprBody (a.edited edit)
  | _, .blockBody a => .blockBody (a.edited edit)
  | _, .typeTarget a => .typeTarget (a.edited edit)
  | _, .patternTarget a => .patternTarget (a.edited edit)
  | _, .dimExpr s a b => .dimExpr s (a.edited edit) (b.edited edit)
  | _, .arrayInitializer s a => .arrayInitializer s (a.edited edit)
  | _, .switchRule s isDefault a isArrow b =>
    .switchRule s isDefault (a.edited edit) isArrow (b.edited edit)
  | _, .exprReference a => .exprReference (a.edited edit)
  | _, .typeReference a => .typeReference (a.edited edit)
  -- statements
  | _, .emptyStmt s => .emptyStmt s
  | _, .blockStmt a => .blockStmt (a.edited edit)
  | _, .localTypeStmt s a => .localTypeStmt s (a.edited edit)
  | _, .localVariableStmt a => .localVariableStmt (a.edited edit)
  | _, .labeledStmt s a b => .labeledStmt s (a.edited edit) (b.edited edit)
  | _, .exprStmt s a => .exprStmt s (a.edited edit)
  | _, .ifStmt s a b d => .ifStmt s (a.edited edit) (b.edited edit) (d.edited edit)
  | _, .assertStmt s a b => .assertStmt s (a.edited edit) (b.edited edit)
  | _, .switchStmt s a b => .switchStmt s (a.edited edit) (b.edited edit)
  | _, .whileStmt s a b => .whileStmt s (a.edited edit) (b.edited edit)
  | _, .doWhileStmt s a b => .doWhileStmt s (a.edited edit) (b.edited edit)
  | _, .forStmt s a b d e =>
    .forStmt s (a.edited edit) (b.edited edit) (d.edited edit) (e.edited edit)
  | _, .forEachStmt s a b d e f =>
    .forEachStmt s (a.edited edit) (b.edited edit) (d.edited edit) (e.edited edit) (f.edited edit)
  | _, .breakStmt s a => .breakStmt s (a.edited edit)
  | _, .continueStmt s a => .continueStmt s (a.edited edit)
  | _, .returnStmt s a => .returnStmt s (a.edited edit)
  | _, .throwStmt s a => .throwStmt s (a.edited edit)
  | _, .synchronizedStmt s a b => .synchronizedStmt s (a.edited edit) (b.edited edit)
  | _, .yieldStmt s a => .yieldStmt s (a.edited edit)
  | _, .tryStmt s a b d => .tryStmt s (a.edited edit) (b.edited edit) (d.edited edit)
  | _, .tryResourcesStmt s a b d e =>
    .tryResourcesStmt s (a.edited edit) (b.edited edit) (d.edited edit) (e.edited edit)
  -- parts of statements
  | _, .block s a => .block s (a.edited edit)
  | _, .localVariables s a b d => .localVariables s (a.edited edit) (b.edited edit) (d.edited edit)
  | _, .matchValue s a b => .matchValue s (a.edited edit) (b.edited edit)
  | _, .exprCase a => .exprCase (a.edited edit)
  | _, .caseLabel s a => .caseLabel s (a.edited edit)
  | _, .defaultLabel s => .defaultLabel s
  | _, .switchGroup s a b => .switchGroup s (a.edited edit) (b.edited edit)
  | _, .switchBlock s a b d => .switchBlock s (a.edited edit) (b.edited edit) (d.edited edit)
  | _, .noInit => .noInit
  | _, .exprsInit a => .exprsInit (a.edited edit)
  | _, .variablesInit a => .variablesInit (a.edited edit)
  | _, .catchClause s a b d e =>
    .catchClause s (a.edited edit) (b.edited edit) (d.edited edit) (e.edited edit)
  | _, .resource s a b d => .resource s (a.edited edit) (b.edited edit) (d.edited edit)
  | _, .nameResource a => .nameResource (a.edited edit)
  -- variables and parameters
  | _, .variableDeclaratorId s a b => .variableDeclaratorId s (a.edited edit) (b.edited edit)
  | _, .variableDeclarator s a b => .variableDeclarator s (a.edited edit) (b.edited edit)
  | _, .receiverParameter s a b => .receiverParameter s (a.edited edit) (b.edited edit)
  | _, .parameter s a b d => .parameter s (a.edited edit) (b.edited edit) (d.edited edit)
  | _, .variableArityParameter s a b d e =>
    .variableArityParameter s (a.edited edit) (b.edited edit) (d.edited edit) (e.edited edit)
  | _, .formalParameters s a b => .formalParameters s (a.edited edit) (b.edited edit)
  -- declarations
  | _, .emptyDecl s => .emptyDecl s
  | _, .fieldDecl s a b d => .fieldDecl s (a.edited edit) (b.edited edit) (d.edited edit)
  | _, .methodDecl s a b d e f g h i j =>
    .methodDecl s (a.edited edit) (b.edited edit) (d.edited edit) (e.edited edit) (f.edited edit)
      (g.edited edit) (h.edited edit) (i.edited edit) (j.edited edit)
  | _, .constructorDecl s a b d e f g =>
    .constructorDecl s (a.edited edit) (b.edited edit) (d.edited edit) (e.edited edit)
      (f.edited edit) (g.edited edit)
  | _, .compactConstructorDecl s a b d =>
    .compactConstructorDecl s (a.edited edit) (b.edited edit) (d.edited edit)
  | _, .initializerDecl s a isStatic => .initializerDecl s (a.edited edit) isStatic
  | _, .classDecl s a b d e f g h =>
    .classDecl s (a.edited edit) (b.edited edit) (d.edited edit) (e.edited edit) (f.edited edit)
      (g.edited edit) (h.edited edit)
  | _, .interfaceDecl s a b d e f g =>
    .interfaceDecl s (a.edited edit) (b.edited edit) (d.edited edit) (e.edited edit) (f.edited edit)
      (g.edited edit)
  | _, .enumDecl s a b d e f =>
    .enumDecl s (a.edited edit) (b.edited edit) (d.edited edit) (e.edited edit) (f.edited edit)
  | _, .recordDecl s a b d e f g =>
    .recordDecl s (a.edited edit) (b.edited edit) (d.edited edit) (e.edited edit) (f.edited edit)
      (g.edited edit)
  | _, .annotationDecl s a b d => .annotationDecl s (a.edited edit) (b.edited edit) (d.edited edit)
  | _, .elementDecl s a b d e =>
    .elementDecl s (a.edited edit) (b.edited edit) (d.edited edit) (e.edited edit)
  -- parts of declarations
  | _, .enumConstant s a b d e =>
    .enumConstant s (a.edited edit) (b.edited edit) (d.edited edit) (e.edited edit)
  | _, .recordComponent s a b isVariableArity d =>
    .recordComponent s (a.edited edit) (b.edited edit) isVariableArity (d.edited edit)
  -- compilation units and modules
  | _, .packageDecl s a b => .packageDecl s (a.edited edit) (b.edited edit)
  | _, .importDecl s isStatic a isOnDemand => .importDecl s isStatic (a.edited edit) isOnDemand
  | _, .requiresDirective s a b => .requiresDirective s (a.edited edit) (b.edited edit)
  | _, .exportsDirective s a b => .exportsDirective s (a.edited edit) (b.edited edit)
  | _, .opensDirective s a b => .opensDirective s (a.edited edit) (b.edited edit)
  | _, .usesDirective s a => .usesDirective s (a.edited edit)
  | _, .providesDirective s a b => .providesDirective s (a.edited edit) (b.edited edit)
  | _, .moduleDecl s a isOpen b d =>
    .moduleDecl s (a.edited edit) isOpen (b.edited edit) (d.edited edit)
  | _, .ordinaryUnit s a b d => .ordinaryUnit s (a.edited edit) (b.edited edit) (d.edited edit)
  | _, .modularUnit s a b => .modularUnit s (a.edited edit) (b.edited edit)

/-- A node of any category, edited. -/
def AnyNode.edited (edit : Edit) (x : AnyNode) : AnyNode := ⟨x.category, x.node.edited edit⟩

/-- No statement is left out that a node in the tree cannot do without. -/
def Edit.Spares (edit : Edit) {c : Category} (n : Node c) : Prop :=
  ∀ x ∈ n.within edit.drops, x.node.isEmptied edit.drops = false

namespace Node

variable {c d : Category} {skip : Stmt → Bool} {edit : Edit} {parts : List (List AnyNode)}

/-! ### What is within a tree -/

theorem within_cons (head : Node c) (tail : Nodes c) :
    (cons head tail).within skip = head.within skip ++ tail.within skip := rfl

theorem within_present (value : Node c) : (present value).within skip = value.within skip := rfl

theorem within_of_isIn {n : Node c} (h : n.isIn skip = true) : n.within skip = [] := by
  cases n <;> first | rfl | exact if_pos h

theorem forall_passing {P : AnyNode → Prop} {n : Node c} (hn : n.isIn skip = false → P ⟨c, n⟩)
    (h : EachPart P parts) : ∀ x ∈ n.passing skip parts, P x := by
  rw [passing]
  split
  · exact List.forall_mem_nil _
  · rename_i hin
    exact Each.tree (hn (eq_false_of_ne_true hin)) h

/-- What is within a tree is not passed over. -/
theorem isIn_of_mem_within {n : Node c} : ∀ x ∈ n.within skip, x.node.isIn skip = false := by
  induction n with
  | nil | absent => exact List.forall_mem_nil _
  | cons _ _ hhead htail => exact List.forall_mem_append.mpr ⟨hhead, htail⟩
  | present _ ih => exact ih
  | _ =>
    refine forall_passing id ?_
    -- One list of nodes for each part.
    repeat' first | exact trivial | refine And.intro ‹_› ?_

/-- What an edit spares, part by part. -/
theorem spares_passing_iff {n : Node c} (hin : n.isIn edit.drops = false) :
    (∀ x ∈ n.passing edit.drops parts, x.node.isEmptied edit.drops = false) ↔
      n.isEmptied edit.drops = false ∧
        EachPart (fun x => x.node.isEmptied edit.drops = false) parts := by
  rw [passing, hin, eachPart_iff]
  exact List.forall_mem_cons

/-! ### All nodes of a tree -/

theorem filter_choice {n : AnyNode} {ns ms : List AnyNode} (hn : n.isChoice = true)
    (h : ns = ms.filter (!·.isChoice)) : ns = (n :: [ms].flatten).filter (!·.isChoice) := by
  rw [List.filter_cons_of_neg (by simp [hn]), List.flatten_singleton, h]

theorem filter_node {n : AnyNode} {parts parts' : List (List AnyNode)} (hn : n.isChoice = false)
    (h : parts.flatten = parts'.flatten.filter (!·.isChoice)) :
    n :: parts.flatten = (n :: parts'.flatten).filter (!·.isChoice) := by
  rw [List.filter_cons_of_pos (by simp [hn]), h]

theorem filter_part {ns ms : List AnyNode} {parts parts' : List (List AnyNode)}
    (h : ns = ms.filter (!·.isChoice))
    (hparts : parts.flatten = parts'.flatten.filter (!·.isChoice)) :
    (ns :: parts).flatten = (ms :: parts').flatten.filter (!·.isChoice) := by
  rw [List.flatten_cons, List.flatten_cons, List.filter_append, h, hparts]

/-- If no statement is passed over, all nodes in a tree are within it. -/
theorem preorder_eq_filter_within (n : Node c) :
    n.preorder true = (n.within fun _ => false).filter (!·.isChoice) := by
  induction n with
  | nil | absent | noInit => rfl
  | cons head tail hhead htail =>
    rw [within_cons, List.filter_append, ← hhead, ← htail]
    rfl
  | present _ ih => exact ih
  | annotationModifier _ ih | valueElement _ ih | exprValue _ ih | annotationValue _ ih
  | exprItem _ ih | arrayInit _ ih | singleParam _ ih | nameParams _ ih | formalParams _ ih
  | exprBody _ ih | blockBody _ ih | typeTarget _ ih | patternTarget _ ih | exprReference _ ih
  | typeReference _ ih | blockStmt _ ih | localVariableStmt _ ih | exprCase _ ih | exprsInit _ ih
  | variablesInit _ ih | nameResource _ ih => exact filter_choice rfl ih
  | identifier | literal | keywordModifier | binaryOperator | unaryOperator | postOperator
  | assignOperator | emptyStmt | defaultLabel | emptyDecl => rfl
  | _ =>
    refine filter_node rfl ?_
    repeat' refine filter_part ‹_› ?_
    rfl

/-! ### Kinds and lists of edited trees -/

theorem edited_cons (head : Node c) (tail : Nodes c) :
    (cons head tail).edited edit =
      if head.isIn edit.drops then tail.edited edit
      else cons (head.edited edit) (tail.edited edit) := rfl

theorem edited_present (value : Node c) :
    (present value).edited edit =
      if value.isIn edit.drops then absent else present (value.edited edit) := rfl

theorem kind?_nodes (ns : Nodes c) : ns.kind? = none := by cases ns <;> rfl

@[simp] theorem kind?_edited (edit : Edit) (n : Node c) : (n.edited edit).kind? = n.kind? := by
  induction n with
  | cons => exact kind?_nodes _
  | present value =>
    rw [edited_present]
    split <;> rfl
  | annotationModifier _ ih | valueElement _ ih | exprValue _ ih | annotationValue _ ih
  | exprItem _ ih | arrayInit _ ih | singleParam _ ih | formalParams _ ih | exprBody _ ih
  | blockBody _ ih | typeTarget _ ih | patternTarget _ ih | exprReference _ ih
  | typeReference _ ih | blockStmt _ ih | localVariableStmt _ ih | exprCase _ ih
  | variablesInit _ ih | nameResource _ ih => exact ih
  | _ => rfl

/-- A list of nodes other than statements keeps its length. -/
theorem isEmpty_edited (hc : c ≠ .stmt) (ns : Nodes c) : (ns.edited edit).isEmpty = ns.isEmpty := by
  cases ns with
  | nil => rfl
  | cons head _ =>
    rw [edited_cons, isIn_eq_false _ hc]
    rfl

theorem isEmpty_edited_stmts : (body : Nodes .stmt) →
    (body.edited edit).isEmpty = body.toList.all edit.drops
  | .nil => rfl
  | .cons head tail => by
    rw [edited_cons, toList_cons, List.all_cons, ← isEmpty_edited_stmts tail]
    change (if edit.drops head then _ else _ : Nodes _).isEmpty = _
    cases edit.drops head <;> rfl

/-! ### What is within an edited tree -/

theorem passing_edited {n n' : Node c} {parts' : List (List AnyNode)}
    (hin : n.isIn edit.drops = false) (hn' : n' = n.edited edit)
    (h : EachPart (fun x => x.node.isEmptied edit.drops = false) parts →
      parts'.flatten = parts.flatten.map (AnyNode.edited edit))
    (hn : ∀ x ∈ n.passing edit.drops parts, x.node.isEmptied edit.drops = false) :
    n'.passing (fun _ => false) parts' =
      (n.passing edit.drops parts).map (AnyNode.edited edit) := by
  have hparts := h ((spares_passing_iff hin).mp hn).2
  rw [passing, passing, hin, isIn_never]
  subst hn'
  exact congrArg (_ :: ·) hparts

theorem part_edited {a : Node d} {rest rest' : List (List AnyNode)}
    (hin : a.isIn edit.drops = false)
    (ha : a.isIn edit.drops = false → edit.Spares a →
      (a.edited edit).within (fun _ => false) = (a.within edit.drops).map (AnyNode.edited edit))
    (hrest : EachPart (fun x => x.node.isEmptied edit.drops = false) rest →
      rest'.flatten = rest.flatten.map (AnyNode.edited edit))
    (h : EachPart (fun x => x.node.isEmptied edit.drops = false) (a.within edit.drops :: rest)) :
    ((a.edited edit).within (fun _ => false) :: rest').flatten =
      (a.within edit.drops :: rest).flatten.map (AnyNode.edited edit) := by
  rw [List.flatten_cons, List.flatten_cons, List.map_append, ha hin h.1, hrest h.2]

/-- **If no statement is left out that a node cannot do without, what is within the edited tree is
what was in no statement that is left out, edited.** -/
theorem within_edited {n : Node c} : n.isIn edit.drops = false → edit.Spares n →
    (n.edited edit).within (fun _ => false) =
      (n.within edit.drops).map (AnyNode.edited edit) := by
  induction n with
  | nil | absent => exact fun _ _ => rfl
  | cons head tail hhead htail =>
    intro _ h
    obtain ⟨hh, ht⟩ := List.forall_mem_append.mp h
    have htail := htail rfl ht
    rw [edited_cons, within_cons, List.map_append, ← htail]
    cases hin : head.isIn edit.drops with
    | true =>
      rw [within_of_isIn hin]
      rfl
    | false =>
      rw [← hhead hin hh]
      rfl
  | present value ih =>
    intro _ h
    rw [edited_present, within_present]
    cases hin : value.isIn edit.drops with
    | true =>
      rw [within_of_isIn hin]
      rfl
    | false => exact ih hin h
  | labeledStmt | ifStmt | whileStmt | doWhileStmt | forStmt | forEachStmt =>
    intro hin h
    have hbody := ((spares_passing_iff hin).mp h).1
    refine passing_edited hin rfl ?_ h
    repeat' first | refine part_edited rfl ‹_› ?_ | refine part_edited hbody ‹_› ?_
    exact fun _ => rfl
  | _ =>
    intro hin h
    refine passing_edited hin rfl ?_ h
    -- One list of nodes for each part.
    repeat' refine part_edited rfl ‹_› ?_
    exact fun _ => rfl

end Node

end JavaSource
