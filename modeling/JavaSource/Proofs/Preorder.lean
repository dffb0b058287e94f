import JavaSource.Syntax.Check
import JavaSource.Syntax.View

/-!
# The nodes of a tree

`Node.preorder` lists every node of a tree, itself first and then those of its parts from left to
right.  Views pass over the parameters of a method or a constructor that has none, so the list
comes in two forms: with these nodes, and without.

* `Node.Each P`: every node in the tree has `P`.  It holds of a node and its parts
  (`Node.Each.tree`), of the elements of a list (`Node.each_iff_toList`), and of every node in a
  tree if it holds of the tree (`Node.Each.below`).
* `Node.Valid`: every node in the tree obeys the rules about its kind.
* `Node.preorder_bared`: the two forms of the list differ in empty parameter lists only.
-/

namespace JavaSource

/-- The nodes in a tree, itself first; lists, options and choices are seen as what is in them.
Parameter lists of methods and constructors without anything in them may be left out. -/
def Node.preorder (bare : Bool) : {c : Category} → Node c → List AnyNode
  | _, .nil | _, .absent | _, .noInit => []
  | _, .cons head tail => head.preorder bare ++ tail.preorder bare
  -- What stands for what was chosen.
  | _, .present inner | _, .annotationModifier inner | _, .valueElement inner
  | _, .exprValue inner | _, .annotationValue inner | _, .exprItem inner | _, .arrayInit inner
  | _, .singleParam inner | _, .nameParams inner | _, .formalParams inner | _, .exprBody inner
  | _, .blockBody inner | _, .typeTarget inner | _, .patternTarget inner | _, .exprReference inner
  | _, .typeReference inner | _, .blockStmt inner | _, .localVariableStmt inner
  | _, .exprCase inner | _, .exprsInit inner | _, .variablesInit inner | _, .nameResource inner =>
    inner.preorder bare
  -- Nodes proper, by the number of their parts.
  | _, n@(.identifier _ _) | _, n@(.literal _ _) | _, n@(.keywordModifier _ _)
  | _, n@(.binaryOperator _) | _, n@(.unaryOperator _) | _, n@(.postOperator _)
  | _, n@(.assignOperator _) | _, n@(.emptyStmt _) | _, n@(.defaultLabel _) | _, n@(.emptyDecl _) =>
    [⟨_, n⟩]
  | _, n@(.qualifiedName _ a) | _, n@(.elementValueArray _ a) | _, n@(.wordType _ a _)
  | _, n@(.wildcardBound _ a _ _) | _, n@(.typeArguments _ a) | _, n@(.dim _ a)
  | _, n@(.typeParameters _ a) | _, n@(.name _ a) | _, n@(.constant _ a) | _, n@(.thisExpr _ a)
  | _, n@(.classExpr _ a) | _, n@(.arrayInitializer _ a) | _, n@(.localTypeStmt _ a)
  | _, n@(.exprStmt _ a) | _, n@(.breakStmt _ a) | _, n@(.continueStmt _ a)
  | _, n@(.returnStmt _ a) | _, n@(.throwStmt _ a) | _, n@(.yieldStmt _ a) | _, n@(.block _ a)
  | _, n@(.caseLabel _ a) | _, n@(.initializerDecl _ a _) | _, n@(.importDecl _ _ a _)
  | _, n@(.usesDirective _ a) => ⟨_, n⟩ :: [a.preorder bare].flatten
  | _, n@(.annotationUse _ a b) | _, n@(.elementValuePair _ a b) | _, n@(.classType _ a b)
  | _, n@(.wildcardType _ a b) | _, n@(.typeBound _ a b) | _, n@(.guardedPattern _ a b)
  | _, n@(.lambda _ a b) | _, n@(.instanceOf _ a b) | _, n@(.unary _ a b) | _, n@(.post _ a b)
  | _, n@(.switchExpr _ a b) | _, n@(.call _ a b) | _, n@(.member _ a b) | _, n@(.index _ a b)
  | _, n@(.genericCall _ a b) | _, n@(.dimExpr _ a b) | _, n@(.switchRule _ _ a _ b)
  | _, n@(.labeledStmt _ a b) | _, n@(.assertStmt _ a b) | _, n@(.switchStmt _ a b)
  | _, n@(.whileStmt _ a b) | _, n@(.doWhileStmt _ a b) | _, n@(.synchronizedStmt _ a b)
  | _, n@(.matchValue _ a b) | _, n@(.switchGroup _ a b) | _, n@(.variableDeclaratorId _ a b)
  | _, n@(.variableDeclarator _ a b) | _, n@(.receiverParameter _ a b)
  | _, n@(.formalParameters _ a b) | _, n@(.packageDecl _ a b) | _, n@(.requiresDirective _ a b)
  | _, n@(.exportsDirective _ a b) | _, n@(.opensDirective _ a b)
  | _, n@(.providesDirective _ a b) | _, n@(.modularUnit _ a b) =>
    ⟨_, n⟩ :: [a.preorder bare, b.preorder bare].flatten
  | _, n@(.arrayType _ a b d) | _, n@(.coit _ a b d) | _, n@(.typeParameter _ a b d)
  | _, n@(.superExpr _ a b d) | _, n@(.assignment _ a b d) | _, n@(.conditional _ a b d)
  | _, n@(.binary _ a b d) | _, n@(.cast _ a b d) | _, n@(.reference _ a b d _)
  | _, n@(.ifStmt _ a b d) | _, n@(.tryStmt _ a b d) | _, n@(.localVariables _ a b d)
  | _, n@(.switchBlock _ a b d) | _, n@(.resource _ a b d) | _, n@(.parameter _ a b d)
  | _, n@(.fieldDecl _ a b d) | _, n@(.compactConstructorDecl _ a b d)
  | _, n@(.annotationDecl _ a b d) | _, n@(.recordComponent _ a b _ d)
  | _, n@(.moduleDecl _ a _ b d) | _, n@(.ordinaryUnit _ a b d) =>
    ⟨_, n⟩ :: [a.preorder bare, b.preorder bare, d.preorder bare].flatten
  | _, n@(.pattern _ a b d e) | _, n@(.newObject _ a b d e) | _, n@(.newArray _ a b d e)
  | _, n@(.forStmt _ a b d e) | _, n@(.tryResourcesStmt _ a b d e) | _, n@(.catchClause _ a b d e)
  | _, n@(.variableArityParameter _ a b d e) | _, n@(.elementDecl _ a b d e)
  | _, n@(.enumConstant _ a b d e) =>
    ⟨_, n⟩ :: [a.preorder bare, b.preorder bare, d.preorder bare, e.preorder bare].flatten
  | _, n@(.newInner _ a b d e f) | _, n@(.forEachStmt _ a b d e f) | _, n@(.enumDecl _ a b d e f) =>
    ⟨_, n⟩ :: [a.preorder bare, b.preorder bare, d.preorder bare, e.preorder bare,
      f.preorder bare].flatten
  | _, n@(.interfaceDecl _ a b d e f g) | _, n@(.recordDecl _ a b d e f g) =>
    ⟨_, n⟩ :: [a.preorder bare, b.preorder bare, d.preorder bare, e.preorder bare,
      f.preorder bare, g.preorder bare].flatten
  | _, n@(.classDecl _ a b d e f g h) =>
    ⟨_, n⟩ :: [a.preorder bare, b.preorder bare, d.preorder bare, e.preorder bare,
      f.preorder bare, g.preorder bare, h.preorder bare].flatten
  -- A list without parameters may be left out here.
  | _, n@(.methodDecl _ a b d e f g h i j) =>
    ⟨_, n⟩ :: [a.preorder bare, b.preorder bare, d.preorder bare, e.preorder bare, f.preorder bare,
      if !bare && g.isBare then [] else g.preorder bare, h.preorder bare, i.preorder bare,
      j.preorder bare].flatten
  | _, n@(.constructorDecl _ a b d e f g) =>
    ⟨_, n⟩ :: [a.preorder bare, b.preorder bare, d.preorder bare,
      if !bare && e.isBare then [] else e.preorder bare, f.preorder bare, g.preorder bare].flatten

/-- Every node in the tree obeys the rules about its kind. -/
def Node.Valid {c : Category} (n : Node c) : Prop := ∀ x ∈ n.preorder true, x.node.flaw? = none

instance {c : Category} (n : Node c) : Decidable n.Valid :=
  inferInstanceAs (Decidable (∀ x ∈ n.preorder true, x.node.flaw? = none))

/-! ### Every node in a tree -/

/-- Every node in the tree has a property. -/
def Node.Each (P : AnyNode → Prop) {c : Category} (n : Node c) : Prop := ∀ x ∈ n.preorder true, P x

/-- Every node in each of the lists has a property. -/
def EachPart (P : AnyNode → Prop) : List (List AnyNode) → Prop
  | []         => True
  | ns :: rest => (∀ x ∈ ns, P x) ∧ EachPart P rest

namespace Node

variable {P Q : AnyNode → Prop} {c : Category}

theorem eachPart_iff {parts : List (List AnyNode)} :
    EachPart P parts ↔ ∀ x ∈ parts.flatten, P x := by
  induction parts with
  | nil => exact ⟨fun _ => List.forall_mem_nil _, fun _ => trivial⟩
  | cons ns rest ih => exact (and_congr_right' ih).trans List.forall_mem_append.symm

theorem Each.mono {n : Node c} (h : n.Each P) (hPQ : ∀ x, P x → Q x) : n.Each Q :=
  fun x hx => hPQ x (h x hx)

theorem Each.nil : (nil : Nodes c).Each P := List.forall_mem_nil _

theorem Each.absent : (absent : OptNode c).Each P := List.forall_mem_nil _

theorem Each.cons {n : Node c} {ns : Nodes c} (hn : n.Each P) (hns : ns.Each P) :
    (cons n ns).Each P := List.forall_mem_append.mpr ⟨hn, hns⟩

/-- A node without parts. -/
theorem Each.leaf {n : AnyNode} (h : P n) : ∀ x ∈ [n], P x := List.forall_mem_singleton.mpr h

/-- A node and its parts. -/
theorem Each.tree {n : AnyNode} {parts : List (List AnyNode)} (h : P n)
    (hparts : EachPart P parts) : ∀ x ∈ n :: parts.flatten, P x :=
  List.forall_mem_cons.mpr ⟨h, eachPart_iff.mp hparts⟩

theorem Each.parts {n : AnyNode} {parts : List (List AnyNode)} (h : ∀ x ∈ n :: parts.flatten, P x) :
    P n ∧ EachPart P parts :=
  (List.forall_mem_cons.mp h).imp_right eachPart_iff.mpr

theorem preorder_toList : (ns : Nodes c) →
    ns.preorder true = (ns.toList.map (preorder true)).flatten
  | .nil => rfl
  | .cons n ns => congrArg (n.preorder true ++ ·) (preorder_toList ns)

theorem each_iff_toList {ns : Nodes c} : ns.Each P ↔ ∀ n ∈ ns.toList, n.Each P := by
  rw [Each, preorder_toList]
  constructor
  · intro h n hn x hx
    exact h x (List.mem_flatten.mpr ⟨_, List.mem_map_of_mem hn, hx⟩)
  · intro h x hx
    obtain ⟨l, hl, hx⟩ := List.mem_flatten.mp hx
    obtain ⟨n, hn, rfl⟩ := List.mem_map.mp hl
    exact h n hn x hx

theorem each_ofList {ns : List (Node c)} (h : ∀ n ∈ ns, n.Each P) : (ofList ns).Each P := by
  rw [each_iff_toList, toList_ofList]
  exact h

theorem toList_append (ns ms : Nodes c) : (ns.append ms).toList = ns.toList ++ ms.toList := by
  rw [append]
  induction ns.toList with
  | nil => rfl
  | cons n ns ih => exact congrArg (n :: ·) ih

theorem append_nil : (ns : Nodes c) → ns.append .nil = ns
  | .nil => rfl
  | .cons n ns => congrArg (cons n) (append_nil ns)

theorem append_assoc (ns ms ls : Nodes c) : (ns.append ms).append ls = ns.append (ms.append ls) := by
  rw [append, toList_append, List.foldr_append]
  rfl

theorem Each.append {ns ms : Nodes c} (hns : ns.Each P) (hms : ms.Each P) :
    (ns.append ms).Each P := by
  rw [each_iff_toList] at hns hms ⊢
  rw [toList_append]
  exact List.forall_mem_append.mpr ⟨hns, hms⟩

theorem eachPart_imp {ns : List AnyNode} {rest : List (List AnyNode)}
    (h : (∀ x ∈ ns, P x) → ∀ x ∈ ns, Q x) (hrest : EachPart P rest → EachPart Q rest) :
    EachPart P (ns :: rest) → EachPart Q (ns :: rest) := And.imp h hrest

theorem Each.imp {n : AnyNode} {parts : List (List AnyNode)} (hn : Q n)
    (h : EachPart P parts → EachPart Q parts) (hP : ∀ x ∈ n :: parts.flatten, P x) :
    ∀ x ∈ n :: parts.flatten, Q x := Each.tree hn (h (Each.parts hP).2)

/-- What holds of every node in a tree holds of every node in each of its subtrees. -/
theorem Each.below {n : Node c} : n.Each P → n.Each fun x => x.node.Each P := by
  induction n with
  | nil | absent | noInit => exact fun _ => List.forall_mem_nil _
  | cons _ _ hhead htail =>
    intro h
    obtain ⟨hh, ht⟩ := List.forall_mem_append.mp h
    exact List.forall_mem_append.mpr ⟨hhead hh, htail ht⟩
  | present _ ih | annotationModifier _ ih | valueElement _ ih | exprValue _ ih
  | annotationValue _ ih | exprItem _ ih | arrayInit _ ih | singleParam _ ih | nameParams _ ih
  | formalParams _ ih | exprBody _ ih | blockBody _ ih | typeTarget _ ih | patternTarget _ ih
  | exprReference _ ih | typeReference _ ih | blockStmt _ ih | localVariableStmt _ ih
  | exprCase _ ih | exprsInit _ ih | variablesInit _ ih | nameResource _ ih => exact ih
  | identifier | literal | keywordModifier | binaryOperator | unaryOperator | postOperator
  | assignOperator | emptyStmt | defaultLabel | emptyDecl => exact fun h => Each.leaf h
  | _ =>
    refine fun h => Each.imp h ?_ h
    -- One list of nodes for each part.
    repeat' first | exact fun _ => trivial | refine eachPart_imp ‹_› ?_

end Node

/-! ### Empty parameter lists -/

/-- Whether the node is a list of parameters without anything in it. -/
def AnyNode.isBare : AnyNode → Bool
  | ⟨.formalParameters, n⟩ => n.isBare
  | _                      => false

/-- The first list is the second without some of its empty parameter lists. -/
inductive Bared : List AnyNode → List AnyNode → Prop where
  | nil : Bared [] []
  | keep {xs ys : List AnyNode} (x : AnyNode) (h : Bared xs ys) : Bared (x :: xs) (x :: ys)
  | drop {xs ys : List AnyNode} {x : AnyNode} (hx : x.isBare = true) (h : Bared xs ys) :
    Bared xs (x :: ys)

theorem Bared.append {xs xs' ys ys' : List AnyNode} (h : Bared xs xs') (h' : Bared ys ys') :
    Bared (xs ++ ys) (xs' ++ ys') := by
  induction h with
  | nil => exact h'
  | keep x _ ih => exact .keep x ih
  | drop hx _ ih => exact .drop hx ih

theorem Node.preorder_of_isBare {n : Node .formalParameters} (h : n.isBare = true) (bare : Bool) :
    n.preorder bare = [⟨_, n⟩] := by
  cases n with
  | formalParameters span receiver params =>
    cases receiver <;> cases params <;> first | rfl | cases h

/-- The parameters of a method. -/
theorem Bared.unlessBare {n : Node .formalParameters}
    (h : Bared (n.preorder false) (n.preorder true)) :
    Bared (if !false && n.isBare then [] else n.preorder false)
      (if !true && n.isBare then [] else n.preorder true) := by
  simp only [Bool.not_false, Bool.true_and, Bool.not_true, Bool.false_and, Bool.false_eq_true,
    if_false]
  split
  · rename_i hbare
    rw [Node.preorder_of_isBare hbare]
    exact .drop hbare .nil
  · exact h

theorem Bared.parts {ns ns' : List AnyNode} {rest rest' : List (List AnyNode)} (h : Bared ns ns')
    (hrest : Bared rest.flatten rest'.flatten) :
    Bared (ns :: rest).flatten (ns' :: rest').flatten := h.append hrest

/-- The shorter list lacks empty parameter lists only. -/
theorem Node.preorder_bared {c : Category} (n : Node c) :
    Bared (n.preorder false) (n.preorder true) := by
  induction n with
  | nil | absent | noInit => exact .nil
  | cons _ _ hhead htail => exact hhead.append htail
  | present _ ih | annotationModifier _ ih | valueElement _ ih | exprValue _ ih
  | annotationValue _ ih | exprItem _ ih | arrayInit _ ih | singleParam _ ih | nameParams _ ih
  | formalParams _ ih | exprBody _ ih | blockBody _ ih | typeTarget _ ih | patternTarget _ ih
  | exprReference _ ih | typeReference _ ih | blockStmt _ ih | localVariableStmt _ ih
  | exprCase _ ih | exprsInit _ ih | variablesInit _ ih | nameResource _ ih => exact ih
  | methodDecl _ _ _ _ _ _ _ _ _ _ ha hb hd he hf hg hh hi hj =>
    exact .keep _ <| .parts ha <| .parts hb <| .parts hd <| .parts he <| .parts hf <|
      .parts hg.unlessBare <| .parts hh <| .parts hi <| .parts hj .nil
  | constructorDecl _ _ _ _ _ _ _ ha hb hd he hf hg =>
    exact .keep _ <| .parts ha <| .parts hb <| .parts hd <| .parts he.unlessBare <|
      .parts hf <| .parts hg .nil
  | _ =>
    refine .keep _ ?_
    -- One list of nodes for each part.
    repeat' first | exact .nil | refine .parts ‹_› ?_

end JavaSource
