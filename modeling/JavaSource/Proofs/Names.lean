import JavaSource.Proofs.Names.Documents
import JavaSource.Proofs.Printable
import JavaSource.Proofs.Renaming
import JavaSource.Proofs.Traversal

/-!
# Which names are printed

Nodes are printed with the names in their parts, none twice and no others.  Three kinds of nodes
leave a part out and its names with it (`Node.hidden`): a `super` that has type arguments but no
name, a reference with a name that is to `new`, and a default rule that has items.

* `Node.tells`: what the documents of a node tell of the names in it.
* `Visitor.names_views`: a visitor comes to the names in a tree.
* `Node.print_names`: a tree is refused, however its names are spelled, or its text spells names
  that are in it, and all of them just if no node in it hides names.
* `Node.print_bareSuper`: a tree that obeys all rules about its kinds, with a name that is not
  printed.
-/

namespace JavaSource

open Node

/-! ### Names in trees -/

/-- The name of an identifier. -/
def AnyNode.name? : AnyNode → Option String
  | ⟨_, .identifier _ word⟩ => some word
  | _                       => none

/-- The names in some nodes. -/
def namesIn (ns : List AnyNode) : Multiset String := ns.filterMap AnyNode.name?

/-- The names in several lists of nodes. -/
def namesInParts : List (List AnyNode) → Multiset String
  | []         => 0
  | ns :: rest => namesIn ns + namesInParts rest

namespace Node

variable {c : Category}

/-- The names in a tree. -/
def names (n : Node c) : Multiset String := namesIn (n.preorder true)

/-- The names of a node that are not printed with it. -/
def hidden : {c : Category} → Node c → Multiset String
  | _, .superExpr _ targs .absent _ => targs.names
  | _, .reference _ _ _ id true     => id.names
  | _, .switchRule _ true cases _ _ => cases.names
  | _, _                            => 0

end Node

/-- A node does not hide names. -/
abbrev AnyNode.Shown (x : AnyNode) : Prop := x.node.hidden = 0

theorem namesIn_append (ns ms : List AnyNode) : namesIn (ns ++ ms) = namesIn ns + namesIn ms := by
  rw [namesIn, List.filterMap_append, ← Multiset.coe_add]
  rfl

theorem namesIn_cons {n : AnyNode} (h : n.name? = none) (ns : List AnyNode) :
    namesIn (n :: ns) = namesIn ns := by rw [namesIn, List.filterMap_cons_none h, namesIn]

theorem namesIn_flatten (parts : List (List AnyNode)) :
    namesIn parts.flatten = namesInParts parts := by
  induction parts with
  | nil => rfl
  | cons ns rest ih => rw [List.flatten_cons, namesIn_append, ih, namesInParts]

theorem namesIn_eq_zero {ns : List AnyNode} (h : ∀ x ∈ ns, x.name? = none) : namesIn ns = 0 :=
  (Multiset.coe_eq_zero _).mpr (List.filterMap_eq_nil_iff.mpr h)

@[simp] theorem namesInParts_nil : namesInParts [] = 0 := rfl

@[simp] theorem namesInParts_cons {c : Category} (n : Node c) (rest : List (List AnyNode)) :
    namesInParts (n.preorder true :: rest) = n.names + namesInParts rest := rfl

@[simp] theorem eachPart_nil {P : AnyNode → Prop} : EachPart P [] = True := rfl

@[simp] theorem eachPart_cons {c : Category} {P : AnyNode → Prop} (n : Node c)
    (rest : List (List AnyNode)) :
    EachPart P (n.preorder true :: rest) = (n.Each P ∧ EachPart P rest) := rfl

theorem each_leaf {x : AnyNode} (h : x.Shown) : ∀ y ∈ [x], y.Shown :=
  List.forall_mem_singleton.mpr h

namespace Node

variable {c : Category}

theorem names_tree {n : Node c} {parts : List (List AnyNode)}
    (hpre : n.preorder true = ⟨c, n⟩ :: parts.flatten) (hname : AnyNode.name? ⟨c, n⟩ = none) :
    n.names = namesInParts parts := by
  rw [names, hpre, namesIn_cons hname, namesIn_flatten]

@[simp] theorem names_absent : (absent : OptNode c).names = 0 := rfl

@[simp] theorem each_absent {P : AnyNode → Prop} : (absent : OptNode c).Each P = True :=
  eq_true (List.forall_mem_nil _)

theorem names_leaf {n : Node c} (h : n.preorder true = [⟨c, n⟩])
    (hname : AnyNode.name? ⟨c, n⟩ = none) : n.names = 0 := by
  rw [names, h, namesIn_cons hname]
  rfl

theorem each_shown_leaf {n : Node c} (h : n.preorder true = [⟨c, n⟩]) (hhidden : n.hidden = 0) :
    n.Each AnyNode.Shown = True := by
  rw [Each, h]
  exact eq_true (each_leaf hhidden)

/-- A node without names hides none. -/
theorem shown_of_nameless {n : Node c} (h : n.Each fun x => x.name? = none) : n.hidden = 0 := by
  cases n with
  | superExpr _ _ id _ =>
    cases id with
    | absent => exact namesIn_eq_zero (Each.parts h).2.1
    | present => rfl
  | reference _ _ _ id isNew =>
    cases isNew with
    | false => rfl
    | true => exact namesIn_eq_zero (Each.parts h).2.2.2.1
  | switchRule _ isDefault cases _ _ =>
    cases isDefault with
    | false => rfl
    | true => exact namesIn_eq_zero (Each.parts h).2.1
  | _ => rfl

theorem each_shown_of_names {n : Node c} (h : n.names = 0) : n.Each AnyNode.Shown := by
  have hnameless : n.Each fun x => x.name? = none :=
    List.filterMap_eq_nil_iff.mp ((Multiset.coe_eq_zero _).mp h)
  exact hnameless.below.mono fun x hx => shown_of_nameless hx

/-- Integers are without names. -/
theorem nameless_of_integer? {e : Expr} {literal : UInt64 × Bool} (h : e.integer? = some literal) :
    e.names = 0 ∧ e.Each AnyNode.Shown = True := by
  cases e with
  | constant span value =>
    cases value with
    | literal span value => exact ⟨rfl, eq_true (Each.tree rfl ⟨each_leaf rfl, trivial⟩)⟩
  | _ => cases h

end Node

/-! ### Renamed operands and statements -/

namespace Node

variable (f : String → String)

@[simp] theorem level_rename (e : Expr) : (e.rename f).level = e.level := by
  cases e with
  | binary _ _ op _ => cases op; rfl
  | _ => rfl

@[simp] theorem startsWithSign_rename (op : UnaryOp) (e : Expr) :
    (e.rename f).startsWithSign op = e.startsWithSign op := by
  cases e with
  | unary _ op _ => cases op; rfl
  | _ => rfl

@[simp] theorem integer?_rename (e : Expr) : (e.rename f).integer? = e.integer? := by
  cases e with
  | constant _ value => cases value; rfl
  | _ => rfl

@[simp] theorem takesSign_rename (anns : Nodes .annotationUse) (ty : Node .typeBound) :
    takesSign (anns.rename f) (ty.rename f) = takesSign anns ty := by
  cases ty with
  | typeBound _ as types =>
    cases types with
    | nil => rfl
    | cons ty rest =>
      cases rest with
      | nil =>
        have hprimitive : (ty.rename f).isPrimitive = ty.isPrimitive := by cases ty <;> rfl
        change (_ && _ && _ && _) = (_ && _ && _ && _)
        rw [isEmpty_rename, isEmpty_rename, isEmpty_typeAnnotations_rename, hprimitive]
      | cons => rfl

@[simp] theorem isLambda_rename (e : Expr) : (e.rename f).isLambda = e.isLambda := by
  cases e <;> rfl

@[simp] theorem isSigned_rename (e : Expr) : (e.rename f).isSigned = e.isSigned := by
  cases e with
  | unary _ op _ => cases op; rfl
  | _ => rfl

@[simp] theorem isBlock_rename (s : Stmt) : (s.rename f).isBlock = s.isBlock := by
  cases s <;> rfl

@[simp] theorem isIf_rename (s : Stmt) : (s.rename f).isIf = s.isIf := by
  cases s <;> rfl

@[simp] theorem endsInOpenIf_rename {c : Category} (n : Node c) :
    (n.rename f).endsInOpenIf = n.endsInOpenIf := by
  cases n with
  | cons => rw [rename_cons]; rfl
  | present => rw [rename_present]; rfl
  | ifStmt _ _ _ orelse =>
    cases orelse with
    | absent => rfl
    | present orelse => exact endsInOpenIf_rename orelse
  | whileStmt _ _ body | forStmt _ _ _ _ body | forEachStmt _ _ _ _ _ body
  | labeledStmt _ _ body => exact endsInOpenIf_rename body
  | _ => rfl

theorem toList_rename {c : Category} : (ns : Nodes c) →
    (ns.rename f).toList = ns.toList.map (rename f)
  | .nil => rfl
  | .cons n ns => by rw [rename_cons, toList_cons, toList_rename ns, toList_cons, List.map_cons]

end Node

/-! ### Documents of renamed trees -/

variable {a b : Multiset String} {p q : Prop} {d e : Named Doc} {ds : Named (List Doc)}

namespace Tells

theorem operand (context : Context) (e : Expr) (hd : Tells d a p) :
    Tells (fun f => Doc.operand context (e.rename f) (d f)) a p := by
  simp only [Doc.operand, level_rename]
  exact hd.parens _

theorem castOperand (anns : Nodes .annotationUse) (ty : Node .typeBound) (e : Expr)
    (hd : Tells d a p) :
    Tells (fun f => Doc.castOperand (takesSign (anns.rename f) (ty.rename f)) (e.rename f) (d f))
      a p := by
  simp only [Doc.castOperand, takesSign_rename, isLambda_rename, isSigned_rename]
  exact .ite hd (.ite (hd.parens _) (hd.operand _ e))

theorem body (s : Stmt) (hd : Tells d a p) : Tells (fun f => Doc.body (s.rename f) (d f)) a p := by
  simp only [Doc.body, isBlock_rename]
  exact .ite (hd.after _) (hd.after _).nest

theorem thenBranch (s : Stmt) (hd : Tells d a p) :
    Tells (fun f => Doc.thenBranch (s.rename f) (d f)) a p := by
  simp only [Doc.thenBranch, endsInOpenIf_rename, isBlock_rename]
  exact .ite (((TellsAll.one hd).braces.after _).before _)
    (.ite ((hd.body s).before _) (((hd.body s).before _).before _))

theorem elseBranch (s : Stmt) (hd : Tells d a p) :
    Tells (fun f => Doc.elseBranch (s.rename f) (d f)) a p := by
  simp only [Doc.elseBranch, isIf_rename]
  exact .ite (hd.after _) (hd.body s)

/-- An integer is written from its value if a minus is in front of it; there is no name in it. -/
theorem prefixed (op : UnaryOp) (e : Expr) (hd : Tells d e.names (e.Each AnyNode.Shown)) :
    Tells (fun f => Doc.prefixed op (e.rename f) (d f)) e.names (e.Each AnyNode.Shown) := by
  have hsigned : Tells (fun f => op.text ++
      (if (e.rename f).startsWithSign op then " " else "" : String) ++
      Doc.operand ⟨.unary, true⟩ (e.rename f) (d f)) e.names (e.Each AnyNode.Shown) := by
    simp only [startsWithSign_rename]
    exact (hd.operand _ e).after _
  simp only [Doc.prefixed.eq_def, integer?_rename]
  cases h : e.integer? with
  | none => cases op <;> exact hsigned
  | some literal =>
    cases op with
    | minus =>
      obtain ⟨hnames, hshown⟩ := nameless_of_integer? h
      rw [hnames, hshown]
      exact .const _
    | _ => exact hsigned

end Tells

theorem TellsEach.operands (context : Context) {ds : List (Named Doc)} (h : TellsEach ds a p)
    {es : List Expr} (hlength : es.length = ds.length) :
    TellsEach (es.zipWith (fun e d f => Doc.operand context (e.rename f) (d f)) ds) a p := by
  induction h generalizing es with
  | nil =>
    rw [List.zipWith_nil_right]
    exact .nil
  | cons head _ ih =>
    cases es with
    | nil => cases hlength
    | cons e es => exact .cons (head.operand context e) (ih (Nat.succ.inj hlength))

namespace TellsAll

variable {c : Category}

theorem operands (context : Context) {es : Nodes .expr}
    (h : TellsAll (fun f => (es.rename f).docs) a p) :
    TellsAll (fun f => Doc.operands context (es.rename f) (es.rename f).docs) a p := by
  obtain ⟨ds, hdocs, h⟩ := h
  have hlength : es.toList.length = (ds.map (· id)).length := by
    rw [← congrFun hdocs id, length_docs, toList_rename, List.length_map]
  refine ⟨_, funext fun f => ?_, h.operands context (hlength.trans (List.length_map _))⟩
  rw [Doc.operands, congrFun hdocs f, toList_rename, List.zipWith_map, List.map_zipWith]

/-- What is there or not, however names are spelled. -/
theorem ifSome {o : OptNode c} (h : TellsAll (fun f => (o.rename f).docs) a p) (hd : Tells d a p)
    (none : Doc) : Tells (fun f => if (o.rename f).isSome then d f else none) a p := by
  simp only [isSome_rename]
  cases o with
  | absent => exact const h none
  | present => exact hd

theorem ifAny {ns : Nodes c} (h : TellsAll (fun f => (ns.rename f).docs) a p) (hd : Tells d a p)
    (none : Doc) : Tells (fun f => if (ns.rename f).isEmpty then none else d f) a p := by
  simp only [← isEmpty_docs]
  exact h.unlessEmpty hd none

theorem arguments {args : OptNode (.list .expr)}
    (h : TellsAll (fun f => (args.rename f).docs) a p) :
    Tells (fun f => Doc.arguments (args.rename f) (args.rename f).docs) a p := h.ifSome h.tuple _

theorem classBody {body : OptNode (.list .decl)}
    (h : TellsAll (fun f => (body.rename f).docs) a p) :
    Tells (fun f => Doc.classBody (body.rename f) (body.rename f).docs) a p :=
  h.ifSome (h.braces.after _) _

/-- A node and its parts, of which all is told. -/
theorem tree {n : Node c} {parts : List (List AnyNode)} (hdocs : ∀ f, (n.rename f).docs = ds f)
    (hpre : n.preorder true = ⟨c, n⟩ :: parts.flatten) (hname : AnyNode.name? ⟨c, n⟩ = none)
    (hhidden : n.hidden = 0) (h : TellsAll ds a p) (ha : a = namesInParts parts)
    (hp : p = EachPart AnyNode.Shown parts) :
    TellsAll (fun f => (n.rename f).docs) n.names (n.Each AnyNode.Shown) := by
  rw [funext hdocs]
  refine h.of_eq ?_ ?_
  · rw [names_tree hpre hname, ha]
  · rw [hp, Each, hpre, List.forall_mem_cons, ← eachPart_iff]
    exact propext (and_iff_right hhidden).symm

theorem node {n : Node c} {parts : List (List AnyNode)} (hdocs : ∀ f, (n.rename f).docs = [d f])
    (hpre : n.preorder true = ⟨c, n⟩ :: parts.flatten) (hname : AnyNode.name? ⟨c, n⟩ = none)
    (hhidden : n.hidden = 0) (h : Tells d a p) (ha : a = namesInParts parts)
    (hp : p = EachPart AnyNode.Shown parts) :
    TellsAll (fun f => (n.rename f).docs) n.names (n.Each AnyNode.Shown) :=
  tree hdocs hpre hname hhidden (one h) ha hp

/-- A node that hides the names of a part. -/
theorem hides {c' : Category} {n : Node c} (part : Node c') {parts : List (List AnyNode)}
    (hdocs : ∀ f, (n.rename f).docs = [d f])
    (hpre : n.preorder true = ⟨c, n⟩ :: parts.flatten) (hname : AnyNode.name? ⟨c, n⟩ = none)
    (hhidden : n.hidden = part.names) (h : Tells d a p) (ha : part.names + a = namesInParts parts)
    (hp : (part.Each AnyNode.Shown ∧ p) = EachPart AnyNode.Shown parts) :
    TellsAll (fun f => (n.rename f).docs) n.names (n.Each AnyNode.Shown) := by
  rw [funext hdocs]
  refine (one (h.lose part.names)).of_eq ?_ ?_
  · rw [ha, names_tree hpre hname]
  · rw [Each, hpre, List.forall_mem_cons, ← eachPart_iff, ← hp, ← hhidden]
    refine propext (and_congr_right fun hnone => ?_)
    exact (and_iff_right (each_shown_of_names (hhidden.symm.trans hnone))).symm

end TellsAll

open TellsAll in
/-- What the documents of a node tell of the names in it. -/
theorem Node.tells {c : Category} (n : Node c) :
    TellsAll (fun f => (n.rename f).docs) n.names (n.Each AnyNode.Shown) := by
  induction n with
  | nil | absent | noInit => exact TellsAll.nil.of_eq rfl (eq_true (List.forall_mem_nil _)).symm
  | cons head tail hhead htail =>
    simp only [rename_cons]
    exact (TellsAll.cons hhead.concat htail).of_eq (namesIn_append _ _).symm
      (propext List.forall_mem_append).symm
  | present value ih =>
    simp only [rename_present]
    exact ih
  | annotationModifier _ ih | valueElement _ ih | exprValue _ ih | annotationValue _ ih
  | exprItem _ ih | arrayInit _ ih | singleParam _ ih | formalParams _ ih | exprBody _ ih
  | blockBody _ ih | typeTarget _ ih | patternTarget _ ih | typeReference _ ih | blockStmt _ ih
  | exprCase _ ih | variablesInit _ ih | nameResource _ ih => exact ih
  | nameParams _ ih => exact .one ih.tuple
  | exprReference inner ih => exact .one (ih.concat.operand _ inner)
  | localVariableStmt _ ih => exact .one (ih.concat.before _)
  | exprsInit _ ih => exact .one (ih.sep _)
  | identifier span word =>
    exact (TellsAll.one (.name word)).of_eq rfl (eq_true (each_leaf rfl)).symm
  | literal | keywordModifier | binaryOperator | unaryOperator | postOperator | assignOperator
  | emptyStmt | defaultLabel | emptyDecl =>
    exact (TellsAll.one (.const _)).of_eq rfl (eq_true (each_leaf rfl)).symm
  | name _ _ ih | constant _ _ ih | localTypeStmt _ _ ih =>
    exact .tree (fun _ => rfl) rfl rfl rfl ih (add_zero _).symm (and_true _).symm
  -- Operators are written from the node above them.
  | binary _ left op right hleft _ hright =>
    cases op with
    | binaryOperator op =>
      have hop := each_shown_leaf (n := binaryOperator op) rfl rfl
      exact .node (fun _ => rfl) rfl rfl rfl ((((hleft.concat.operand _ left).before _).before _
        |>.before _).append (hright.concat.operand _ right))
        (by simp [names_leaf (n := binaryOperator op) rfl rfl]) (by simp [hop])
  | unary _ op e _ he =>
    cases op with
    | unaryOperator op =>
      have hop := each_shown_leaf (n := unaryOperator op) rfl rfl
      exact .node (fun _ => rfl) rfl rfl rfl (he.concat.prefixed op)
        (by simp [names_leaf (n := unaryOperator op) rfl rfl]) (by simp [hop])
  | post _ e op he _ =>
    cases op with
    | postOperator op =>
      have hop := each_shown_leaf (n := postOperator op) rfl rfl
      exact .node (fun _ => rfl) rfl rfl rfl ((he.concat.operand _ e).before _)
        (by simp [names_leaf (n := postOperator op) rfl rfl]) (by simp [hop])
  -- The type of a pattern comes behind its annotations.
  | pattern _ _ _ _ _ hmods hty hanns hid =>
    exact .node (fun _ => rfl) rfl rfl rfl ((((hmods.each _).append (hanns.each _)).append
      hty.concat).before _ |>.append hid.concat)
      (by simp [add_assoc, add_left_comm]) (by simp [and_assoc, and_left_comm])
  | ifStmt span test body orelse htest hbody horelse =>
    cases orelse with
    | absent =>
      exact .node (fun _ => rfl) rfl rfl rfl
        (((htest.concat.after _).before _).append (hbody.concat.body body)) (by simp) (by simp)
    | present orelse =>
      have hdocs (f) : ((ifStmt span test body (.present orelse)).rename f).docs =
          ["if (" ++ Doc.concat (test.rename f).docs ++ ")" ++
            Doc.thenBranch (body.rename f) (Doc.concat (body.rename f).docs) ++
            Doc.elseBranch (orelse.rename f) (Doc.concat (orelse.rename f).docs)] := by
        change docs (ifStmt span (test.rename f) (body.rename f) ((present orelse).rename f)) = _
        rw [rename_present]
        rfl
      simp only [rename_present] at horelse
      exact .node hdocs rfl rfl rfl ((((htest.concat.after _).before _).append
        (hbody.concat.thenBranch body)).append ((TellsAll.concat horelse).elseBranch orelse))
        (by simp [add_assoc]) (by simp [and_assoc])
  -- The nodes that may hide names.
  | superExpr _ targs id args htargs hid hargs =>
    cases id with
    | absent =>
      have hsuper : Tells (fun f => "super" ++ Doc.text "" ++
          Doc.arguments (args.rename f) (args.rename f).docs) _ _ := hargs.arguments.after _
      exact .hides targs (fun _ => rfl) rfl rfl rfl hsuper (by simp) (by simp)
    | present id =>
      have hname : Tells (fun f => if ((present id).rename f).isSome then
          "." ++ Doc.concat (targs.rename f).docs ++ Doc.concat ((present id).rename f).docs
          else "") (targs.names + (present id).names)
          (targs.Each AnyNode.Shown ∧ (present id).Each AnyNode.Shown) := by
        simp only [isSome_rename]
        exact (htargs.concat.after _).append hid.concat
      exact .node (fun _ => rfl) rfl rfl rfl ((hname.after _).append hargs.arguments)
        (by simp [add_assoc]) (by simp [and_assoc])
  | reference _ target targs id isNew htarget htargs hid =>
    have htargets := (htarget.concat.before "::").append htargs.concat
    cases isNew with
    | true =>
      exact .hides id (fun _ => rfl) rfl rfl rfl (htargets.before _)
        (by simp [add_comm, add_left_comm]) (by simp [and_comm, and_left_comm])
    | false =>
      exact .node (fun _ => rfl) rfl rfl rfl (htargets.append hid.referred)
        (by simp [add_assoc]) (by simp [and_assoc])
  | switchRule _ isDefault cases isArrow body hcases hbody =>
    cases isDefault with
    | true =>
      exact .hides cases (fun _ => rfl) rfl rfl rfl ((hbody.ruleBody _).after _) (by simp) (by simp)
    | false =>
      exact .node (fun _ => rfl) rfl rfl rfl (hcases.ruleHead.append (hbody.ruleBody _))
        (by simp) (by simp)
  | _ =>
    apply TellsAll.node (fun _ => rfl) rfl rfl rfl
    case h =>
      -- One step for each way in which a document is built from others.
      repeat' with_reducible first
        | assumption
        | apply concat | apply each | apply sep | apply sepBy | apply lead | apply clause
        | apply tuple | apply indented | apply braces | apply beforeBrackets | apply handlers
        | apply enumBody | apply sections | apply switchBody | apply ifSome | apply ifAny
        | apply arguments | apply classBody | apply operands | apply TellsAll.nil
        | apply TellsAll.append
        | apply Tells.body | apply Tells.operand | apply Tells.castOperand | apply Tells.bound
        | apply Tells.after | apply Tells.before | apply Tells.append
    · simp [add_assoc]
    · simp [and_assoc]

/-! ### Names that visitors come to -/

namespace Visitor

variable {c : Category}

theorem names_one {n : Node c} {slot : Slot} {vs : List View} {parts : List (List AnyNode)}
    (before : List String) (hpre : n.preorder true = ⟨c, n⟩ :: parts.flatten)
    (hname : AnyNode.name? ⟨c, n⟩ = none)
    (h : (names.visitParts [] vs : Multiset String) = namesInParts parts) :
    (names.visitParts before [.mk slot n vs] : Multiset String) = before + n.names := by
  have hnone : identifier? (.mk slot n vs) = none := hname
  rw [visitParts, visitParts, visit, names_tree hpre hname, ← h, Multiset.coe_add]
  simp only [names, hnone]

/-- There are no names in parameters that are left out. -/
theorem names_unlessBare {n : Node .formalParameters}
    (h : ∀ slot (before : List String),
      (names.visitParts before (n.views slot) : Multiset String) = before + n.names)
    (slot : Slot) (before : List String) :
    (names.visitParts before (if n.isBare then [] else n.views slot) : Multiset String) =
      before + n.names := by
  split
  next hbare =>
    cases n
    rw [Node.names, preorder_of_isBare hbare]
    exact (add_zero _).symm
  next => exact h slot before

/-- A visitor comes to the names in a tree. -/
theorem names_views (n : Node c) (slot : Slot) (before : List String) :
    (names.visitParts before (n.views slot) : Multiset String) = before + n.names := by
  induction n generalizing slot before with
  | nil | absent | noInit => exact (add_zero _).symm
  | cons head tail hhead htail =>
    refine (congrArg _ (visitParts_append ..)).trans ?_
    rw [htail, hhead, add_assoc]
    exact congrArg _ (namesIn_append _ _).symm
  | present _ ih | annotationModifier _ ih | valueElement _ ih | exprValue _ ih
  | annotationValue _ ih | exprItem _ ih | arrayInit _ ih | singleParam _ ih | nameParams _ ih
  | formalParams _ ih | exprBody _ ih | blockBody _ ih | typeTarget _ ih | patternTarget _ ih
  | exprReference _ ih | typeReference _ ih | blockStmt _ ih | localVariableStmt _ ih
  | exprCase _ ih | exprsInit _ ih | variablesInit _ ih | nameResource _ ih => exact ih slot before
  | identifier | literal | keywordModifier | binaryOperator | unaryOperator | postOperator
  | assignOperator | emptyStmt | defaultLabel | emptyDecl =>
    exact (Multiset.coe_add before _).symm
  | methodDecl | constructorDecl =>
    refine names_one before rfl rfl ?_
    simp only [visitParts_append, names_unlessBare ‹_›, namesInParts_cons, namesInParts_nil,
      Multiset.coe_nil, zero_add, add_zero, add_assoc, Bool.not_true, Bool.false_and,
      Bool.false_eq_true, if_false, *]
  | _ =>
    refine names_one before rfl rfl ?_
    simp only [visitParts_append, namesInParts_cons, namesInParts_nil, Multiset.coe_nil, zero_add,
      add_zero, add_assoc, *]

theorem names_visitNode (n : Node c) (h : n.kind?.isSome) :
    (names.visitNode n : Multiset String) = n.names := by
  obtain ⟨v, hv⟩ := n.views_of_kind? h .root
  have hviews := names_views n .root []
  rw [hv] at hviews
  rw [visitNode, view?, hv]
  exact hviews.trans (zero_add _)

end Visitor

/-! ### Printing -/

namespace Node

variable {c : Category}

theorem tells_doc (n : Node c) :
    Tells (fun f => (n.rename f).doc) n.names (n.Each AnyNode.Shown) := by
  cases c with
  | localVariables => exact n.tells.concat.before _
  | _ => exact n.tells.concat

/-- **The printer writes no name twice, none that is not there, and leaves out just those that
nodes hide.**  A tree is refused however its names are spelled, or its text is of pieces, some of
which spell names.  These are among the names that a visitor comes to, each as often at most, and
they are all of them just if no node in the tree hides names. -/
theorem print_names (n : Node c) (h : n.kind?.isSome) (indent : Nat) :
    (∃ e, ∀ f, (n.rename f).print indent = .error e) ∨
    ∃ ps, (∀ f, (n.rename f).print indent = .ok (Piece.spellAll f ps)) ∧
      (Piece.names ps : Multiset String) ≤ Visitor.names.visitNode n ∧
      ((Piece.names ps).Perm (Visitor.names.visitNode n) ↔ n.Each fun x => x.node.hidden = 0) := by
  obtain ⟨e, herror⟩ | ⟨ps, haccount, htext⟩ := n.tells_doc indent 0
  · exact .inl ⟨e, fun f => herror f ""⟩
  · rw [← Visitor.names_visitNode n h] at haccount
    refine .inr ⟨ps, fun f => (htext f "").trans ?_, haccount.le,
      Multiset.coe_eq_coe.symm.trans haccount.eq_iff⟩
    rw [String.empty_append]

/-- Type arguments that nothing takes: `super`, with `<T>`. -/
def bareSuper : Expr :=
  .superExpr none (.present (.typeArguments none (.cons (.classType none .nil
    (.cons (.coit none .nil (.identifier none "T") .absent) .nil)) .nil))) .absent .absent

theorem print_names_bareSuper :
    bareSuper.kind?.isSome ∧
      ((∃ e, ∀ f, (bareSuper.rename f).print 4 = .error e) ∨
      ∃ ps, (∀ f, (bareSuper.rename f).print 4 = .ok (Piece.spellAll f ps)) ∧
        (Piece.names ps : Multiset String) ≤ Visitor.names.visitNode bareSuper ∧
        ((Piece.names ps).Perm (Visitor.names.visitNode bareSuper) ↔
          bareSuper.Each fun x => x.node.hidden = 0)) :=
  ⟨rfl, bareSuper.print_names rfl 4⟩

/-- A name that a visitor comes to in a tree that obeys all rules, and that is not printed. -/
theorem print_bareSuper : bareSuper.Valid ∧ Visitor.names.visitNode bareSuper = ["T"] ∧
    ∀ f, (bareSuper.rename f).print 4 = .ok "super" :=
  ⟨by decide, rfl, fun _ => rfl⟩

end Node

end JavaSource
