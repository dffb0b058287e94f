import JavaSource.Proofs.Editing.Change
import JavaSource.Syntax.Visitor

/-!
# Renaming

`Node.rename f` is the tree with the name `f x` where there was the name `x`, and with everything
else as it was, spans included.  What visitors see of the renamed tree is what they see of the tree,
with the new names (`Node.views_rename`), so a visitor that can tell names from the rest sees the
names change and nothing else (`Visitor.Renames.visitNode`).

`Transformer.renamer f` gives every identifier its new name and goes on into everything else.
`Transformer.renamer_homomorphism` says that it comes to the renamed tree.
-/

namespace JavaSource

/-- Leaves nothing out, and changes names. -/
def Edit.renamer (f : String → String) : Edit where
  drops _ := false
  name := f

/-- The tree with new names in the place of the old ones. -/
abbrev Node.rename (f : String → String) {c : Category} (n : Node c) : Node c :=
  n.edited (.renamer f)

mutual

/-- What is seen of a tree with new names. -/
def View.rename (f : String → String) : View → View
  | .mk slot n parts => .mk slot (n.rename f) (View.renameAll f parts)

/-- What is seen of several trees with new names. -/
def View.renameAll (f : String → String) : List View → List View
  | []      => []
  | v :: vs => v.rename f :: View.renameAll f vs

end

namespace Node

variable {c : Category} (f g : String → String)

/-! ### Renaming twice, and renaming nothing -/

theorem rename_cons (head : Node c) (tail : Nodes c) :
    (cons head tail).rename f = cons (head.rename f) (tail.rename f) := by
  rw [rename, edited_cons]
  exact if_neg (ne_true_of_eq_false head.isIn_never)

theorem rename_present (value : Node c) : (present value).rename f = present (value.rename f) := by
  rw [rename, edited_present]
  exact if_neg (ne_true_of_eq_false value.isIn_never)

theorem rename_rename (n : Node c) : (n.rename f).rename g = n.rename (g ∘ f) := by
  induction n with
  | cons head tail hhead htail => simp only [rename_cons, hhead, htail]
  | present value ih => simp only [rename_present, ih]
  | nil | absent | noInit | identifier | literal | keywordModifier | binaryOperator | unaryOperator
  | postOperator | assignOperator | emptyStmt | defaultLabel | emptyDecl => rfl
  | _ =>
    -- Both sides as nodes made of their parts.
    conv => lhs; whnf
    conv => rhs; whnf
    congr 1

theorem rename_id (n : Node c) : n.rename id = n := by
  induction n with
  | cons head tail hhead htail => rw [rename_cons, hhead, htail]
  | present value ih => rw [rename_present, ih]
  | nil | absent | noInit | identifier | literal | keywordModifier | binaryOperator | unaryOperator
  | postOperator | assignOperator | emptyStmt | defaultLabel | emptyDecl => rfl
  | _ =>
    conv => lhs; whnf
    congr 1

/-! ### What is seen of a renamed tree -/

theorem kindName_rename (n : Node c) : (n.rename f).kindName = n.kindName := by
  induction n with
  | cons => rw [rename_cons]; rfl
  | present => rw [rename_present]; rfl
  | annotationModifier _ ih | valueElement _ ih | exprValue _ ih | annotationValue _ ih
  | exprItem _ ih | arrayInit _ ih | singleParam _ ih | formalParams _ ih | exprBody _ ih
  | blockBody _ ih | typeTarget _ ih | patternTarget _ ih | exprReference _ ih
  | typeReference _ ih | blockStmt _ ih | localVariableStmt _ ih | exprCase _ ih
  | variablesInit _ ih | nameResource _ ih => exact ih
  | _ => rfl

theorem isBare_rename (n : Node .formalParameters) : (n.rename f).isBare = n.isBare := by
  cases n with
  | formalParameters span receiver params =>
    cases receiver with
    | absent => cases params <;> rfl
    | present => rfl

end Node

namespace View

open Node

variable {c : Category} {f : String → String}

theorem renameAll_append (vs ws : List View) :
    renameAll f (vs ++ ws) = renameAll f vs ++ renameAll f ws := by
  induction vs with
  | nil => rfl
  | cons v vs ih => exact congrArg (v.rename f :: ·) ih

theorem rename_one {n n' : Node c} {slot : Slot} {vs vs' : List View} (hn : n' = n.rename f)
    (h : vs' = renameAll f vs) : [View.mk slot n' vs'] = renameAll f [.mk slot n vs] := by
  rw [hn, h]
  rfl

/-- Parameters that may be left out. -/
theorem renameAll_unlessBare {n : Node .formalParameters} {vs : List View} :
    renameAll f (if n.isBare then [] else vs) =
      if (n.rename f).isBare then [] else renameAll f vs := by
  rw [isBare_rename]
  split <;> rfl

end View

/-- The same is seen of a renamed tree, but for the names. -/
theorem Node.views_rename (f : String → String) {c : Category} (n : Node c) (slot : Slot) :
    (n.rename f).views slot = View.renameAll f (n.views slot) := by
  induction n generalizing slot with
  | nil | absent | noInit => rfl
  | cons head tail hhead htail =>
    rw [rename_cons]
    refine Eq.trans ?_ (View.renameAll_append _ _).symm
    rw [← hhead, ← htail]
    rfl
  | present value ih =>
    rw [rename_present]
    exact ih slot
  | annotationModifier _ ih | valueElement _ ih | exprValue _ ih | annotationValue _ ih
  | exprItem _ ih | arrayInit _ ih | singleParam _ ih | nameParams _ ih | formalParams _ ih
  | exprBody _ ih | blockBody _ ih | typeTarget _ ih | patternTarget _ ih | exprReference _ ih
  | typeReference _ ih | blockStmt _ ih | localVariableStmt _ ih | exprCase _ ih | exprsInit _ ih
  | variablesInit _ ih | nameResource _ ih => exact ih slot
  | identifier | literal | keywordModifier | binaryOperator | unaryOperator | postOperator
  | assignOperator | emptyStmt | defaultLabel | emptyDecl => rfl
  | _ =>
    refine View.rename_one rfl ?_
    simp only [View.renameAll_append, View.renameAll_unlessBare, *]

/-! ### What visitors make of a renamed tree -/

namespace Visitor

variable {α : Type} {visitor : Visitor α} {φ : α → α} {f : String → String}

/-- With new names a visitor comes to the results that `φ` makes of those with the old names, at
every step on its way. -/
structure Renames (visitor : Visitor α) (f : String → String) (φ : α → α) : Prop where
  start : visitor.start = φ visitor.start
  combine (a b : α) : visitor.combine (φ a) (φ b) = φ (visitor.combine a b)
  hook (v : View) (a : α) : visitor.hook (v.rename f) (φ a) = φ (visitor.hook v a)

mutual

theorem Renames.visit (h : visitor.Renames f φ) :
    (v : View) → visitor.visit (v.rename f) = φ (visitor.visit v)
  | .mk slot n parts => by
    have hparts := h.visitParts visitor.start parts
    rw [← h.start] at hparts
    rw [Visitor.visit, ← h.hook, ← hparts]
    rfl

theorem Renames.visitParts (h : visitor.Renames f φ) (a : α) : (vs : List View) →
    visitor.visitParts (φ a) (View.renameAll f vs) = φ (visitor.visitParts a vs)
  | []      => rfl
  | v :: vs => by
    rw [View.renameAll, Visitor.visitParts, h.visit v, h.combine]
    exact h.visitParts _ vs

end

theorem Renames.visitNode (h : visitor.Renames f φ) {c : Category} (n : Node c) :
    visitor.visitNode (n.rename f) = φ (visitor.visitNode n) := by
  rw [Visitor.visitNode, Visitor.visitNode, Node.view?, Node.view?, n.views_rename]
  cases n.views .root with
  | nil => exact h.start
  | cons v _ => exact h.visit v

theorem identifier?_rename (f : String → String) (v : View) :
    identifier? (v.rename f) = (identifier? v).map f := by
  cases v with
  | mk slot n parts =>
    cases n with
    | cons head tail =>
      change identifier? (.mk slot ((Node.cons head tail).rename f) _) = none
      rw [Node.rename_cons]
      rfl
    | present value =>
      change identifier? (.mk slot ((Node.present value).rename f) _) = none
      rw [Node.rename_present]
      rfl
    | _ => rfl

theorem renames_names (f : String → String) : names.Renames f (List.map f) where
  start := rfl
  combine _ _ := List.map_append.symm
  hook v a := by
    have hname := identifier?_rename f v
    cases h : identifier? v with
    | none =>
      rw [h, Option.map_none] at hname
      simp only [names, hname, h]
    | some name =>
      rw [h, Option.map_some] at hname
      simp only [names, hname, h, List.map_cons, List.map_nil]

theorem renames_kinds (f : String → String) : kinds.Renames f id where
  start := rfl
  combine _ _ := rfl
  hook v a := by
    cases v with
    | mk _ n _ => exact congrArg (· :: a) (n.kindName_rename f)

end Visitor

/-! ### The transformer that renames -/

/-- Gives every identifier the new name for its name, and leaves everything else as it is. -/
def Transformer.renamer (f : String → String) : Transformer (Except NodeError) where
  family _ inner := inner
  kind n inner := match n with
    | .identifier span name => .ok (.replace (.identifier span (f name)))
    | _                     => inner

namespace Transformer

variable (f : String → String) {c : Category} {n : Node c}

theorem carriedOutBy_renamer : (Edit.renamer f).CarriedOutBy (renamer f) where
  family n inner := (if_neg (ne_true_of_eq_false n.isIn_never)).symm
  identifier n := by
    cases n with
    | identifier span name => exact ⟨_, rfl, rfl⟩
  kind n inner hc := by
    cases n with
    | identifier => exact absurd rfl hc
    | _ => rfl

/-- A valid tree can spare nothing at all. -/
theorem spares_renamer (h : n.Valid) : (Edit.renamer f).Spares n := by
  intro x hx
  obtain ⟨c, x⟩ := x
  cases x with
  | switchGroup span labels body =>
    have hmem : ⟨_, .switchGroup span labels body⟩ ∈ n.preorder true := by
      rw [n.preorder_eq_filter_within]
      exact List.mem_filter.mpr ⟨hx, rfl⟩
    have hbody := Node.isEmpty_of_orElse_right (h _ hmem)
    cases body with
    | nil => cases hbody
    | cons => rfl
  | _ => rfl

theorem transform_renamer (h : n.Valid) : (renamer f).transform n = .ok (n.rename f) :=
  (carriedOutBy_renamer f).transform_eq h n.isIn_never (spares_renamer f h)

end Transformer

namespace Node

variable {c : Category} (f : String → String)

/-! ### Renamed trees are valid -/

@[simp] theorem isEmpty_rename (ns : Nodes c) : (ns.rename f).isEmpty = ns.isEmpty := by
  cases ns with
  | nil => rfl
  | cons => rw [rename_cons]; rfl

@[simp] theorem isSome_rename (n : OptNode c) : (n.rename f).isSome = n.isSome := by
  cases n with
  | absent => rfl
  | present => rw [rename_present]; rfl

@[simp] theorem lacking?_rename (node field : String) (ns : Nodes c) :
    lacking? node field (ns.rename f) = lacking? node field ns := by
  rw [lacking?, lacking?, isEmpty_rename]

theorem isEmpty_typeAnnotations_rename (ty : TypeNode) :
    (ty.rename f).typeAnnotations.isEmpty = ty.typeAnnotations.isEmpty := by
  cases ty <;> exact isEmpty_rename f _

@[simp] theorem annotated?_rename (node : String) (ty : TypeNode) :
    annotated? node (ty.rename f) = annotated? node ty := by
  rw [annotated?, annotated?, isEmpty_typeAnnotations_rename]

@[simp] theorem sizing?_rename (sized : Nodes .dimExpr) (dims : Nodes .dim)
    (init : OptNode .arrayInitializer) :
    sizing? (sized.rename f) (dims.rename f) (init.rename f) = sizing? sized dims init := by
  rw [sizing?, sizing?, isSome_rename, isEmpty_rename, lacking?_rename]

theorem isTypeDeclaration_rename (decl : Decl) :
    (decl.rename f).isTypeDeclaration = decl.isTypeDeclaration := by
  cases decl <;> rfl

theorem mixture?_rename (body : Node .switchBlock) : (body.rename f).mixture? = body.mixture? := by
  cases body with
  | switchBlock _ groups labels rules =>
    change (if _ then _ else _) = (if _ then _ else _)
    rw [isEmpty_rename, isEmpty_rename, isEmpty_rename]

theorem flaw?_rename (n : Node c) : (n.rename f).flaw? = n.flaw? := by
  cases n with
  | cons => rw [rename_cons]; rfl
  | present => rw [rename_present]; rfl
  | qualifiedName | classType | arrayType | typeBound | typeParameters | localVariables
  | catchClause | tryResourcesStmt | providesDirective => exact lacking?_rename f _ _ _
  | lambda _ params _ =>
    cases params with
    | formalParams params =>
      cases params with
      | formalParameters _ receiver _ =>
        cases receiver <;> rfl
    | _ => rfl
  | newArray => exact sizing?_rename f _ _ _
  | reference _ _ _ id isNew =>
    change (if _ == _ then _ else _) = (if _ == _ then _ else _)
    rw [isSome_rename]
  | localTypeStmt _ decl =>
    change (if _ then _ else _) = (if _ then _ else _)
    rw [isTypeDeclaration_rename, kindName_rename]
  | switchStmt => exact mixture?_rename f _
  | switchGroup =>
    change (lacking? _ _ _ <|> lacking? _ _ _) = (lacking? _ _ _ <|> lacking? _ _ _)
    rw [lacking?_rename, lacking?_rename]
  | tryStmt _ _ catches final => cases catches <;> cases final <;> rfl
  | fieldDecl =>
    change (annotated? _ _ <|> lacking? _ _ _) = (annotated? _ _ <|> lacking? _ _ _)
    rw [annotated?_rename, lacking?_rename]
  | elementDecl => exact annotated?_rename f _ _
  | _ => rfl

theorem isChoice_rename (x : AnyNode) : (x.edited (.renamer f)).isChoice = x.isChoice := by
  obtain ⟨c, n⟩ := x
  cases n with
  | cons head tail =>
    change AnyNode.isChoice ⟨_, (cons head tail).rename f⟩ = false
    rw [rename_cons]
    rfl
  | present value =>
    change AnyNode.isChoice ⟨_, (present value).rename f⟩ = false
    rw [rename_present]
    rfl
  | _ => rfl

theorem preorder_rename (n : Node c) (h : n.Valid) :
    (n.rename f).preorder true = (n.preorder true).map (AnyNode.edited (.renamer f)) := by
  have hwithin := within_edited n.isIn_never (Transformer.spares_renamer f h)
  have hchoice : (fun x : AnyNode => !x.isChoice) ∘ AnyNode.edited (.renamer f) = (!·.isChoice) :=
    funext fun x => congrArg (!·) (isChoice_rename f x)
  rw [preorder_eq_filter_within, hwithin, List.filter_map, hchoice, preorder_eq_filter_within]
  rfl

theorem valid_rename (n : Node c) (h : n.Valid) : (n.rename f).Valid := by
  rw [Valid, preorder_rename f n h]
  intro x hx
  obtain ⟨y, hy, rfl⟩ := List.mem_map.mp hx
  exact (flaw?_rename f y.node).trans (h y hy)

end Node

/-- **Renaming is a homomorphism.**  The transformer that renames goes through on every valid tree.
A visitor comes to the new names where it came to the old ones, and to the same kinds of nodes;
renaming twice is renaming by the composed function, and new names that are the old ones give the
same tree. -/
theorem Transformer.renamer_homomorphism {c : Category} {n : Node c} (h : n.Valid)
    (f g : String → String) :
    ∃ n', (renamer f).transform n = .ok n' ∧
      Visitor.names.visitNode n' = (Visitor.names.visitNode n).map f ∧
      Visitor.kinds.visitNode n' = Visitor.kinds.visitNode n ∧
      (renamer g).transform n' = (renamer (g ∘ f)).transform n ∧
      (renamer id).transform n = .ok n := by
  refine ⟨n.rename f, transform_renamer f h, (Visitor.renames_names f).visitNode n,
    (Visitor.renames_kinds f).visitNode n, ?_, ?_⟩
  · rw [transform_renamer g (n.valid_rename f h), transform_renamer _ h, n.rename_rename]
  · rw [transform_renamer id h, n.rename_id]

/-- A function applied to its parameter: `x -> f(x)`. -/
def Node.application : Expr :=
  .lambda none (.singleParam (.identifier none "x")) <| .exprBody <|
    .call none (.name none (.identifier none "f")) (.cons (.name none (.identifier none "x")) .nil)

theorem Transformer.renamer_homomorphism_application :
    Node.application.Valid ∧
      ∃ n', (renamer ("my" ++ ·)).transform Node.application = .ok n' ∧
        Visitor.names.visitNode n' = (Visitor.names.visitNode Node.application).map ("my" ++ ·) ∧
        Visitor.kinds.visitNode n' = Visitor.kinds.visitNode Node.application ∧
        (renamer (· ++ "1")).transform n' =
          (renamer ((· ++ "1") ∘ ("my" ++ ·))).transform Node.application ∧
        (renamer id).transform Node.application = .ok Node.application :=
  have h : Node.application.Valid := by decide
  ⟨h, renamer_homomorphism h ("my" ++ ·) (· ++ "1")⟩

end JavaSource
