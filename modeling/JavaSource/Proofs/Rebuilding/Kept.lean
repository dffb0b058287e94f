import JavaSource.Proofs.Editing
import JavaSource.Proofs.Legal
import JavaSource.Proofs.Rebuilding.Lists
import JavaSource.Proofs.Traversal

/-!
# Nodes that are kept

A node is made anew if something in it changes, and else it is kept.  What may change in it are its
children (`Node.children`): the nodes right below it, those in lists and options among them.  A
transformer comes to them from left to right, each time with what it remembers by then, and they are
kept if it answers so for every one (`Transformer.Keeps`).

What the hooks say about a node is up to them; what they are given is the change of what is in it
(`Transformer.asked`).

* `Node.reviewed?`: the rules that are looked at once more even if nothing changes.  Whoever obeys
  the rules about a kind obeys these.
* `Transformer.change_carries`: what the hooks are given keeps the node only if the parts of the
  node are kept, and if they are then it does, or the node breaks a rule and there is an error.
* `Transformer.keeps_items_iff`: a list is kept just if its elements are, and an option just if what
  it holds is.
* **`Transformer.lists_flattened`**: a list among the parts of a node is rewritten as a flat map, by
  recursion as in a loop, and a node is kept just if its children are and it breaks no rule that is
  looked at.

Work on a node (`Remembering.Works`) goes from part to part, so there is one lemma for each way to
come to a part.
-/

namespace JavaSource

variable {c d : Category}

namespace Node

/-- The parts of a node from left to right; lists and options are parts as they are. -/
def parts : {c : Category} → Node c → List AnyNode
  | _, .nil | _, .absent | _, .noInit => []
  -- By the number of parts.
  | _, .identifier _ _ | _, .literal _ _ | _, .keywordModifier _ _ | _, .binaryOperator _
  | _, .unaryOperator _ | _, .postOperator _ | _, .assignOperator _ | _, .emptyStmt _
  | _, .defaultLabel _ | _, .emptyDecl _ => []
  | _, .present a | _, .qualifiedName _ a | _, .annotationModifier a | _, .valueElement a
  | _, .exprValue a | _, .annotationValue a | _, .elementValueArray _ a
  | _, .wordType _ a _ | _, .wildcardBound _ a _ _ | _, .typeArguments _ a
  | _, .dim _ a | _, .typeParameters _ a | _, .exprItem a | _, .name _ a
  | _, .constant _ a | _, .thisExpr _ a | _, .classExpr _ a | _, .arrayInit a
  | _, .singleParam a | _, .nameParams a | _, .formalParams a | _, .exprBody a
  | _, .blockBody a | _, .typeTarget a | _, .patternTarget a
  | _, .arrayInitializer _ a | _, .exprReference a | _, .typeReference a
  | _, .blockStmt a | _, .localTypeStmt _ a | _, .localVariableStmt a
  | _, .exprStmt _ a | _, .breakStmt _ a | _, .continueStmt _ a | _, .returnStmt _ a
  | _, .throwStmt _ a | _, .yieldStmt _ a | _, .block _ a | _, .exprCase a
  | _, .caseLabel _ a | _, .exprsInit a | _, .variablesInit a | _, .nameResource a
  | _, .initializerDecl _ a _ | _, .importDecl _ _ a _ | _, .usesDirective _ a => [⟨_, a⟩]
  | _, .cons a b | _, .annotationUse _ a b | _, .elementValuePair _ a b | _, .classType _ a b
  | _, .wildcardType _ a b | _, .typeBound _ a b | _, .guardedPattern _ a b
  | _, .lambda _ a b | _, .instanceOf _ a b | _, .unary _ a b | _, .post _ a b
  | _, .switchExpr _ a b | _, .call _ a b | _, .member _ a b | _, .index _ a b
  | _, .genericCall _ a b | _, .dimExpr _ a b | _, .switchRule _ _ a _ b
  | _, .labeledStmt _ a b | _, .assertStmt _ a b | _, .switchStmt _ a b
  | _, .whileStmt _ a b | _, .doWhileStmt _ a b | _, .synchronizedStmt _ a b
  | _, .matchValue _ a b | _, .switchGroup _ a b | _, .variableDeclaratorId _ a b
  | _, .variableDeclarator _ a b | _, .receiverParameter _ a b
  | _, .formalParameters _ a b | _, .packageDecl _ a b | _, .requiresDirective _ a b
  | _, .exportsDirective _ a b | _, .opensDirective _ a b | _, .providesDirective _ a b
  | _, .modularUnit _ a b => [⟨_, a⟩, ⟨_, b⟩]
  | _, .arrayType _ a b d | _, .coit _ a b d | _, .typeParameter _ a b d
  | _, .superExpr _ a b d | _, .assignment _ a b d | _, .conditional _ a b d
  | _, .binary _ a b d | _, .cast _ a b d | _, .reference _ a b d _
  | _, .ifStmt _ a b d | _, .tryStmt _ a b d | _, .localVariables _ a b d
  | _, .switchBlock _ a b d | _, .resource _ a b d | _, .parameter _ a b d
  | _, .fieldDecl _ a b d | _, .compactConstructorDecl _ a b d
  | _, .annotationDecl _ a b d | _, .recordComponent _ a b _ d
  | _, .moduleDecl _ a _ b d | _, .ordinaryUnit _ a b d => [⟨_, a⟩, ⟨_, b⟩, ⟨_, d⟩]
  | _, .pattern _ a b d e | _, .newObject _ a b d e | _, .newArray _ a b d e
  | _, .forStmt _ a b d e | _, .tryResourcesStmt _ a b d e | _, .catchClause _ a b d e
  | _, .variableArityParameter _ a b d e | _, .elementDecl _ a b d e
  | _, .enumConstant _ a b d e => [⟨_, a⟩, ⟨_, b⟩, ⟨_, d⟩, ⟨_, e⟩]
  | _, .newInner _ a b d e f | _, .forEachStmt _ a b d e f | _, .enumDecl _ a b d e f =>
    [⟨_, a⟩, ⟨_, b⟩, ⟨_, d⟩, ⟨_, e⟩, ⟨_, f⟩]
  | _, .constructorDecl _ a b d e f g | _, .interfaceDecl _ a b d e f g
  | _, .recordDecl _ a b d e f g => [⟨_, a⟩, ⟨_, b⟩, ⟨_, d⟩, ⟨_, e⟩, ⟨_, f⟩, ⟨_, g⟩]
  | _, .classDecl _ a b d e f g h =>
    [⟨_, a⟩, ⟨_, b⟩, ⟨_, d⟩, ⟨_, e⟩, ⟨_, f⟩, ⟨_, g⟩, ⟨_, h⟩]
  | _, .methodDecl _ a b d e f g h i j =>
    [⟨_, a⟩, ⟨_, b⟩, ⟨_, d⟩, ⟨_, e⟩, ⟨_, f⟩, ⟨_, g⟩, ⟨_, h⟩, ⟨_, i⟩, ⟨_, j⟩]

/-- The first rule that a node breaks of those that are looked at when it is made anew.  They are
looked at even if nothing in the node has changed. -/
def reviewed? : {c : Category} → Node c → Option NodeError
  | _, .qualifiedName _ ids       => lacking? "QualifiedName" "identifiers" ids
  | _, .classType _ _ coits       => lacking? "ClassType" "coits" coits
  | _, .arrayType _ _ _ dims      => lacking? "ArrayType" "dims" dims
  | _, .typeBound _ _ types       => lacking? "TypeBound" "types" types
  | _, .typeParameters _ ps       => lacking? "TypeParameters" "parameters" ps
  | _, .localVariables _ _ _ ds   => lacking? "LocalVariableDeclaration" "declarators" ds
  | _, .switchGroup _ labels body =>
    lacking? "SwitchGroup" "labels" labels <|> lacking? "SwitchGroup" "body" body
  | _, .catchClause _ _ names _ _ => lacking? "CatchClause" "exceptions" names
  | _, n@(.tryStmt _ _ _ _)       => n.flaw?
  | _, .tryResourcesStmt _ rs ..  => lacking? "TryWithResources" "resources" rs
  | _, .fieldDecl _ _ _ ds        => lacking? "FieldDeclaration" "declarators" ds
  | _, .providesDirective _ _ ns  => lacking? "ProvidesDirective" "with" ns
  | _, _                          => none

theorem reviewed?_eq_none {n : Node c} (h : n.flaw? = none) : n.reviewed? = none := by
  cases n with
  | qualifiedName | classType | arrayType | typeBound | typeParameters | localVariables
  | catchClause | tryStmt | tryResourcesStmt | providesDirective => exact h
  | fieldDecl => exact lacking?_eq_none (isEmpty_of_orElse_right h)
  | switchGroup _ labels body =>
    change (lacking? _ _ labels <|> lacking? _ _ body) = none
    rw [lacking?_eq_none (isEmpty_of_orElse_left h), lacking?_eq_none (isEmpty_of_orElse_right h)]
    rfl
  | _ => rfl

/-- What stands in a place: the elements of a list, what an option holds, or else one node. -/
def items : {c : Category} → Node c → List AnyNode
  | _, .nil | _, .absent | _, .noInit => []
  | _, .cons head tail => ⟨_, head⟩ :: tail.items
  | _, .present inner | _, .nameParams inner | _, .exprsInit inner => inner.items
  | _, n => [⟨_, n⟩]

/-- The nodes right below a node from left to right, with those in lists and options. -/
def children (n : Node c) : List AnyNode := n.parts.flatMap (·.node.items)

end Node

/-- Whether expressions, statements or declarations are meant. -/
def Category.isFamily : Category → Bool
  | .expr | .stmt | .decl => true
  | _                     => false

/-- What the hooks make of the change of what is in a node.  None has a say about a list or an
option, and none but that for a family about what stands for a choice. -/
def Transformer.asked {m : Type → Type} (t : Transformer m) :
    {c : Category} → Node c → m (Change c) → m (Change c)
  | .list _, _, inner | .opt _, _, inner => inner
  | c, n, inner =>
    let answer := if AnyNode.isChoice ⟨c, n⟩ then inner else t.kind n inner
    if c.isFamily then t.family n answer else answer

/-- The nodes are kept one after the other, each with what is remembered then. -/
def Transformer.Keeps {σ : Type} (t : Transformer (Remembering σ)) : List AnyNode → σ → σ → Prop
  | [],      s, s' => s' = s
  | x :: xs, s, s' => ∃ s₁, t.change x.node s = (.ok .keep, s₁) ∧ t.Keeps xs s₁ s'

namespace Change

variable {change : Change c}

theorem lift_eq_keep_iff {f : Node c → Node d} : change.lift f = keep ↔ change = keep := by
  cases change <;> simp [lift]

theorem optional_eq_keep_iff : change.optional = keep ↔ change = keep := by
  cases change <;> simp [optional]

/-- A list is kept just if its head and its tail are. -/
theorem list_eq_keep_iff {head : Node c} {tail : Nodes c} {rest : Change (.list c)} :
    change.list head tail rest = keep ↔ change = keep ∧ rest = keep := by
  cases change <;> cases rest <;> simp [list]

end Change

/-! ### What comes of a node -/

namespace Remembering

open Transformer Node

variable {σ : Type} {t : Transformer (Remembering σ)} {flaw : Option NodeError}
variable {xs : List AnyNode} {n : Node c}

/-- A node is kept only if some nodes are, and if they are then it is or there is an error about a
flaw in it. -/
structure Carries (t : Transformer (Remembering σ)) (x : Remembering σ (Change c))
    (xs : List AnyNode) (flaw : Option NodeError) : Prop where
  keeps {s s' : σ} : x s = (.ok .keep, s') → t.Keeps xs s s'
  kept {s s' : σ} : flaw = none → t.Keeps xs s s' → x s = (.ok .keep, s')
  fails {s s' : σ} {e : NodeError} : flaw = some e → t.Keeps xs s s' → ∃ s'', x s = (.error e, s'')

/-- Work on a node changes nothing only if some nodes are kept, and if they are then nothing changes
or there is an error about a flaw in the node. -/
structure Works (t : Transformer (Remembering σ)) (work : StateT Bool (Remembering σ) (Node c))
    (xs : List AnyNode) (flaw : Option NodeError) : Prop where
  keeps {b : Bool} {s s' : σ} {n : Node c} :
    work b s = (.ok (n, false), s') → b = false ∧ t.Keeps xs s s'
  kept {b : Bool} {s s' : σ} : flaw = none → t.Keeps xs s s' → ∃ n, work b s = (.ok (n, b), s')
  fails {b : Bool} {s s' : σ} {e : NodeError} : flaw = some e → t.Keeps xs s s' →
    ∃ s'', work b s = (.error e, s'')

theorem Carries.keeps_iff {x : Remembering σ (Change c)} (h : Carries t x xs flaw) {s s' : σ} :
    x s = (.ok .keep, s') ↔ flaw = none ∧ t.Keeps xs s s' := by
  refine ⟨fun hx => ⟨?_, h.keeps hx⟩, fun ⟨hflaw, hxs⟩ => h.kept hflaw hxs⟩
  cases hflaw : flaw with
  | none => rfl
  | some e =>
    obtain ⟨s'', hx'⟩ := h.fails hflaw (h.keeps hx)
    cases hx.symm.trans hx'

theorem Works.made : Works t (pure n) [] none where
  keeps := by
    rintro b s s' n ⟨⟩
    exact ⟨rfl, rfl⟩
  kept := by
    rintro b s s' - rfl
    exact ⟨n, rfl⟩
  fails := nofun

/-- Work that ends in an error about the flaw, whatever is kept. -/
theorem Works.refused {e : NodeError} :
    Works t (throw e : StateT Bool (Remembering σ) (Node c)) xs (some e) where
  keeps := by
    rintro b s s' n ⟨⟩
  kept := by
    rintro b s s' ⟨⟩
  fails := by
    rintro b s s' e' ⟨⟩ -
    exact ⟨s, rfl⟩

theorem Works.rechecked : Works t (recheck n) [] n.flaw? := by
  rw [recheck]
  cases n.flaw? with
  | none => exact .made
  | some e => exact .refused

variable {node field : String} {a : Node d} {f : Node d → StateT Bool (Remembering σ) (Node c)}

/-- What comes behind a part that is kept goes on with the old part. -/
theorem behind_kept {b : Bool} {s s₁ : σ} (h : t.change a s = (.ok .keep, s₁)) :
    (part node field a (t.change a) >>= f) b s = f a b s₁ := by
  have hpart : part node field a (t.change a) b s = (.ok (a, b), s₁) :=
    bind_ok (x := t.change a >>= fun change => pure (change, b)) (bind_ok h)
  exact bind_ok (x := part node field a (t.change a) b) hpart

/-- Work that starts with a part; a flaw is one of the node with the old part. -/
theorem Works.of_part {e : Node d → Option NodeError} (h : ∀ a', Works t (f a') xs (e a')) :
    Works t (part node field a (t.change a) >>= f) (⟨d, a⟩ :: xs) (e a) where
  keeps := by
    intro b s s' n hs
    obtain ⟨⟨a', b₁⟩, s₁, hpart, hs⟩ := of_bind_ok (x := part node field a (t.change a) b) hs
    obtain ⟨⟨change, b₂⟩, s₂, hchange, hpart⟩ := of_bind_ok (x := t.change a >>= _) hpart
    obtain ⟨change', s₃, hchange, hsame⟩ := of_bind_ok (x := t.change a) hchange
    cases hsame
    cases change with
    | keep =>
      cases hpart
      obtain ⟨hb, hxs⟩ := (h a).keeps hs
      exact ⟨hb, _, hchange, hxs⟩
    | replace a' =>
      -- Once there is a change it stays one.
      cases hpart
      cases ((h a').keeps hs).1
    | delete | splice => cases hpart
  kept := by
    rintro b s s' he ⟨s₁, hchange, hxs⟩
    rw [behind_kept hchange]
    exact (h a).kept he hxs
  fails := by
    rintro b s s' e he ⟨s₁, hchange, hxs⟩
    rw [behind_kept hchange]
    exact (h a).fails he hxs

/-- Work that starts with a part. -/
theorem Works.part (h : ∀ a', Works t (f a') xs flaw) :
    Works t (part node field a (t.change a) >>= f) (⟨d, a⟩ :: xs) flaw :=
  .of_part h

variable {as : Nodes d} {f : Nodes d → StateT Bool (Remembering σ) (Node c)}

/-- Work that starts with parts of which one has to be left, and may come to another flaw. -/
theorem Works.parts_orElse (h : ∀ as', Works t (f as') xs flaw) :
    Works t (parts node field as (t.change as) >>= f) (⟨.list d, as⟩ :: xs)
      (lacking? node field as <|> flaw) := by
  rw [Transformer.parts, bind_assoc]
  refine .of_part (e := fun as' => lacking? node field as' <|> flaw) fun as' => ?_
  rw [lacking?]
  cases as'.isEmpty with
  | false => exact h as'
  | true => exact .refused

/-- Work that starts with parts of which one has to be left. -/
theorem Works.parts (h : ∀ as', Works t (f as') xs none) :
    Works t (parts node field as (t.change as) >>= f) (⟨.list d, as⟩ :: xs)
      (lacking? node field as) := by
  have hnone : (lacking? node field as <|> none) = lacking? node field as := by
    cases lacking? node field as <;> rfl
  exact hnone ▸ .parts_orElse h

theorem Carries.keep : Carries t (pure .keep : Remembering σ (Change c)) [] none where
  keeps := by
    rintro s s' ⟨⟩
    rfl
  kept := by
    rintro s s' - rfl
    rfl
  fails := nofun

/-- What is made of the change of one node. -/
theorem Carries.map {g : Change d → Change c} (hg : ∀ change, g change = .keep ↔ change = .keep) :
    Carries t (g <$> t.change a) [⟨d, a⟩] none where
  keeps := by
    intro s s' hs
    rw [← bind_pure_comp] at hs
    obtain ⟨change, s₁, hchange, hs⟩ := of_bind_ok hs
    have hs : (Except.ok (g change), s₁) = (.ok .keep, s') := hs
    obtain ⟨hkeep, rfl⟩ := Prod.mk.inj hs
    exact ⟨s₁, (hg change).mp (Except.ok.inj hkeep) ▸ hchange, rfl⟩
  kept := by
    rintro s s' - ⟨s₁, hchange, rfl⟩
    rw [← bind_pure_comp, bind_ok hchange]
    exact congrArg (fun change => (Except.ok change, _)) ((hg .keep).mpr rfl)
  fails := nofun

/-- A node is made anew if something in it changed. -/
theorem Carries.rebuilt {work : StateT Bool (Remembering σ) (Node c)} (h : Works t work xs flaw) :
    Carries t (rebuilt work) xs flaw where
  keeps := by
    intro s s' hs
    obtain ⟨⟨n, b⟩, s₁, hwork, hs⟩ := of_bind_ok (x := work false) hs
    cases b with
    | false =>
      cases hs
      exact (h.keeps hwork).2
    | true => cases hs
  kept := by
    intro s s' hflaw hxs
    obtain ⟨n, hwork⟩ := h.kept (b := false) hflaw hxs
    exact bind_ok (x := work false) hwork
  fails := by
    intro s s' e hflaw hxs
    obtain ⟨s'', hwork⟩ := h.fails (b := false) hflaw hxs
    exact ⟨s'', bind_error (x := work false) hwork⟩

/-- A list is kept just if its head and its tail are. -/
theorem Carries.cons {head : Node c} {tail : Nodes c} :
    Carries t (t.change (.cons head tail)) [⟨c, head⟩, ⟨.list c, tail⟩] none where
  keeps := by
    intro s s' hs
    obtain ⟨change, s₁, hhead, hs⟩ := of_bind_ok (x := t.change head) hs
    obtain ⟨rest, s₂, htail, hs⟩ := of_bind_ok (x := t.change tail) hs
    have hs : (Except.ok (change.list head tail rest), s₂) = (.ok .keep, s') := hs
    obtain ⟨hkeep, rfl⟩ := Prod.mk.inj hs
    obtain ⟨rfl, rfl⟩ := Change.list_eq_keep_iff.mp (Except.ok.inj hkeep)
    exact ⟨s₁, hhead, s₂, htail, rfl⟩
  kept := by
    rintro s s' - ⟨s₁, hhead, s₂, htail, rfl⟩
    exact (bind_ok (x := t.change head) hhead).trans (bind_ok (x := t.change tail) htail)
  fails := nofun

end Remembering

open Remembering Node in
/-- **A node is kept just if its parts are.** -/
theorem Transformer.change_carries {σ : Type} (t : Transformer (Remembering σ)) (n : Node c) :
    ∃ inner, t.change n = t.asked n inner ∧ Carries t inner n.parts n.reviewed? := by
  cases n with
  | nil | absent | noInit | identifier | literal | keywordModifier | binaryOperator | unaryOperator
  | postOperator | assignOperator | emptyStmt | defaultLabel | emptyDecl => exact ⟨_, rfl, .keep⟩
  | cons head tail => exact ⟨t.change (.cons head tail), rfl, .cons⟩
  | present => exact ⟨_, rfl, .map fun _ => Change.optional_eq_keep_iff⟩
  | annotationModifier | valueElement | exprValue | annotationValue | exprItem | arrayInit
  | singleParam | nameParams | formalParams | exprBody | blockBody | typeTarget | patternTarget
  | exprReference | typeReference | blockStmt | localVariableStmt | exprCase | exprsInit
  | variablesInit | nameResource => exact ⟨_, rfl, .map fun _ => Change.lift_eq_keep_iff⟩
  | elementValueArray | wordType | wildcardBound | dim | name | constant | thisExpr | classExpr
  | arrayInitializer | localTypeStmt | exprStmt | breakStmt | continueStmt | returnStmt | throwStmt
  | yieldStmt | block | caseLabel | initializerDecl | importDecl | usesDirective =>
    exact ⟨_, rfl, .rebuilt <| .part fun _ => .made⟩
  | annotationUse | elementValuePair | wildcardType | guardedPattern | lambda | instanceOf | unary
  | post | switchExpr | call | member | index | genericCall | dimExpr | switchRule | labeledStmt
  | assertStmt | switchStmt | whileStmt | doWhileStmt | synchronizedStmt | matchValue
  | variableDeclaratorId | variableDeclarator | receiverParameter | formalParameters | packageDecl
  | requiresDirective | exportsDirective | opensDirective | modularUnit =>
    exact ⟨_, rfl, .rebuilt <| .part fun _ => .part fun _ => .made⟩
  | coit | typeParameter | superExpr | assignment | conditional | binary | cast | reference | ifStmt
  | switchBlock | resource | parameter | compactConstructorDecl | annotationDecl | recordComponent
  | moduleDecl | ordinaryUnit =>
    exact ⟨_, rfl, .rebuilt <| .part fun _ => .part fun _ => .part fun _ => .made⟩
  | pattern | newObject | newArray | forStmt | variableArityParameter | elementDecl
  | enumConstant =>
    exact ⟨_, rfl, .rebuilt <| .part fun _ => .part fun _ => .part fun _ => .part fun _ => .made⟩
  | newInner | forEachStmt | enumDecl =>
    exact ⟨_, rfl, .rebuilt <| .part fun _ => .part fun _ => .part fun _ => .part fun _ =>
      .part fun _ => .made⟩
  | constructorDecl | interfaceDecl | recordDecl =>
    exact ⟨_, rfl, .rebuilt <| .part fun _ => .part fun _ => .part fun _ => .part fun _ =>
      .part fun _ => .part fun _ => .made⟩
  | classDecl =>
    exact ⟨_, rfl, .rebuilt <| .part fun _ => .part fun _ => .part fun _ => .part fun _ =>
      .part fun _ => .part fun _ => .part fun _ => .made⟩
  | methodDecl =>
    exact ⟨_, rfl, .rebuilt <| .part fun _ => .part fun _ => .part fun _ => .part fun _ =>
      .part fun _ => .part fun _ => .part fun _ => .part fun _ => .part fun _ => .made⟩
  -- Lists of which one has to be left.
  | qualifiedName | typeParameters =>
    exact ⟨_, rfl, .rebuilt <| .parts fun _ => .made⟩
  | classType | typeBound | providesDirective =>
    exact ⟨_, rfl, .rebuilt <| .part fun _ => .parts fun _ => .made⟩
  | arrayType | localVariables | fieldDecl =>
    exact ⟨_, rfl, .rebuilt <| .part fun _ => .part fun _ => .parts fun _ => .made⟩
  | switchGroup =>
    exact ⟨_, rfl, .rebuilt <| .parts_orElse fun _ => .parts fun _ => .made⟩
  | catchClause =>
    exact ⟨_, rfl, .rebuilt <| .part fun _ => .parts fun _ => .part fun _ =>
      .part fun _ => .made⟩
  | tryResourcesStmt =>
    exact ⟨_, rfl, .rebuilt <| .parts fun _ => .part fun _ => .part fun _ =>
      .part fun _ => .made⟩
  | typeArguments _ types =>
    cases types with
    | nil =>
      refine ⟨_, rfl, .rebuilt ⟨fun hs => ?_, fun _ hxs => ?_, nofun⟩⟩
      · cases hs
        exact ⟨rfl, _, rfl, rfl⟩
      · obtain ⟨s₁, hnil, rfl⟩ := hxs
        cases hnil
        exact ⟨_, rfl⟩
    | cons => exact ⟨_, rfl, .rebuilt <| .parts fun _ => .made⟩
  -- A node that is looked at once more.
  | tryStmt span body catches final =>
    exact ⟨_, rfl, .rebuilt <| .of_part (e := fun body => (tryStmt span body catches final).flaw?)
      fun body => .of_part (e := fun catches => (tryStmt span body catches final).flaw?)
      fun catches => .of_part (e := fun final => (tryStmt span body catches final).flaw?)
      fun _ => .rechecked⟩

/-! ### Children -/

namespace Transformer

open Remembering Node

variable {σ : Type} {t : Transformer (Remembering σ)} {s s' : σ} {xs ys : List AnyNode}

theorem keeps_append :
    t.Keeps (xs ++ ys) s s' ↔ ∃ s₁, t.Keeps xs s s₁ ∧ t.Keeps ys s₁ s' := by
  induction xs generalizing s with
  | nil => exact ⟨fun h => ⟨s, rfl, h⟩, fun ⟨_, hs, h⟩ => hs ▸ h⟩
  | cons x xs ih =>
    constructor
    · rintro ⟨s₁, hx, h⟩
      obtain ⟨s₂, hxs, hys⟩ := ih.mp h
      exact ⟨s₂, ⟨s₁, hx, hxs⟩, hys⟩
    · rintro ⟨s₂, ⟨s₁, hx, hxs⟩, hys⟩
      exact ⟨s₁, hx, ih.mpr ⟨s₂, hxs, hys⟩⟩

/-- What no hook has a say about and breaks no rule is kept just if its parts are. -/
theorem kept_iff_parts (n : Node c) (h : n.reviewed? = none)
    (hasked : ∀ inner, t.asked n inner = inner) :
    t.change n s = (.ok .keep, s') ↔ t.Keeps n.parts s s' := by
  obtain ⟨inner, hinner, hcarries⟩ := t.change_carries n
  rw [hinner, hasked]
  exact hcarries.keeps_iff.trans (and_iff_right h)

theorem keeps_singleton {n : Node c} :
    t.Keeps [⟨c, n⟩] s s' ↔ t.change n s = (.ok .keep, s') := by
  constructor
  · rintro ⟨_, h, rfl⟩
    exact h
  · exact fun h => ⟨s', h, rfl⟩

/-- What no hook has a say about and has one part is kept just if the part is. -/
theorem kept_inner_iff (n : Node c) {inner : Node d} (h : n.reviewed? = none)
    (hasked : ∀ inner, t.asked n inner = inner) (hparts : n.parts = [⟨d, inner⟩]) :
    t.change inner s = (.ok .keep, s') ↔ t.change n s = (.ok .keep, s') := by
  rw [kept_iff_parts n h hasked, hparts]
  exact keeps_singleton.symm

/-- What stands in a place is kept just if the place is left as it is. -/
theorem keeps_items_iff (n : Node c) :
    t.Keeps n.items s s' ↔ t.change n s = (.ok .keep, s') := by
  induction n generalizing s with
  | @nil c => exact (kept_iff_parts (nil : Nodes c) rfl fun _ => rfl).symm
  | @absent c => exact (kept_iff_parts (absent : OptNode c) rfl fun _ => rfl).symm
  | noInit => exact (kept_iff_parts .noInit rfl fun _ => rfl).symm
  | cons head tail _ htail =>
    refine Iff.trans ?_ (kept_iff_parts (.cons head tail) rfl fun _ => rfl).symm
    exact exists_congr fun s₁ => and_congr_right' (htail.trans keeps_singleton.symm)
  | present inner ih => exact ih.trans (kept_inner_iff (.present inner) rfl (fun _ => rfl) rfl)
  | nameParams ns ih => exact ih.trans (kept_inner_iff (.nameParams ns) rfl (fun _ => rfl) rfl)
  | exprsInit ns ih => exact ih.trans (kept_inner_iff (.exprsInit ns) rfl (fun _ => rfl) rfl)
  | _ => exact keeps_singleton

theorem keeps_flatMap_items (xs : List AnyNode) :
    t.Keeps (xs.flatMap (·.node.items)) s s' ↔ t.Keeps xs s s' := by
  induction xs generalizing s with
  | nil => exact .rfl
  | cons x xs ih =>
    rw [List.flatMap_cons, keeps_append]
    exact exists_congr fun s₁ => and_congr (keeps_items_iff x.node) ih

/-- **Lists are rewritten as flat maps, and nodes without changed children are kept.**  A list among
the parts of a node is rewritten by recursion as in a loop.  There is an error just if there is one
for an element, and then the first is the error; else what stands in the places of the elements is
put together, and the node changes if an element does.  What the hooks are given for a node keeps it
just if all its children are kept, unless it breaks a rule that is looked at again; a node that
obeys the rules about its kind never does. -/
theorem lists_flattened (t : Transformer (Remembering σ)) :
    (∀ {c : Category} (ns : Nodes c),
      (∀ node field, part node field ns (t.change ns) = .ofList <$> t.listLoop ns.toList) ∧
        ∀ changed s, t.Flattens ns.toList changed s (t.listLoop ns.toList changed s)) ∧
    ∀ {c : Category} (n : Node c), (n.flaw? = none → n.reviewed? = none) ∧
      ∃ inner, t.change n = t.asked n inner ∧ ∀ s s',
        (inner s = (.ok .keep, s') ↔ n.reviewed? = none ∧ t.Keeps n.children s s') ∧
        ∀ e, n.reviewed? = some e → t.Keeps n.children s s' → ∃ s'', inner s = (.error e, s'') := by
  refine ⟨fun ns => ⟨fun node field => t.part_eq_listLoop node field ns,
    t.listLoop_flattens ns.toList⟩, fun n => ⟨reviewed?_eq_none, ?_⟩⟩
  obtain ⟨inner, hinner, hcarries⟩ := t.change_carries n
  refine ⟨inner, hinner, fun s s' => ?_⟩
  rw [children, keeps_flatMap_items]
  exact ⟨hcarries.keeps_iff, fun _ => hcarries.fails⟩

end Transformer

/-- Puts two copies in the place of every expression that stands as a statement, and counts them. -/
def Transformer.doubling : Transformer (Remembering Nat) where
  family n inner := match n with
    | .exprStmt span value => do
      modify (· + 1)
      return .splice (.ofList [.exprStmt span value, .exprStmt span value])
    | _ => inner
  kind _ inner := inner

/-- An expression as a statement: `x;`. -/
def Node.lone : Stmt := .exprStmt none (.name none (.identifier none "x"))

/-- A block with nothing in it but `;`. -/
def Node.hollow : Node .block := .block none (.cons (.emptyStmt none) .nil)

theorem Transformer.lists_flattened_doubling :
    doubling.Flattens [Node.lone, .emptyStmt none] false 0
        (.ok ([Node.lone, Node.lone, .emptyStmt none], true), 1) ∧
      doubling.Keeps Node.hollow.children 1 1 ∧
      ∃ inner, doubling.change Node.hollow = doubling.asked Node.hollow inner ∧
        inner 1 = (.ok .keep, 1) := by
  obtain ⟨hlists, hnodes⟩ := lists_flattened doubling
  have hkeeps : doubling.Keeps Node.hollow.children 1 1 := ⟨1, rfl, rfl⟩
  obtain ⟨-, inner, hinner, hkept⟩ := hnodes Node.hollow
  refine ⟨(hlists (.ofList [Node.lone, .emptyStmt none])).2 false 0, hkeeps, inner, hinner, ?_⟩
  exact (hkept 1 1).1.mpr ⟨rfl, hkeeps⟩

end JavaSource
