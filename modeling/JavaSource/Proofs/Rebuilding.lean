import JavaSource.Proofs.Legal
import JavaSource.Proofs.Preorder
import JavaSource.Syntax.Transform

/-!
# Nodes made anew

A node whose parts change is made anew from them.  Most rules about its kind are looked at again
then: lists that need an element must still have one, and `try` must still be guarded.  The rest
are not, so a rule that relates parts to each other may end up broken.

* `Transformer.Careful`: what the hooks put in place of a node is valid, unless it came out of the
  change of what is in the node.
* `Transformer.transform_mostlyValid`: a careful transformer turns a valid tree into one that breaks
  no rule but those that are overlooked (`NodeError.isOverlooked`).
* `Transformer.transform_breaks`: one of those can be broken, without an error.
-/

namespace JavaSource

/-! ### What is overlooked -/

/-- Whether a node made anew is not asked about the rule. -/
def NodeError.isOverlooked (e : NodeError) : Bool :=
  match e.problem with
  | .lambdaReceiver | .sizedInitializer | .unsizedArray | .referenceName | .noTypeDeclaration _
  | .mixedSwitch | .annotatedType => true
  | .noElement => e.node == "NewArray"
  | _          => false

namespace Node

variable {c : Category}

/-- The node breaks no rule about its kind but overlooked ones. -/
def Passable (n : Node c) : Prop := ∀ e, n.flaw? = some e → e.isOverlooked = true

/-- Every node in the tree breaks no rule but overlooked ones. -/
def MostlyValid (n : Node c) : Prop := n.Each fun x => x.node.Passable

/-- The lists have passable nodes only. -/
abbrev AllPassable (parts : List (List AnyNode)) : Prop := EachPart (fun x => x.node.Passable) parts

theorem Valid.mostlyValid {n : Node c} (h : n.Valid) : n.MostlyValid := fun x hx e he => by
  cases (h x hx).symm.trans he

theorem Passable.of_none {n : Node c} (h : n.flaw? = none) : n.Passable := fun e he => by
  cases h.symm.trans he

/-! ### Rules that are overlooked -/

variable {span : Option Text.Span}

theorem Passable.lambda {params : Node .lambdaParams} {body : Node .lambdaBody} :
    (Node.lambda span params body).Passable := by
  intro e he
  cases params with
  | singleParam | nameParams => cases he
  | formalParams params =>
    cases params with
    | formalParameters _ receiver _ =>
      cases receiver with
      | absent => cases he
      | present => cases he; rfl

theorem Passable.newArray {ty : TypeNode} {sized : Nodes .dimExpr} {dims : Nodes .dim}
    {init : OptNode .arrayInitializer} : (Node.newArray span ty sized dims init).Passable := by
  intro e he
  change sizing? sized dims init = some e at he
  rw [sizing?] at he
  split at he
  · cases he; rfl
  · cases he; rfl
  · rw [lacking?] at he
    split at he <;> cases he
    rfl
  · cases he

theorem Passable.reference {target : Node .referenceTarget} {targs : OptNode .typeArguments}
    {id : OptNode .identifier} {isNew : Bool} :
    (Node.reference span target targs id isNew).Passable := by
  intro e he
  change (if id.isSome == isNew then _ else none) = some e at he
  split at he <;> cases he
  rfl

theorem Passable.localTypeStmt {decl : Decl} : (Node.localTypeStmt span decl).Passable := by
  intro e he
  change (if decl.isTypeDeclaration then none else _) = some e at he
  split at he <;> cases he
  rfl

theorem Passable.switchStmt {value : Expr} {body : Node .switchBlock} :
    (Node.switchStmt span value body).Passable := by
  intro e he
  cases body with
  | switchBlock =>
    change (if _ then _ else none) = some e at he
    split at he <;> cases he
    rfl

theorem isOverlooked_of_annotated? {node : String} {ty : TypeNode} {e : NodeError}
    (he : annotated? node ty = some e) : e.isOverlooked = true := by
  rw [annotated?] at he
  split at he <;> cases he
  rfl

theorem Passable.elementDecl {mods : Nodes .modifier} {ty : TypeNode} {id : Node .identifier}
    {value : OptNode .elementValue} : (Node.elementDecl span mods ty id value).Passable :=
  fun _ => isOverlooked_of_annotated?

theorem Passable.switchGroup {labels : Nodes .switchLabel} {body : Nodes .stmt}
    (hlabels : labels.isEmpty = false) (hbody : body.isEmpty = false) :
    (Node.switchGroup span labels body).Passable := by
  refine .of_none ?_
  change (lacking? _ _ labels <|> lacking? _ _ body) = none
  rw [lacking?_eq_none hlabels, lacking?_eq_none hbody]
  rfl

theorem Passable.fieldDecl {mods : Nodes .modifier} {ty : TypeNode}
    {decls : Nodes .variableDeclarator} (h : decls.isEmpty = false) :
    (Node.fieldDecl span mods ty decls).Passable := by
  intro e he
  change (annotated? _ ty <|> lacking? _ _ decls) = some e at he
  rw [lacking?_eq_none h] at he
  cases hty : annotated? "FieldDeclaration" ty with
  | none => rw [hty] at he; cases he
  | some _ =>
    rw [hty] at he
    cases he
    exact isOverlooked_of_annotated? hty

end Node

/-! ### Transformers with care -/

/-- Changes that may go wrong and depend on what is remembered from node to node. -/
abbrev Rewriting (σ : Type) := StateT σ (Except NodeError)

variable {σ α β : Type} {c d : Category}

/-- The nodes that come in place of a node. -/
def Change.made : Change c → List (Node c)
  | keep | delete => []
  | replace n     => [n]
  | splice ns     => ns.toList

/-- Every node that comes in place of another is valid, unless it came out of a run of the change of
what is in the node. -/
def Rewriting.Answers (answer inner : Rewriting σ (Change c)) : Prop :=
  ∀ s change s', answer s = .ok (change, s') → ∀ n ∈ change.made,
    n.Valid ∨ ∃ r other r', inner r = .ok (other, r') ∧ n ∈ other.made

/-- The hooks put nothing but valid nodes in place of others, besides what came out of the change of
what is in a node. -/
structure Transformer.Careful (t : Transformer (Rewriting σ)) : Prop where
  family {c : Category} (n : Node c) (inner : Rewriting σ (Change c)) :
    Rewriting.Answers (t.family n inner) inner
  kind {c : Category} (n : Node c) (inner : Rewriting σ (Change c)) :
    Rewriting.Answers (t.kind n inner) inner

namespace Rewriting

open Node Transformer

/-- What comes in place of a node breaks no rule but overlooked ones. -/
def Gives (x : Rewriting σ (Change c)) : Prop :=
  ∀ s change s', x s = .ok (change, s') → ∀ n ∈ change.made, n.MostlyValid

/-- If the old parts break no rule but overlooked ones, so does the node that is made. -/
def Works (olds : List (List AnyNode)) (x : StateT Bool (Rewriting σ) (Node c)) : Prop :=
  AllPassable olds → ∀ b s n b' s', x b s = .ok ((n, b'), s') → n.MostlyValid

/-- What comes behind something that succeeds. -/
theorem of_bind_ok {ε α β : Type} {x : Except ε α} {f : α → Except ε β} {b : β}
    (h : (x >>= f) = .ok b) : ∃ a, x = .ok a ∧ f a = .ok b := by
  cases x with
  | error e => cases h
  | ok a => exact ⟨a, rfl, h⟩

variable {node field : String} {olds : List (List AnyNode)} {n : Node d}

theorem Gives.keep : Gives (Pure.pure .keep : Rewriting σ (Change c)) := by
  rintro s change s' ⟨⟩
  exact List.forall_mem_nil _

theorem Gives.answer {answer inner : Rewriting σ (Change c)} (hanswers : Answers answer inner)
    (h : Gives inner) : Gives answer := by
  intro s change s' hs n hn
  obtain hn | ⟨r, other, r', hr, hn⟩ := hanswers s change s' hs n hn
  · exact hn.mostlyValid
  · exact h r other r' hr n hn

theorem Gives.kind {t : Transformer (Rewriting σ)} (ht : t.Careful) {n : Node c}
    {inner : Rewriting σ (Change c)} (h : n.Passable → AllPassable olds → Gives inner)
    (hn : ∀ x ∈ (⟨c, n⟩ : AnyNode) :: olds.flatten, x.node.Passable) :
    Gives (t.kind n inner) := by
  obtain ⟨hn, holds⟩ := List.forall_mem_cons.mp hn
  exact .answer (ht.kind n inner) (h hn (eachPart_iff.mpr holds))

theorem Gives.member {t : Transformer (Rewriting σ)} (ht : t.Careful) {n : Node c}
    {inner : Rewriting σ (Change c)} (h : n.Passable → AllPassable olds → Gives inner)
    (hn : ∀ x ∈ (⟨c, n⟩ : AnyNode) :: olds.flatten, x.node.Passable) :
    Gives (t.member n inner) :=
  .answer (ht.family n _) (.kind ht h hn)

theorem Gives.rebuilt {work : StateT Bool (Rewriting σ) (Node c)} (h : Works olds work)
    (holds : AllPassable olds) : Gives (rebuilt work) := by
  intro s change s' hs n hn
  obtain ⟨⟨⟨made, changed⟩, s₁⟩, hwork, hs⟩ := of_bind_ok (x := work false s) hs
  cases changed with
  | true =>
    cases hs
    cases List.mem_singleton.mp hn
    exact h holds _ _ _ _ _ hwork
  | false =>
    cases hs
    cases hn

theorem Gives.map {x : Rewriting σ (Change c)} {f : Change c → Change d} (h : Gives x)
    (hf : ∀ change : Change c, (∀ n ∈ change.made, n.MostlyValid) →
      ∀ n ∈ (f change).made, n.MostlyValid) : Gives (f <$> x) := by
  intro s change s' hs
  obtain ⟨⟨other, s₁⟩, hx, hs⟩ := of_bind_ok (x := x s) hs
  cases hs
  exact hf other (h s other _ hx)

/-- A node that stands for another is as valid as that. -/
theorem Gives.lift {x : Rewriting σ (Change c)} {f : Node c → Node d} (h : Gives x)
    (hf : ∀ n, (f n).preorder true = n.preorder true) : Gives (Change.lift f <$> x) := by
  refine h.map fun change hchange n hn => ?_
  cases change with
  | keep | delete => cases hn
  | replace new =>
    cases List.mem_singleton.mp hn
    exact fun x hx => hchange new (List.mem_singleton_self _) x (hf new ▸ hx)
  | splice ns =>
    change n ∈ (ofList (ns.toList.map f)).toList at hn
    rw [toList_ofList] at hn
    obtain ⟨new, hnew, rfl⟩ := List.mem_map.mp hn
    exact fun x hx => hchange new hnew x (hf new ▸ hx)

theorem Gives.optional {x : Rewriting σ (Change c)} (h : Gives x) :
    Gives (Change.optional <$> x) := by
  refine h.map fun change hchange n hn => ?_
  cases change with
  | keep => cases hn
  | delete =>
    cases List.mem_singleton.mp hn
    exact List.forall_mem_nil _
  | replace new =>
    cases List.mem_singleton.mp hn
    exact hchange new (List.mem_singleton_self _)
  | splice ns =>
    change n ∈ (ofList (ns.toList.map .present)).toList at hn
    rw [toList_ofList] at hn
    obtain ⟨new, hnew, rfl⟩ := List.mem_map.mp hn
    exact hchange new hnew

theorem mostlyValid_elements {old : Node c} {change : Change c} (hold : old.MostlyValid)
    (h : ∀ n ∈ change.made, n.MostlyValid) : (change.elements old).MostlyValid := by
  rw [MostlyValid, each_iff_toList]
  cases change with
  | keep => exact List.forall_mem_singleton.mpr hold
  | replace new => exact h
  | delete => exact List.forall_mem_nil _
  | splice ns => exact h

theorem mostlyValid_list {head : Node c} {tail : Nodes c} {change : Change c}
    {rest : Change (.list c)} (hhead : head.MostlyValid) (htail : tail.MostlyValid)
    (h : ∀ n ∈ change.made, n.MostlyValid) (hrest : ∀ n ∈ rest.made, n.MostlyValid) :
    ∀ n ∈ (change.list head tail rest).made, n.MostlyValid := by
  have hjoined {ms : Nodes c} (hms : ms.MostlyValid) :
      ∀ n ∈ (Change.replace ((change.elements head).append ms)).made, n.MostlyValid :=
    List.forall_mem_singleton.mpr ((mostlyValid_elements hhead h).append hms)
  cases rest with
  | replace ms =>
    have hms := hrest ms (List.mem_singleton_self _)
    cases change <;> exact hjoined hms
  | keep =>
    cases change with
    | keep => exact List.forall_mem_nil _
    | _ => exact hjoined htail
  | delete | splice =>
    cases change <;> exact hjoined htail

theorem Gives.bind {x : Rewriting σ (Change c)} {f : Change c → Rewriting σ (Change d)}
    (h : Gives x)
    (hf : ∀ change : Change c, (∀ n ∈ change.made, n.MostlyValid) → Gives (f change)) :
    Gives (x >>= f) := by
  intro s change s' hs
  obtain ⟨⟨other, s₁⟩, hx, hs⟩ := of_bind_ok (x := x s) hs
  exact hf other (h s other s₁ hx) s₁ change s' hs

theorem Works.bind {f : Node c → StateT Bool (Rewriting σ) (Node d)}
    {x : StateT Bool (Rewriting σ) (Node c)} {old : List AnyNode}
    (hf : (∀ y ∈ old, y.node.Passable) → ∀ b s new b' s', x b s = .ok ((new, b'), s') →
      Works olds (f new)) : Works (old :: olds) (x >>= f) := by
  intro holds b s n b' s' hs
  obtain ⟨⟨⟨new, b₁⟩, s₁⟩, hx, hs⟩ := of_bind_ok (x := x b s) hs
  exact hf holds.1 b s new b₁ s₁ hx holds.2 b₁ s₁ n b' s' hs

/-- A part is kept or replaced. -/
theorem part_mostlyValid {old new : Node c} {inner : Rewriting σ (Change c)} {b b' : Bool}
    {s s' : σ} (hold : old.MostlyValid) (h : Gives inner)
    (hs : part node field old inner b s = .ok ((new, b'), s')) : new.MostlyValid := by
  obtain ⟨⟨⟨change, b₁⟩, s₁⟩, hinner, hs⟩ := of_bind_ok (x := inner s >>= _) hs
  obtain ⟨⟨change', s₂⟩, hinner, hsame⟩ := of_bind_ok (x := inner s) hinner
  cases hsame
  cases change with
  | keep => cases hs; exact hold
  | replace _ =>
    cases hs
    exact h s _ _ hinner _ (List.mem_singleton_self _)
  | delete | splice => cases hs

/-- Work that starts with a part. -/
theorem Works.part {old : Node c} {inner : Rewriting σ (Change c)}
    {f : Node c → StateT Bool (Rewriting σ) (Node d)} (h : old.MostlyValid → Gives inner)
    (hf : ∀ new, new.MostlyValid → Works olds (f new)) :
    Works (old.preorder true :: olds) (part node field old inner >>= f) :=
  Works.bind fun hold _ _ new _ _ hs => hf new (part_mostlyValid hold (h hold) hs)

/-- A list that needs an element has one, or there is an error. -/
theorem Works.parts {old : Nodes c} {inner : Rewriting σ (Change (.list c))}
    {f : Nodes c → StateT Bool (Rewriting σ) (Node d)} (h : old.MostlyValid → Gives inner)
    (hf : ∀ new, new.MostlyValid → new.isEmpty = false → Works olds (f new)) :
    Works (old.preorder true :: olds) (parts node field old inner >>= f) := by
  rw [Transformer.parts, bind_assoc]
  refine .part h fun new hnew => ?_
  cases hempty : new.isEmpty with
  | true => exact fun _ _ _ _ _ _ hs => by cases hs
  | false => exact hf new hnew hempty

theorem Works.made (h : n.MostlyValid) :
    Works olds (Pure.pure n : StateT Bool (Rewriting σ) (Node d)) := by
  rintro - b s _ _ _ ⟨⟩
  exact h

theorem Works.rechecked (h : n.flaw? = none → n.MostlyValid) :
    Works olds (recheck n : StateT Bool (Rewriting σ) (Node d)) := by
  rw [recheck]
  split
  · exact fun _ _ _ _ _ _ hs => by cases hs
  · exact .made (h ‹_›)

end Rewriting

open Rewriting Node in
/-- What comes in place of a node breaks no rule but overlooked ones, if nothing in the node breaks
another. -/
theorem Transformer.change_gives {t : Transformer (Rewriting σ)} (ht : t.Careful) (n : Node c) :
    n.MostlyValid → Gives (t.change n) := by
  induction n with
  | nil | absent | noInit => exact fun _ => .keep
  | cons head tail hhead htail =>
    intro h
    obtain ⟨hheadOld, htailOld⟩ := List.forall_mem_append.mp h
    refine (hhead hheadOld).bind fun change hchange => (htail htailOld).map fun rest hrest => ?_
    exact mostlyValid_list hheadOld htailOld hchange hrest
  | present _ ih => exact fun h => (ih h).optional
  | annotationModifier _ ih | valueElement _ ih | exprValue _ ih | annotationValue _ ih
  | exprItem _ ih | singleParam _ ih | nameParams _ ih | formalParams _ ih | exprBody _ ih
  | blockBody _ ih | typeTarget _ ih | patternTarget _ ih | exprReference _ ih
  | typeReference _ ih  | exprCase _ ih
  | exprsInit _ ih | variablesInit _ ih | nameResource _ ih =>
    exact fun h => (ih h).lift fun _ => rfl
  | arrayInit _ ih | blockStmt _ ih | localVariableStmt _ ih =>
    exact fun h => .answer (ht.family _ _) ((ih h).lift fun _ => rfl)
  | identifier _ _ | literal _ _ | keywordModifier _ _ | binaryOperator _ | unaryOperator _
  | postOperator _ | assignOperator _ | defaultLabel _ =>
    exact fun _ => .answer (ht.kind _ _) .keep
  | qualifiedName _ _ ha | typeParameters _ _ ha =>
    exact .kind ht fun _ => .rebuilt <| .parts ha fun _ ha ha' =>
      .made <| .tree (.of_none (lacking?_eq_none ha')) ⟨ha, trivial⟩
  | annotationUse _ _ _ ha hb | elementValuePair _ _ _ ha hb | wildcardType _ _ _ ha hb
  | guardedPattern _ _ _ ha hb | dimExpr _ _ _ ha hb | switchRule _ _ _ _ _ ha hb
  | matchValue _ _ _ ha hb | variableDeclaratorId _ _ _ ha hb | variableDeclarator _ _ _ ha hb
  | receiverParameter _ _ _ ha hb | formalParameters _ _ _ ha hb | packageDecl _ _ _ ha hb
  | requiresDirective _ _ _ ha hb | exportsDirective _ _ _ ha hb | opensDirective _ _ _ ha hb
  | modularUnit _ _ _ ha hb =>
    exact .kind ht fun _ => .rebuilt <| .part ha fun _ ha => .part hb fun _ hb =>
      .made <| .tree (.of_none rfl) ⟨ha, hb, trivial⟩
  | elementValueArray _ _ ha | wordType _ _ _ ha | dim _ _ ha | arrayInitializer _ _ ha
  | block _ _ ha | caseLabel _ _ ha | importDecl _ _ _ _ ha | usesDirective _ _ ha =>
    exact .kind ht fun _ => .rebuilt <| .part ha fun _ ha =>
      .made <| .tree (.of_none rfl) ⟨ha, trivial⟩
  | wildcardBound _ _ _ _ ha =>
    exact .kind ht fun hn => .rebuilt <| .part ha fun _ ha => .made <| .tree hn ⟨ha, trivial⟩
  | classType _ _ _ ha hb | typeBound _ _ _ ha hb | providesDirective _ _ _ ha hb =>
    exact .kind ht fun _ => .rebuilt <| .part ha fun _ ha => .parts hb fun _ hb hb' =>
      .made <| .tree (.of_none (lacking?_eq_none hb')) ⟨ha, hb, trivial⟩
  | arrayType _ _ _ _ ha hb hd | localVariables _ _ _ _ ha hb hd =>
    exact .kind ht fun _ => .rebuilt <| .part ha fun _ ha => .part hb fun _ hb =>
      .parts hd fun _ hd hd' =>
      .made <| .tree (.of_none (lacking?_eq_none hd')) ⟨ha, hb, hd, trivial⟩
  | coit _ _ _ _ ha hb hd | typeParameter _ _ _ _ ha hb hd | switchBlock _ _ _ _ ha hb hd
  | resource _ _ _ _ ha hb hd | parameter _ _ _ _ ha hb hd | recordComponent _ _ _ _ _ ha hb hd
  | moduleDecl _ _ _ _ _ ha hb hd | ordinaryUnit _ _ _ _ ha hb hd =>
    exact .kind ht fun _ => .rebuilt <| .part ha fun _ ha => .part hb fun _ hb =>
      .part hd fun _ hd => .made <| .tree (.of_none rfl) ⟨ha, hb, hd, trivial⟩
  | pattern _ _ _ _ _ ha hb hd he | variableArityParameter _ _ _ _ _ ha hb hd he
  | enumConstant _ _ _ _ _ ha hb hd he =>
    exact .kind ht fun _ => .rebuilt <| .part ha fun _ ha => .part hb fun _ hb =>
      .part hd fun _ hd => .part he fun _ he =>
      .made <| .tree (.of_none rfl) ⟨ha, hb, hd, he, trivial⟩
  | name _ _ ha | constant _ _ ha | thisExpr _ _ ha | classExpr _ _ ha | exprStmt _ _ ha
  | breakStmt _ _ ha | continueStmt _ _ ha | returnStmt _ _ ha | throwStmt _ _ ha
  | yieldStmt _ _ ha | initializerDecl _ _ _ ha =>
    exact .member ht fun _ => .rebuilt <| .part ha fun _ ha =>
      .made <| .tree (.of_none rfl) ⟨ha, trivial⟩
  | localTypeStmt _ _ ha =>
    exact .member ht fun _ => .rebuilt <| .part ha fun _ ha =>
      .made <| .tree .localTypeStmt ⟨ha, trivial⟩
  | superExpr _ _ _ _ ha hb hd | assignment _ _ _ _ ha hb hd | conditional _ _ _ _ ha hb hd
  | binary _ _ _ _ ha hb hd | cast _ _ _ _ ha hb hd | ifStmt _ _ _ _ ha hb hd
  | compactConstructorDecl _ _ _ _ ha hb hd | annotationDecl _ _ _ _ ha hb hd =>
    exact .member ht fun _ => .rebuilt <| .part ha fun _ ha => .part hb fun _ hb =>
      .part hd fun _ hd => .made <| .tree (.of_none rfl) ⟨ha, hb, hd, trivial⟩
  | reference _ _ _ _ _ ha hb hd =>
    exact .member ht fun _ => .rebuilt <| .part ha fun _ ha => .part hb fun _ hb =>
      .part hd fun _ hd => .made <| .tree .reference ⟨ha, hb, hd, trivial⟩
  | instanceOf _ _ _ ha hb | unary _ _ _ ha hb | post _ _ _ ha hb | switchExpr _ _ _ ha hb
  | call _ _ _ ha hb | member _ _ _ ha hb | index _ _ _ ha hb | genericCall _ _ _ ha hb
  | labeledStmt _ _ _ ha hb | assertStmt _ _ _ ha hb | whileStmt _ _ _ ha hb
  | doWhileStmt _ _ _ ha hb | synchronizedStmt _ _ _ ha hb =>
    exact .member ht fun _ => .rebuilt <| .part ha fun _ ha => .part hb fun _ hb =>
      .made <| .tree (.of_none rfl) ⟨ha, hb, trivial⟩
  | lambda _ _ _ ha hb =>
    exact .member ht fun _ => .rebuilt <| .part ha fun _ ha => .part hb fun _ hb =>
      .made <| .tree .lambda ⟨ha, hb, trivial⟩
  | switchStmt _ _ _ ha hb =>
    exact .member ht fun _ => .rebuilt <| .part ha fun _ ha => .part hb fun _ hb =>
      .made <| .tree .switchStmt ⟨ha, hb, trivial⟩
  | newObject _ _ _ _ _ ha hb hd he | forStmt _ _ _ _ _ ha hb hd he =>
    exact .member ht fun _ => .rebuilt <| .part ha fun _ ha => .part hb fun _ hb =>
      .part hd fun _ hd => .part he fun _ he =>
      .made <| .tree (.of_none rfl) ⟨ha, hb, hd, he, trivial⟩
  | newArray _ _ _ _ _ ha hb hd he =>
    exact .member ht fun _ => .rebuilt <| .part ha fun _ ha => .part hb fun _ hb =>
      .part hd fun _ hd => .part he fun _ he => .made <| .tree .newArray ⟨ha, hb, hd, he, trivial⟩
  | elementDecl _ _ _ _ _ ha hb hd he =>
    exact .member ht fun _ => .rebuilt <| .part ha fun _ ha => .part hb fun _ hb =>
      .part hd fun _ hd => .part he fun _ he =>
      .made <| .tree .elementDecl ⟨ha, hb, hd, he, trivial⟩
  | newInner _ _ _ _ _ _ ha hb hd he hf | forEachStmt _ _ _ _ _ _ ha hb hd he hf
  | enumDecl _ _ _ _ _ _ ha hb hd he hf =>
    exact .member ht fun _ => .rebuilt <| .part ha fun _ ha => .part hb fun _ hb =>
      .part hd fun _ hd => .part he fun _ he => .part hf fun _ hf =>
      .made <| .tree (.of_none rfl) ⟨ha, hb, hd, he, hf, trivial⟩
  | emptyStmt _ | emptyDecl _ =>
    exact fun _ => .answer (ht.family _ _) (.answer (ht.kind _ _) .keep)
  | tryResourcesStmt _ _ _ _ _ ha hb hd he =>
    exact .member ht fun _ => .rebuilt <| .parts ha fun _ ha ha' => .part hb fun _ hb =>
      .part hd fun _ hd => .part he fun _ he =>
      .made <| .tree (.of_none (lacking?_eq_none ha')) ⟨ha, hb, hd, he, trivial⟩
  | switchGroup _ _ _ ha hb =>
    exact .kind ht fun _ => .rebuilt <| .parts ha fun _ ha ha' => .parts hb fun _ hb hb' =>
      .made <| .tree (.switchGroup ha' hb') ⟨ha, hb, trivial⟩
  | catchClause _ _ _ _ _ ha hb hd he =>
    exact .kind ht fun _ => .rebuilt <| .part ha fun _ ha => .parts hb fun _ hb hb' =>
      .part hd fun _ hd => .part he fun _ he =>
      .made <| .tree (.of_none (lacking?_eq_none hb')) ⟨ha, hb, hd, he, trivial⟩
  | fieldDecl _ _ _ _ ha hb hd =>
    exact .member ht fun _ => .rebuilt <| .part ha fun _ ha => .part hb fun _ hb =>
      .parts hd fun _ hd hd' => .made <| .tree (.fieldDecl hd') ⟨ha, hb, hd, trivial⟩
  | methodDecl _ _ _ _ _ _ _ _ _ _ ha hb hd he hf hg hh hi hj =>
    exact .member ht fun _ => .rebuilt <| .part ha fun _ ha => .part hb fun _ hb =>
      .part hd fun _ hd => .part he fun _ he => .part hf fun _ hf => .part hg fun _ hg =>
      .part hh fun _ hh => .part hi fun _ hi => .part hj fun _ hj =>
      .made <| .tree (.of_none rfl) ⟨ha, hb, hd, he, hf, hg, hh, hi, hj, trivial⟩
  | constructorDecl _ _ _ _ _ _ _ ha hb hd he hf hg
  | interfaceDecl _ _ _ _ _ _ _ ha hb hd he hf hg | recordDecl _ _ _ _ _ _ _ ha hb hd he hf hg =>
    exact .member ht fun _ => .rebuilt <| .part ha fun _ ha => .part hb fun _ hb =>
      .part hd fun _ hd => .part he fun _ he => .part hf fun _ hf => .part hg fun _ hg =>
      .made <| .tree (.of_none rfl) ⟨ha, hb, hd, he, hf, hg, trivial⟩
  | classDecl _ _ _ _ _ _ _ _ ha hb hd he hf hg hh =>
    exact .member ht fun _ => .rebuilt <| .part ha fun _ ha => .part hb fun _ hb =>
      .part hd fun _ hd => .part he fun _ he => .part hf fun _ hf => .part hg fun _ hg =>
      .part hh fun _ hh => .made <| .tree (.of_none rfl) ⟨ha, hb, hd, he, hf, hg, hh, trivial⟩
  | typeArguments _ types ha =>
    cases types with
    | nil =>
      exact .kind ht fun _ => .rebuilt <| .made <|
        .tree (.of_none rfl) ⟨List.forall_mem_nil _, trivial⟩
    | cons =>
      exact .kind ht fun _ => .rebuilt <| .parts ha fun _ ha _ =>
        .made <| .tree (.of_none rfl) ⟨ha, trivial⟩
  | tryStmt _ _ _ _ ha hb hd =>
    exact .member ht fun _ => .rebuilt <| .part ha fun _ ha => .part hb fun _ hb =>
      .part hd fun _ hd => .rechecked fun h => .tree (.of_none h) ⟨ha, hb, hd, trivial⟩

/-- **A careful transformer turns a valid tree into one that breaks no rule but those that are
overlooked when a node is made anew.** -/
theorem Transformer.transform_mostlyValid {t : Transformer (Rewriting σ)} (ht : t.Careful)
    {n n' : Node c} (hn : n.Valid) {s s' : σ} (h : t.transform n s = .ok (n', s')) :
    n'.MostlyValid := by
  obtain ⟨⟨change, s₁⟩, hchange, h⟩ := Rewriting.of_bind_ok (x := t.change n s) h
  cases change with
  | keep => cases h; exact hn.mostlyValid
  | replace _ =>
    cases h
    exact change_gives ht n hn.mostlyValid s _ _ hchange _ (List.mem_singleton_self _)
  | delete | splice => cases h

/-! ### A broken rule -/

/-- Deletes the identifiers with a name. -/
def Transformer.deleting (name : String) : Transformer (Rewriting Unit) where
  family _ inner := inner
  kind n inner := match n with
    | .identifier _ name' => if name' = name then pure .delete else inner
    | _                   => inner

theorem Transformer.careful_deleting (name : String) : (deleting name).Careful := by
  have hself {c : Category} (inner : Rewriting Unit (Change c)) :
      Rewriting.Answers inner inner := fun s change s' hs n hn => .inr ⟨s, change, s', hs, hn⟩
  refine ⟨fun _ inner => hself inner, fun n inner => ?_⟩
  cases n with
  | identifier _ name' =>
    change Rewriting.Answers (if name' = name then pure .delete else inner) inner
    split
    · rintro s change s' ⟨⟩
      exact List.forall_mem_nil _
    · exact hself inner
  | _ => exact hself inner

/-- A method reference: `a::b`. -/
def Node.methodReference : Expr :=
  .reference none (.exprReference (.name none (.identifier none "a"))) .absent
    (.present (.identifier none "b")) false

/-- What is left of it without the name of the method. -/
def Node.namelessReference : Expr :=
  .reference none (.exprReference (.name none (.identifier none "a"))) .absent .absent false

theorem Transformer.transform_mostlyValid_methodReference :
    (deleting "b").Careful ∧ Node.methodReference.Valid ∧
      (deleting "b").transform Node.methodReference () = .ok (Node.namelessReference, ()) ∧
      Node.namelessReference.MostlyValid :=
  ⟨careful_deleting "b", by decide, rfl,
    transform_mostlyValid (careful_deleting "b") (n := Node.methodReference) (by decide)
      (s := ()) rfl⟩

/-- A careful transformer can break a rule about a valid tree without an error. -/
theorem Transformer.transform_breaks : ¬ ∀ {σ : Type} {t : Transformer (Rewriting σ)}, t.Careful →
    ∀ {c : Category} {n n' : Node c}, n.Valid → ∀ {s s' : σ}, t.transform n s = .ok (n', s') →
      n'.Valid := by
  intro h
  have hvalid : Node.namelessReference.Valid :=
    h (careful_deleting "b") (n := Node.methodReference) (by decide) (s := ()) rfl
  exact absurd hvalid (by decide)

end JavaSource
