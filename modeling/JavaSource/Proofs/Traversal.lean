import JavaSource.Proofs.Preorder
import JavaSource.Syntax.Transform
import JavaSource.Syntax.Visitor

/-!
# Traversals

A visitor looks at the parts of a node through its view; a transformer comes to them one by one as
it makes the node anew.  The two orders are written down apart from each other, so that they agree
is not a matter of course.

* `Visitor.nodes_views`: a visitor comes to the nodes that views show, from left to right.
* `Transformer.change_logging`: a transformer that leaves all as it is comes to every node of a
  valid tree, from left to right, and neither fails nor changes anything.
* `Node.traversals_agree`: the two sequences are the same, but for the parameters of methods and
  constructors that have none.  Views pass over these, transformers do not.

What a transformer comes to is told by a log (`Logged.Lists`).  Work on a node (`Logged.Works`) goes
from part to part, so there is one lemma for each way to come to a part.
-/

namespace JavaSource

/-! ### Visitors -/

namespace Visitor

/-- The visited nodes, each in front of those of its parts. -/
def nodes : Visitor (List AnyNode) where
  start := []
  combine := (· ++ ·)
  hook v inner := v.node :: inner

theorem visitParts_append {α : Type} (visitor : Visitor α) (result : α) (vs ws : List View) :
    visitor.visitParts result (vs ++ ws) =
      visitor.visitParts (visitor.visitParts result vs) ws := by
  induction vs generalizing result with
  | nil => rfl
  | cons v vs ih => exact ih _

/-- A node is visited in front of its parts. -/
theorem visitParts_one {c : Category} {n : Node c} {slot : Slot} {parts : List View}
    {ns : List AnyNode} (before : List AnyNode) (h : nodes.visitParts [] parts = ns) :
    nodes.visitParts before [.mk slot n parts] = before ++ ⟨c, n⟩ :: ns := h ▸ rfl

/-- Parameters that may be left out. -/
theorem visitParts_unlessBare {n : Node .formalParameters}
    (h : ∀ slot before, nodes.visitParts before (n.views slot) = before ++ n.preorder false)
    (slot : Slot) (before : List AnyNode) :
    nodes.visitParts before (if n.isBare then [] else n.views slot) =
      before ++ if n.isBare then [] else n.preorder false := by
  split
  · exact (List.append_nil _).symm
  · exact h slot before

/-- A visitor comes to the nodes in a tree from left to right. -/
theorem nodes_views {c : Category} (n : Node c) (slot : Slot) (before : List AnyNode) :
    nodes.visitParts before (n.views slot) = before ++ n.preorder false := by
  induction n generalizing slot before with
  | nil | absent | noInit => exact (List.append_nil _).symm
  | cons head tail hhead htail =>
    refine (visitParts_append ..).trans ?_
    rw [hhead, htail, List.append_assoc]
    rfl
  | present inner ih | annotationModifier inner ih | valueElement inner ih | exprValue inner ih
  | annotationValue inner ih | exprItem inner ih | arrayInit inner ih | singleParam inner ih
  | nameParams inner ih | formalParams inner ih | exprBody inner ih | blockBody inner ih
  | typeTarget inner ih | patternTarget inner ih | exprReference inner ih | typeReference inner ih
  | blockStmt inner ih | localVariableStmt inner ih | exprCase inner ih | exprsInit inner ih
  | variablesInit inner ih | nameResource inner ih => exact ih slot before
  | methodDecl | constructorDecl =>
    refine visitParts_one before ?_
    simp only [visitParts_append, visitParts_unlessBare ‹_›, List.flatten_cons, List.flatten_nil,
      List.append_nil, List.nil_append, List.append_assoc, Bool.not_false, Bool.true_and, *]
  | _ =>
    refine visitParts_one before ?_
    first
      | rfl
      | simp only [visitParts_append, List.flatten_cons, List.flatten_nil, List.append_nil,
          List.nil_append, List.append_assoc, *]

end Visitor

/-! ### Transformers -/

namespace Node

variable {c : Category} {node field : String} {ns : Nodes c}

theorem isEmpty_of_lacking? (h : lacking? node field ns = none) : ns.isEmpty = false := by
  cases ns with
  | nil => cases h
  | cons => rfl

theorem isEmpty_of_orElse_left {e? : Option NodeError}
    (h : (lacking? node field ns <|> e?) = none) : ns.isEmpty = false := by
  cases ns with
  | nil => cases h
  | cons => rfl

theorem isEmpty_of_orElse_right {e? : Option NodeError}
    (h : (e? <|> lacking? node field ns) = none) : ns.isEmpty = false := by
  cases e? with
  | none => exact isEmpty_of_lacking? h
  | some => cases h

end Node

/-- Nodes that were come to, and what could go wrong. -/
abbrev Logged := StateT (List AnyNode) (Except NodeError)

/-- A computation comes to some nodes and to a result, if the nodes obey the rules. -/
def Logged.Lists {α : Type} (x : Logged α) (a : α) (ns : List AnyNode) : Prop :=
  (∀ y ∈ ns, y.node.flaw? = none) → ∀ log, x log = .ok (a, log ++ ns)

/-- Work on a node comes to some nodes and changes nothing, if the nodes obey the rules. -/
def Logged.Works {α : Type} (x : StateT Bool Logged α) (a : α) (ns : List AnyNode) : Prop :=
  ∀ changed, Lists (x changed) (a, changed) ns

namespace Transformer

/-- Lists every node that the hook of its kind is called on, and leaves all as it is. -/
def logging : Transformer Logged where
  family _ inner := inner
  kind n inner := do
    modify (· ++ [⟨_, n⟩])
    inner

end Transformer

namespace Logged

open Transformer

variable {α β : Type} {c d : Category} {ns ms : List AnyNode}

theorem Lists.pure (a : α) : Lists (Pure.pure a) a [] := fun _ log => by
  rw [List.append_nil]
  rfl

theorem Lists.bind {x : Logged α} {f : α → Logged β} {a : α} {b : β} (hx : Lists x a ns)
    (hf : Lists (f a) b ms) : Lists (x >>= f) b (ns ++ ms) := fun hvalid log => by
  obtain ⟨hns, hms⟩ := List.forall_mem_append.mp hvalid
  change (x log >>= fun r => f r.1 r.2) = _
  rw [hx hns log, ← List.append_assoc]
  exact hf hms _

theorem Lists.map {x : Logged α} {a : α} (f : α → β) (hx : Lists x a ns) :
    Lists (f <$> x) (f a) ns := fun hvalid log => by
  change (x log >>= fun r => Pure.pure (f r.1, r.2)) = _
  rw [hx hvalid log]
  rfl

theorem Lists.kind {n : Node c} {inner : Logged (Change c)} {change : Change c}
    (h : n.flaw? = none → Lists inner change ns) :
    Lists (logging.kind n inner) change (⟨c, n⟩ :: ns) := fun hvalid log => by
  obtain ⟨hn, hns⟩ := List.forall_mem_cons.mp hvalid
  change inner (log ++ [⟨c, n⟩]) = _
  rw [h hn hns, List.append_assoc, List.singleton_append]

theorem Lists.member {n : Node c} {inner : Logged (Change c)} {change : Change c}
    (h : n.flaw? = none → Lists inner change ns) :
    Lists (logging.member n inner) change (⟨c, n⟩ :: ns) := .kind h

theorem Works.pure (a : α) : Works (Pure.pure a) a [] := fun changed => .pure (a, changed)

theorem Works.bind {x : StateT Bool Logged α} {f : α → StateT Bool Logged β} {a : α} {b : β}
    (hx : Works x a ns) (hf : Works (f a) b ms) : Works (x >>= f) b (ns ++ ms) :=
  fun changed => by
    change Lists (x changed >>= fun r => f r.1 r.2) _ _
    exact (hx changed).bind (hf changed)

variable {node field : String} {n : Node d}

/-- Work that starts with a part comes to the nodes in it first. -/
theorem Works.part {old : Node c} {inner : Logged (Change c)}
    {f : Node c → StateT Bool Logged (Node d)} (h : Lists inner .keep ns)
    (hf : Works (f old) n ms) : Works (part node field old inner >>= f) n (ns ++ ms) := by
  refine Works.bind (fun changed hvalid log => ?_) hf
  change (inner log >>= _) >>= _ = _
  rw [h hvalid log]
  rfl

/-- A list of which one has to be left has one. -/
theorem Works.parts {old : Nodes c} {inner : Logged (Change (.list c))}
    {f : Nodes c → StateT Bool Logged (Node d)} (hne : old.isEmpty = false)
    (h : Lists inner .keep ns)
    (hf : Works (f old) n ms) : Works (parts node field old inner >>= f) n (ns ++ ms) := by
  refine Works.bind (fun changed hvalid log => ?_) hf
  change ((inner log >>= _) >>= _) >>= _ = _
  rw [h hvalid log]
  change (if old.isEmpty then throw _ else Pure.pure old : StateT Bool Logged _) changed _ = _
  rw [hne]
  rfl

theorem Works.recheck {n : Node c} (h : n.flaw? = none) : Works (recheck n) n [] := by
  rw [Transformer.recheck, h]
  exact .pure n

theorem Lists.rebuilt {work : StateT Bool Logged (Node c)} {n : Node c} (h : Works work n ns) :
    Lists (rebuilt work) .keep ns := fun hvalid log => by
  change (work false log >>= _) = _
  rw [h false hvalid log]
  rfl

end Logged

open Logged Node in
/-- **A transformer that leaves all as it is comes to the nodes in a tree from left to right.** -/
theorem Transformer.change_logging {c : Category} (n : Node c) :
    Lists (logging.change n) .keep (n.preorder true) := by
  induction n with
  | nil | absent | noInit => exact .pure _
  | cons head tail hhead htail =>
    have h : Lists (logging.change (.cons head tail)) .keep
        (head.preorder true ++ (tail.preorder true ++ [])) :=
      hhead.bind (htail.bind (.pure (Change.list head tail .keep .keep)))
    rw [List.append_nil] at h
    exact h
  | present _ ih | annotationModifier _ ih | valueElement _ ih | exprValue _ ih
  | annotationValue _ ih | exprItem _ ih | arrayInit _ ih | singleParam _ ih | nameParams _ ih
  | formalParams _ ih | exprBody _ ih | blockBody _ ih | typeTarget _ ih | patternTarget _ ih
  | exprReference _ ih | typeReference _ ih | blockStmt _ ih | localVariableStmt _ ih
  | exprCase _ ih | exprsInit _ ih | variablesInit _ ih | nameResource _ ih => exact ih.map _
  | identifier _ _ | literal _ _ | keywordModifier _ _ | binaryOperator _ | unaryOperator _
  | postOperator _ | assignOperator _ | defaultLabel _ => exact .kind fun _ => .pure _
  | qualifiedName _ _ ha | typeParameters _ _ ha =>
    exact .kind fun h => .rebuilt <| .parts (isEmpty_of_lacking? h) ha <| .pure _
  | annotationUse _ _ _ ha hb | elementValuePair _ _ _ ha hb | wildcardType _ _ _ ha hb
  | guardedPattern _ _ _ ha hb | dimExpr _ _ _ ha hb | switchRule _ _ _ _ _ ha hb
  | matchValue _ _ _ ha hb | variableDeclaratorId _ _ _ ha hb | variableDeclarator _ _ _ ha hb
  | receiverParameter _ _ _ ha hb | formalParameters _ _ _ ha hb | packageDecl _ _ _ ha hb
  | requiresDirective _ _ _ ha hb | exportsDirective _ _ _ ha hb | opensDirective _ _ _ ha hb
  | modularUnit _ _ _ ha hb => exact .kind fun _ => .rebuilt <| .part ha <| .part hb <| .pure _
  | elementValueArray _ _ ha | wordType _ _ _ ha | wildcardBound _ _ _ _ ha | dim _ _ ha
  | arrayInitializer _ _ ha | block _ _ ha | caseLabel _ _ ha | importDecl _ _ _ _ ha
  | usesDirective _ _ ha => exact .kind fun _ => .rebuilt <| .part ha <| .pure _
  | classType _ _ _ ha hb | typeBound _ _ _ ha hb | providesDirective _ _ _ ha hb =>
    exact .kind fun h => .rebuilt <| .part ha <| .parts (isEmpty_of_lacking? h) hb <| .pure _
  | arrayType _ _ _ _ ha hb hd | localVariables _ _ _ _ ha hb hd =>
    exact .kind fun h => .rebuilt <| .part ha <| .part hb <|
      .parts (isEmpty_of_lacking? h) hd <| .pure _
  | coit _ _ _ _ ha hb hd | typeParameter _ _ _ _ ha hb hd | switchBlock _ _ _ _ ha hb hd
  | resource _ _ _ _ ha hb hd | parameter _ _ _ _ ha hb hd | recordComponent _ _ _ _ _ ha hb hd
  | moduleDecl _ _ _ _ _ ha hb hd | ordinaryUnit _ _ _ _ ha hb hd =>
    exact .kind fun _ => .rebuilt <| .part ha <| .part hb <| .part hd <| .pure _
  | pattern _ _ _ _ _ ha hb hd he | variableArityParameter _ _ _ _ _ ha hb hd he
  | enumConstant _ _ _ _ _ ha hb hd he =>
    exact .kind fun _ => .rebuilt <| .part ha <| .part hb <| .part hd <| .part he <| .pure _
  | name _ _ ha | constant _ _ ha | thisExpr _ _ ha | classExpr _ _ ha | localTypeStmt _ _ ha
  | exprStmt _ _ ha | breakStmt _ _ ha | continueStmt _ _ ha | returnStmt _ _ ha
  | throwStmt _ _ ha | yieldStmt _ _ ha | initializerDecl _ _ _ ha =>
    exact .member fun _ => .rebuilt <| .part ha <| .pure _
  | superExpr _ _ _ _ ha hb hd | assignment _ _ _ _ ha hb hd | conditional _ _ _ _ ha hb hd
  | binary _ _ _ _ ha hb hd | cast _ _ _ _ ha hb hd | reference _ _ _ _ _ ha hb hd
  | ifStmt _ _ _ _ ha hb hd | compactConstructorDecl _ _ _ _ ha hb hd
  | annotationDecl _ _ _ _ ha hb hd =>
    exact .member fun _ => .rebuilt <| .part ha <| .part hb <| .part hd <| .pure _
  | lambda _ _ _ ha hb | instanceOf _ _ _ ha hb | unary _ _ _ ha hb | post _ _ _ ha hb
  | switchExpr _ _ _ ha hb | call _ _ _ ha hb | member _ _ _ ha hb | index _ _ _ ha hb
  | genericCall _ _ _ ha hb | labeledStmt _ _ _ ha hb | assertStmt _ _ _ ha hb
  | switchStmt _ _ _ ha hb | whileStmt _ _ _ ha hb | doWhileStmt _ _ _ ha hb
  | synchronizedStmt _ _ _ ha hb =>
    exact .member fun _ => .rebuilt <| .part ha <| .part hb <| .pure _
  | newObject _ _ _ _ _ ha hb hd he | newArray _ _ _ _ _ ha hb hd he
  | forStmt _ _ _ _ _ ha hb hd he | elementDecl _ _ _ _ _ ha hb hd he =>
    exact .member fun _ => .rebuilt <| .part ha <| .part hb <| .part hd <| .part he <| .pure _
  | newInner _ _ _ _ _ _ ha hb hd he hf | forEachStmt _ _ _ _ _ _ ha hb hd he hf
  | enumDecl _ _ _ _ _ _ ha hb hd he hf =>
    exact .member fun _ => .rebuilt <| .part ha <| .part hb <| .part hd <| .part he <|
      .part hf <| .pure _
  | emptyStmt _ | emptyDecl _ => exact .member fun _ => .pure _
  | tryResourcesStmt _ _ _ _ _ ha hb hd he =>
    exact .member fun h => .rebuilt <| .parts (isEmpty_of_lacking? h) ha <| .part hb <|
      .part hd <| .part he <| .pure _
  | switchGroup _ _ _ ha hb =>
    exact .kind fun h => .rebuilt <| .parts (isEmpty_of_orElse_left h) ha <|
      .parts (isEmpty_of_orElse_right h) hb <| .pure _
  | catchClause _ _ _ _ _ ha hb hd he =>
    exact .kind fun h => .rebuilt <| .part ha <| .parts (isEmpty_of_lacking? h) hb <|
      .part hd <| .part he <| .pure _
  | fieldDecl _ _ _ _ ha hb hd =>
    exact .member fun h => .rebuilt <| .part ha <| .part hb <|
      .parts (isEmpty_of_orElse_right h) hd <| .pure _
  | methodDecl _ _ _ _ _ _ _ _ _ _ ha hb hd he hf hg hh hi hj =>
    exact .member fun _ => .rebuilt <| .part ha <| .part hb <| .part hd <| .part he <|
      .part hf <| .part hg <| .part hh <| .part hi <| .part hj <| .pure _
  | constructorDecl _ _ _ _ _ _ _ ha hb hd he hf hg
  | interfaceDecl _ _ _ _ _ _ _ ha hb hd he hf hg | recordDecl _ _ _ _ _ _ _ ha hb hd he hf hg =>
    exact .member fun _ => .rebuilt <| .part ha <| .part hb <| .part hd <| .part he <|
      .part hf <| .part hg <| .pure _
  | classDecl _ _ _ _ _ _ _ _ ha hb hd he hf hg hh =>
    exact .member fun _ => .rebuilt <| .part ha <| .part hb <| .part hd <| .part he <|
      .part hf <| .part hg <| .part hh <| .pure _
  | typeArguments _ types ha =>
    cases types with
    | nil => exact .kind fun _ => .rebuilt <| .pure _
    | cons => exact .kind fun _ => .rebuilt <| .parts rfl ha (.pure _)
  | tryStmt _ _ _ _ ha hb hd =>
    exact .member fun h => .rebuilt <| .part ha <| .part hb <| .part hd <| .recheck h

/-! ### The two orders -/

namespace Node

/-- What has a kind is seen as one node. -/
theorem views_of_kind? {c : Category} (n : Node c) (h : n.kind?.isSome) (slot : Slot) :
    ∃ v, n.views slot = [v] := by
  induction n generalizing slot with
  | nil | cons | absent | present | noInit | exprsInit | nameParams => cases h
  | annotationModifier _ ih | valueElement _ ih | exprValue _ ih | annotationValue _ ih
  | exprItem _ ih | arrayInit _ ih | singleParam _ ih | formalParams _ ih | exprBody _ ih
  | blockBody _ ih | typeTarget _ ih | patternTarget _ ih | exprReference _ ih
  | typeReference _ ih | blockStmt _ ih | localVariableStmt _ ih | exprCase _ ih
  | variablesInit _ ih | nameResource _ ih => exact ih h slot
  | _ => exact ⟨_, rfl⟩

theorem visitNode_nodes {c : Category} (n : Node c) (h : n.kind?.isSome) :
    Visitor.nodes.visitNode n = n.preorder false := by
  obtain ⟨v, hv⟩ := n.views_of_kind? h .root
  have hnodes := Visitor.nodes_views n .root []
  rw [hv] at hnodes
  rw [Visitor.visitNode, view?, hv]
  exact hnodes

/-- **Visitors and transformers come to the same nodes in the same order, up to empty parameter
lists.**  A transformer comes to every node of a valid tree once, itself first and then its parts
from left to right.  A visitor comes to the same nodes in the same order, without the parameters of
methods and constructors that have none. -/
theorem traversals_agree {c : Category} (n : Node c) (hvalid : n.Valid) (h : n.kind?.isSome) :
    Transformer.logging.transform n [] = .ok (n, n.preorder true) ∧
      Visitor.nodes.visitNode n = n.preorder false ∧
      Bared (n.preorder false) (n.preorder true) := by
  refine ⟨?_, n.visitNode_nodes h, n.preorder_bared⟩
  change (Transformer.logging.change n [] >>= _) = _
  rw [Transformer.change_logging n hvalid []]
  rfl

/-- A method without parameters: `void f() {\x7d`. -/
def bareMethod : Node .decl :=
  .methodDecl none .nil .absent .nil (.wordType none .nil .void) (.identifier none "f")
    (.formalParameters none .absent .nil) .nil .nil (.present (.block none .nil))

theorem valid_bareMethod : bareMethod.Valid := by decide

theorem traversals_agree_bareMethod :
    bareMethod.Valid ∧ bareMethod.kind?.isSome ∧
      Transformer.logging.transform bareMethod [] = .ok (bareMethod, bareMethod.preorder true) ∧
      Visitor.nodes.visitNode bareMethod = bareMethod.preorder false ∧
      Bared (bareMethod.preorder false) (bareMethod.preorder true) :=
  ⟨valid_bareMethod, rfl, bareMethod.traversals_agree valid_bareMethod rfl⟩

/-- A visitor does not come to the parameters of a method without parameters. -/
theorem visitNode_ne_transform : ¬ ∀ {c : Category} (n : Node c), n.Valid → n.kind?.isSome →
    Transformer.logging.transform n [] = .ok (n, Visitor.nodes.visitNode n) := by
  intro h
  have hvisits := h bareMethod valid_bareMethod rfl
  have hchanges : Transformer.logging.transform bareMethod [] =
      .ok (bareMethod, bareMethod.preorder true) := rfl
  have hsame : bareMethod.preorder true = Visitor.nodes.visitNode bareMethod := by
    injection hchanges.symm.trans hvisits with hpair
    exact congrArg Prod.snd hpair
  exact absurd (congrArg List.length hsame) (by decide)

end Node

end JavaSource
