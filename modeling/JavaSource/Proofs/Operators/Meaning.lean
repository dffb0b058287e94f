import JavaSource.Proofs.Layout
import JavaSource.Proofs.Operators.Tree
import JavaSource.Proofs.Reading.Trees

/-!
# What the parse tree of an operator tree means

The parse tree of an operator tree stands nowhere, so all spans read off it are the same
(`Spans.nowhere`).  Reading it gives the node of the operator tree (`OpTree.read_tree`).
-/

namespace JavaSource

open Text (Span)

/-- The span of what does not stand anywhere. -/
def noSpan : Span := Token.span ⟨.eof, "", default, default⟩

/-- The spans of what does not stand anywhere. -/
def Spans.nowhere : Spans := fun _ => some noSpan

theorem Tree.span_of_unplaced {t : Tree} (h : t.unplaced = t) : t.span = noSpan := by
  rw [span, ← h, start_unplaced, stop_unplaced]
  rfl

theorem Tree.span_opened {t : Tree} (h : t.unplaced = t) : t.opened.span = some noSpan := by
  rw [Opened.span, tree_opened, span_of_unplaced h]

theorem Phrase.unplaced_over (kind : Phrase) (ts : List Tree) :
    (kind.over ts).unplaced = kind.over (ts.map Tree.unplaced) := by
  rw [Phrase.over, Tree.ofParts_unplaced]
  rfl

theorem TokenKind.unplaced_leaf (kind : TokenKind) : kind.leaf.unplaced = kind.leaf := rfl

theorem LegalName.unplaced_leaf (n : LegalName) : n.leaf.unplaced = n.leaf := rfl

mutual

theorem OpTree.unplaced_tree : (t : OpTree) → t.tree.unplaced = t.tree
  | .head h => h.unplaced_tree
  | .paren inner => by
    simp only [OpTree.tree, Phrase.unplaced_over, List.map_cons, List.map_nil,
      TokenKind.unplaced_leaf, inner.unplaced_tree]
  | .binary op left right => by
    simp only [OpTree.tree, Phrase.unplaced_over, List.map_cons, List.map_nil,
      TokenKind.unplaced_leaf, left.unplaced_tree, right.unplaced_tree]
  | .unary op operand => by
    simp only [OpTree.tree, Phrase.unplaced_over, List.map_cons, List.map_nil,
      TokenKind.unplaced_leaf, operand.unplaced_tree]
  | .post op operand => by
    simp only [OpTree.tree, Phrase.unplaced_over, List.map_cons, List.map_nil,
      TokenKind.unplaced_leaf, operand.unplaced_tree]
  | .conditional test body orelse => by
    simp only [OpTree.tree, Phrase.unplaced_over, List.map_cons, List.map_nil,
      TokenKind.unplaced_leaf, test.unplaced_tree, body.unplaced_tree, orelse.unplaced_tree]
  | .assignment op target value => by
    simp only [OpTree.tree, Phrase.unplaced_over, List.map_cons, List.map_nil,
      TokenKind.unplaced_leaf, target.unplaced_tree, value.unplaced_tree]
  | .index receiver inner => by
    simp only [OpTree.tree, Phrase.unplaced_over, List.map_cons, List.map_nil,
      TokenKind.unplaced_leaf, receiver.unplaced_tree, inner.unplaced_tree]
  | .member receiver selected => by
    simp only [OpTree.tree, Phrase.unplaced_over, List.map_cons, List.map_nil,
      TokenKind.unplaced_leaf, receiver.unplaced_tree, selected.unplaced_tree]

theorem OpHead.unplaced_tree : (h : OpHead) → h.tree.unplaced = h.tree
  | .name _ => rfl
  | .call n args => by
    have hargs := args.unplaced_trees [] rfl
    simp only [OpHead.tree, Phrase.unplaced_over, List.map_cons, List.map_nil, List.map_append,
      TokenKind.unplaced_leaf, LegalName.unplaced_leaf, hargs]

theorem OpTrees.unplaced_trees : (ts : OpTrees) → (lead : List Tree) →
    lead.map Tree.unplaced = lead → (ts.trees lead).map Tree.unplaced = ts.trees lead
  | .nil, _, _ => rfl
  | .cons first others, lead, hlead => by
    have hothers := others.unplaced_trees [TokenKind.comma.leaf] rfl
    simp only [OpTrees.trees, List.map_append, List.map_cons, hlead, first.unplaced_tree, hothers]

end

theorem OpTree.span_opened (t : OpTree) : t.tree.opened.span = some noSpan :=
  Tree.span_opened t.unplaced_tree

/-! ### Parts -/

@[simp] theorem TokenKind.phrase?_leaf (kind : TokenKind) : kind.leaf.phrase? = none := rfl

@[simp] theorem TokenKind.token?_leaf (kind : TokenKind) :
    kind.leaf.token? = some kind.symbol.token := rfl

@[simp] theorem OpHead.isSome_phrase? (h : OpHead) : h.tree.phrase?.isSome = true := by
  cases h <;> rfl

@[simp] theorem OpTree.isSome_phrase? (t : OpTree) : t.tree.phrase?.isSome = true := by
  cases t with
  | head h => exact h.isSome_phrase?
  | _ => rfl

theorem Tree.token?_of_phrase? {t : Tree} (h : t.phrase?.isSome = true) : t.token? = none := by
  cases t with
  | leaf t => cases h
  | node => rfl

@[simp] theorem OpTree.token?_tree (t : OpTree) : t.tree.token? = none :=
  Tree.token?_of_phrase? t.isSome_phrase?

@[simp] theorem Phrase.phrases_over (kind : Phrase) (ts : List Tree) :
    (kind.over ts).phrases = ts.filter (·.phrase?.isSome) := rfl

@[simp] theorem Phrase.tokens_over (kind : Phrase) (ts : List Tree) :
    (kind.over ts).tokens = ts.filterMap Tree.token? := rfl

/-! ### Reading -/

/-- The node that the parse tree of an operator tree is read as. -/
abbrev OpTree.meaning (t : OpTree) : Expr := t.node .nowhere

namespace OpTree

variable {t : OpTree}

/-- Where a part is an operator tree, its meaning is read. -/
theorem readNth_opened {outer : Tree} {i : Nat} (ht : t.tree.read .expr = .ok t.meaning)
    (h : outer.phrases[i]? = some t.tree) : outer.opened.readNth i .expr = .ok t.meaning :=
  (Tree.readNth_opened h).trans ht

theorem read_paren {inner : OpTree} (h : inner.tree.read .expr = .ok inner.meaning) :
    (paren inner).tree.read .expr = .ok (paren inner).meaning := by
  rw [Tree.read_eq]
  exact readNth_opened (t := inner) h (by simp [tree])

theorem read_unary {op : UnaryOp} {operand : OpTree}
    (h : operand.tree.read .expr = .ok operand.meaning) :
    (unary op operand).tree.read .expr = .ok (unary op operand).meaning := by
  let outer := (unary op operand).tree
  have hop : outer.opened.operator .before UnaryOp.ofText? = .ok op :=
    Tree.operator_opened op.kind.symbol.token (by simp [outer, tree])
      (by cases op <;> rfl)
  have hoperand : outer.opened.readNth 0 .expr = .ok operand.meaning :=
    readNth_opened h (by simp [outer, tree])
  rw [Tree.read_eq]
  change (do
    let op ← outer.opened.operator .before UnaryOp.ofText?
    return Node.unary outer.opened.span (.unaryOperator op) (← outer.opened.readNth 0 .expr) :
      Reading .expr) = _
  rw [hop, hoperand, (unary op operand).span_opened]
  rfl

theorem read_post {op : PostOp} {operand : OpTree}
    (h : operand.tree.read .expr = .ok operand.meaning) :
    (post op operand).tree.read .expr = .ok (post op operand).meaning := by
  let outer := (post op operand).tree
  have hop : outer.opened.operator .behind PostOp.ofText? = .ok op :=
    Tree.operator_opened op.kind.symbol.token (by simp [outer, tree])
      (by cases op <;> rfl)
  have hoperand : outer.opened.readNth 0 .expr = .ok operand.meaning :=
    readNth_opened h (by simp [outer, tree])
  rw [Tree.read_eq]
  change (do
    let op ← outer.opened.operator .behind PostOp.ofText?
    return Node.post outer.opened.span (← outer.opened.readNth 0 .expr) (.postOperator op) :
      Reading .expr) = _
  rw [hop, hoperand, (post op operand).span_opened]
  rfl

theorem read_conditional {test body orelse : OpTree}
    (htest : test.tree.read .expr = .ok test.meaning)
    (hbody : body.tree.read .expr = .ok body.meaning)
    (horelse : orelse.tree.read .expr = .ok orelse.meaning) :
    (conditional test body orelse).tree.read .expr =
      .ok (conditional test body orelse).meaning := by
  let outer := (conditional test body orelse).tree
  have htest : outer.opened.readNth 0 .expr = .ok test.meaning :=
    readNth_opened htest (by simp [outer, tree])
  have hbody : outer.opened.readNth 1 .expr = .ok body.meaning :=
    readNth_opened hbody (by simp [outer, tree])
  have horelse : outer.opened.readNth 2 .expr = .ok orelse.meaning :=
    readNth_opened horelse (by simp [outer, tree])
  rw [Tree.read_eq]
  change (do
    let test ← outer.opened.readNth 0 .expr
    let body ← outer.opened.readNth 1 .expr
    return Node.conditional outer.opened.span test body (← outer.opened.readNth 2 .expr) :
      Reading .expr) = _
  rw [htest, hbody, horelse, (conditional test body orelse).span_opened]
  rfl

theorem read_assignment {op : Option AssignOp} {target value : OpTree}
    (htarget : target.tree.read .expr = .ok target.meaning)
    (hvalue : value.tree.read .expr = .ok value.meaning) :
    (assignment op target value).tree.read .expr = .ok (assignment op target value).meaning := by
  let outer := (assignment op target value).tree
  have htarget : outer.opened.readNth 0 .expr = .ok target.meaning :=
    readNth_opened htarget (by simp [outer, tree])
  have hvalue : outer.opened.readNth 1 .expr = .ok value.meaning :=
    readNth_opened hvalue (by simp [outer, tree])
  have hhead : outer.tokens.head? = some (op.elim TokenKind.assign AssignOp.kind).symbol.token := by
    simp [outer, tree]
  have hspan := (assignment op target value).span_opened
  have hread : outer.read .expr = outer.opened.assignment := Tree.read_eq _ _
  rw [hread, Opened.assignment, Tree.token_opened hhead]
  cases op with
  | none =>
    change (do
      let target ← outer.opened.readNth 0 .expr
      return Node.assignment outer.opened.span target .absent (← outer.opened.readNth 1 .expr) :
        Reading .expr) = _
    rw [htarget, hvalue, hspan]
    rfl
  | some op =>
    have hop : outer.opened.operator .inAssignment AssignOp.ofText? = .ok op :=
      Tree.operator_opened _ hhead (by cases op <;> rfl)
    have hkind : (op.kind == .assign) = false := by cases op <;> rfl
    change (if (op.kind == .assign) = true then _ else _ : Reading .expr) = _
    rw [hkind]
    change (do
      let op ← outer.opened.operator .inAssignment AssignOp.ofText?
      let target ← outer.opened.readNth 0 .expr
      return Node.assignment outer.opened.span target (.present (.assignOperator op))
        (← outer.opened.readNth 1 .expr) : Reading .expr) = _
    rw [hop, htarget, hvalue, hspan]
    rfl

/-- A link of a chain, read when its left side is. -/
theorem read_link {kind : Phrase} {left : OpTree} {ts : List Tree}
    (hchain : Opened.isChain kind = true) (hleft : left.tree.read .expr = .ok left.meaning)
    (htree : t.tree = kind.over (left.tree :: ts))
    (hextend : t.tree.opened.extend left.meaning = .ok t.meaning) :
    t.tree.read .expr = .ok t.meaning := by
  have hphrase : t.tree.phrase? = some kind := by rw [htree]; rfl
  have hparts : t.tree.parts = left.tree :: ts := by rw [htree]; rfl
  rw [Tree.read_of_isChain (by rw [hphrase]; exact hchain), hparts, Opened.left,
    if_pos left.isSome_phrase?, hleft]
  exact hextend

theorem read_binary {op : BinaryOp} {left right : OpTree}
    (hleft : left.tree.read .expr = .ok left.meaning)
    (hright : right.tree.read .expr = .ok right.meaning) :
    (binary op left right).tree.read .expr = .ok (binary op left right).meaning := by
  refine read_link (by cases op <;> rfl) hleft rfl ?_
  let outer := (binary op left right).tree
  have hop : outer.opened.operator .between BinaryOp.ofText? = .ok op :=
    Tree.operator_opened op.kind.symbol.token (by simp [outer, tree])
      (by cases op <;> rfl)
  have hright : outer.opened.readNth 1 .expr = .ok right.meaning :=
    readNth_opened hright (by simp [outer, tree])
  have hextend (left : Expr) : outer.opened.extend left = (do
      let right ← outer.opened.readNth 1 .expr
      return Node.binary outer.opened.span left
        (.binaryOperator (← outer.opened.operator .between BinaryOp.ofText?)) right :
        Reading .expr) := by
    cases op <;> rfl
  rw [hextend, hright, hop, (binary op left right).span_opened]
  rfl

theorem read_index {receiver inner : OpTree}
    (hreceiver : receiver.tree.read .expr = .ok receiver.meaning)
    (hinner : inner.tree.read .expr = .ok inner.meaning) :
    (index receiver inner).tree.read .expr = .ok (index receiver inner).meaning := by
  refine read_link rfl hreceiver rfl ?_
  let outer := (index receiver inner).tree
  have hinner : outer.opened.readNth 1 .expr = .ok inner.meaning :=
    readNth_opened hinner (by simp [outer, tree])
  change (do
    let right ← outer.opened.readNth 1 .expr
    return Node.index outer.opened.span receiver.meaning right : Reading .expr) = _
  rw [hinner, (index receiver inner).span_opened]
  rfl

theorem read_member {receiver : OpTree} {selected : OpHead}
    (hreceiver : receiver.tree.read .expr = .ok receiver.meaning)
    (hselected : (head selected).tree.read .expr = .ok (head selected).meaning) :
    (member receiver selected).tree.read .expr = .ok (member receiver selected).meaning := by
  refine read_link rfl hreceiver rfl ?_
  let outer := (member receiver selected).tree
  have hselected : outer.opened.readNth 1 .expr = .ok (head selected).meaning :=
    readNth_opened hselected (by simp [outer, tree])
  change (do
    let right ← outer.opened.readNth 1 .expr
    return Node.member outer.opened.span receiver.meaning right : Reading .expr) = _
  rw [hselected, (member receiver selected).span_opened]
  rfl

theorem read_plainName (name : LegalName) :
    (head (.name name)).tree.read .expr = .ok (head (.name name)).meaning := by
  let outer := (head (.name name)).tree
  have htoken : outer.opened.token = .ok name.symbol.token := Tree.token_opened rfl
  rw [Tree.read_eq]
  change (do
    return Node.name outer.opened.span (← outer.opened.token).identifier : Reading .expr) = _
  rw [htoken, (head (.name name)).span_opened]
  rfl

/-- A call, read when its arguments are. -/
theorem read_call {name : LegalName} {args : OpTrees} {nodes : List Expr}
    (hargs : ((args.trees []).filter (·.phrase?.isSome)).mapM (Tree.read · .expr) = .ok nodes)
    (hnodes : Node.ofList nodes = args.node .nowhere) :
    (head (.call name args)).tree.read .expr = .ok (head (.call name args)).meaning := by
  let outer := (head (.call name args)).tree
  let inner := Phrase.arguments.over
    (TokenKind.lparen.leaf :: args.trees [] ++ [TokenKind.rparen.leaf])
  have htoken : outer.opened.token = .ok name.symbol.token := Tree.token_opened rfl
  have hall : outer.opened.readFirst .arguments .exprs = .ok (args.node .nowhere) := by
    have hphrases : inner.phrases = (args.trees []).filter (·.phrase?.isSome) := by simp [inner]
    rw [Tree.readFirst_opened (p := inner) rfl, Tree.read_exprs, hphrases, hargs, ← hnodes]
    rfl
  have hread : outer.read .expr = outer.opened.methodCall := Tree.read_eq _ _
  rw [hread, Opened.methodCall, htoken]
  change (do
    return Node.call outer.opened.span (name.node .nowhere)
      (← outer.opened.readFirst .arguments .exprs) : Reading .expr) = _
  rw [hall, (head (.call name args)).span_opened]
  rfl

end OpTree

mutual

/-- **The parse tree of an operator tree is read as its node.** -/
theorem OpTree.read_tree : (t : OpTree) → t.tree.read .expr = .ok t.meaning
  | .head h => h.read_tree
  | .paren inner => OpTree.read_paren inner.read_tree
  | .binary _ left right => OpTree.read_binary left.read_tree right.read_tree
  | .unary _ operand => OpTree.read_unary operand.read_tree
  | .post _ operand => OpTree.read_post operand.read_tree
  | .conditional test body orelse =>
    OpTree.read_conditional test.read_tree body.read_tree orelse.read_tree
  | .assignment _ target value => OpTree.read_assignment target.read_tree value.read_tree
  | .index receiver inner => OpTree.read_index receiver.read_tree inner.read_tree
  | .member receiver selected => OpTree.read_member receiver.read_tree selected.read_tree

theorem OpHead.read_tree :
    (h : OpHead) → (OpTree.head h).tree.read .expr = .ok (OpTree.head h).meaning
  | .name n => OpTree.read_plainName n
  | .call _ args => by
    obtain ⟨nodes, hread, hnodes⟩ := args.read_trees [] rfl
    exact OpTree.read_call hread hnodes

/-- The phrases among several expressions are read as their nodes. -/
theorem OpTrees.read_trees : (ts : OpTrees) → (lead : List Tree) →
    lead.filter (·.phrase?.isSome) = [] → ∃ nodes,
      ((ts.trees lead).filter (·.phrase?.isSome)).mapM (Tree.read · .expr) = .ok nodes ∧
        Node.ofList nodes = ts.node .nowhere
  | .nil, _, _ => ⟨[], rfl, rfl⟩
  | .cons first others, lead, hlead => by
    obtain ⟨nodes, hread, hnodes⟩ := others.read_trees [TokenKind.comma.leaf] rfl
    refine ⟨first.meaning :: nodes, ?_, congrArg (Node.cons first.meaning) hnodes⟩
    simp only [OpTrees.trees, List.filter_append, hlead, List.nil_append, List.filter_cons,
      first.isSome_phrase?, if_true, List.mapM_cons, first.read_tree, hread]
    rfl

end

end JavaSource
