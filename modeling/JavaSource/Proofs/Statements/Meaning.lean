import JavaSource.Proofs.Operators.Grouping
import JavaSource.Proofs.Operators.Meaning
import JavaSource.Proofs.Statements.Tree
import JavaSource.Proofs.Types.Meaning

/-!
# What the parse tree of a statement means

As the one of an operator tree, the parse tree of a statement stands nowhere.  Reading it gives the
node of the statement (`StmtTree.read_tree`).
-/

namespace JavaSource

mutual

theorem StmtTree.unplaced_tree : (s : StmtTree) → s.tree.unplaced = s.tree
  | .empty => rfl
  | .block body => by
    simp only [StmtTree.tree, Phrase.unplaced_over, List.map_cons, List.map_append, List.map_nil,
      TokenKind.unplaced_leaf, body.unplaced_trees]
  | .ifThen test body => by
    simp only [StmtTree.tree, OpTree.conditionParts, Phrase.unplaced_over, List.map_cons,
      List.map_append, List.map_nil, TokenKind.unplaced_leaf, OpTree.unplaced_tree,
      body.unplaced_tree]
  | .ifElse test body orelse => by
    simp only [StmtTree.tree, OpTree.conditionParts, Phrase.unplaced_over, List.map_cons,
      List.map_append, List.map_nil, TokenKind.unplaced_leaf, OpTree.unplaced_tree,
      body.unplaced_tree, orelse.unplaced_tree]
  | .whileLoop test body => by
    simp only [StmtTree.tree, OpTree.conditionParts, Phrase.unplaced_over, List.map_cons,
      List.map_append, List.map_nil, TokenKind.unplaced_leaf, OpTree.unplaced_tree,
      body.unplaced_tree]
  | .doWhile body test => by
    simp only [StmtTree.tree, OpTree.conditionParts, Phrase.unplaced_over, List.map_cons,
      List.map_append, List.map_nil, TokenKind.unplaced_leaf, OpTree.unplaced_tree,
      body.unplaced_tree]
  | .forLoop test update body => by
    have hupdate : update.updateParts.map Tree.unplaced = update.updateParts := by
      cases update with
      | nil => rfl
      | cons => simp only [OpTrees.updateParts, List.map_cons, List.map_nil, Phrase.unplaced_over,
          OpTrees.unplaced_trees _ [] rfl]
    cases test <;>
      simp only [StmtTree.tree, Phrase.unplaced_over, List.map_cons, List.map_append, List.map_nil,
        Option.toList_none, Option.toList_some, TokenKind.unplaced_leaf, OpTree.unplaced_tree,
        hupdate, body.unplaced_tree]
  | .forEach ty id _ iter body => by
    have hty : ty.typeTree.unplaced = ty.typeTree := rfl
    have hid : id.variableTree.unplaced = id.variableTree := rfl
    simp only [StmtTree.tree, Phrase.unplaced_over, List.map_cons, List.map_nil,
      TokenKind.unplaced_leaf, OpTree.unplaced_tree, hty, hid, body.unplaced_tree]
  | .labeled label body => by
    simp only [StmtTree.tree, Phrase.unplaced_over, List.map_cons, List.map_nil,
      TokenKind.unplaced_leaf, LegalName.unplaced_leaf, body.unplaced_tree]
  | .jump _ none => rfl
  | .jump _ (some _) => rfl
  | .call func _ args => by
    simp only [StmtTree.tree, Phrase.unplaced_over, List.map_cons, List.map_nil,
      TokenKind.unplaced_leaf, OpHead.unplaced_tree]

theorem StmtTrees.unplaced_trees : (ss : StmtTrees) → ss.trees.map Tree.unplaced = ss.trees
  | .nil => rfl
  | .cons first others => by
    rw [StmtTrees.trees, List.map_cons, first.unplaced_tree, others.unplaced_trees]

end

theorem StmtTree.span_opened (s : StmtTree) : s.tree.opened.span = some noSpan :=
  Tree.span_opened s.unplaced_tree

/-! ### Parts -/

@[simp] theorem StmtTree.isSome_phrase? (s : StmtTree) : s.tree.phrase?.isSome = true := by
  cases s <;> rfl

@[simp] theorem StmtTree.token?_tree (s : StmtTree) : s.tree.token? = none :=
  Tree.token?_of_phrase? s.isSome_phrase?

@[simp] theorem LegalName.phrase?_leaf (n : LegalName) : n.leaf.phrase? = none := rfl

@[simp] theorem LegalName.token?_leaf (n : LegalName) : n.leaf.token? = some n.symbol.token := rfl

@[simp] theorem Phrase.parts_over (kind : Phrase) (ts : List Tree) :
    (kind.over ts).parts = ts := rfl

@[simp] theorem Phrase.phrase?_over (kind : Phrase) (ts : List Tree) :
    (kind.over ts).phrase? = some kind := rfl

/-- The parse tree of an expression is neither modifiers nor the body of a switch. -/
theorem OpTree.phrase?_tree (t : OpTree) {kind : Phrase}
    (hkind : kind ∈ [Phrase.modifiers, .switchBlock]) : (t.tree.phrase? == some kind) = false := by
  refine beq_eq_false_iff_ne.mpr fun heq => ?_
  have hmem : ∀ kind, t.tree.phrase? = some kind → kind ∉ [Phrase.modifiers, .switchBlock] := by
    cases t with
    | head inner => cases inner <;> (rintro _ ⟨⟩; decide)
    | binary op => cases op <;> (rintro _ ⟨⟩; decide)
    | _ => rintro _ ⟨⟩; decide
  exact hmem kind heq hkind

/-- The parse tree of a statement is no phrase of another kind. -/
theorem StmtTree.phrase?_tree (s : StmtTree) {kind : Phrase}
    (hkind : Tree.isStatement kind = false) : (s.tree.phrase? == some kind) = false := by
  refine beq_eq_false_iff_ne.mpr fun heq => ?_
  have hstatement : s.tree.phrase?.any Tree.isStatement = true := by
    cases s with
    | jump kind => cases kind <;> rfl
    | _ => rfl
  rw [heq, Option.any_some, hkind] at hstatement
  cases hstatement

theorem StmtTrees.filter_trees : (ss : StmtTrees) →
    ss.trees.filter (·.phrase?.isSome) = ss.trees
  | .nil => rfl
  | .cons first others => by
    rw [StmtTrees.trees, List.filter_cons, if_pos first.isSome_phrase?, others.filter_trees]

theorem StmtTrees.phrase?_trees {kind : Phrase} (hkind : Tree.isStatement kind = false) :
    (ss : StmtTrees) → ∀ t ∈ ss.trees, (t.phrase? == some kind) = false
  | .nil => List.forall_mem_nil _
  | .cons first others =>
    List.forall_mem_cons.mpr ⟨first.phrase?_tree hkind, others.phrase?_trees hkind⟩

/-- An operand in its place is read as what it means. -/
theorem OpTree.read_grouped (t : OpTree) : t.grouped.tree.read .expr = .ok t.meaning := by
  rw [t.grouped.read_tree, meaning, t.node_grouped, meaning]

/-- The node that the parse tree of a statement is read as. -/
abbrev StmtTree.meaning (s : StmtTree) : Stmt := s.node .nowhere

/-! ### Reading -/

namespace StmtTree

variable {body : StmtTree}

theorem read_empty : empty.tree.read .stmt = .ok empty.meaning := by
  rw [Tree.read_eq]
  change (return Node.emptyStmt empty.tree.opened.span : Reading .stmt) = _
  rw [span_opened]
  rfl

theorem read_block {body : StmtTrees} {nodes : List Stmt}
    (hbody : body.trees.mapM (Tree.read · .stmt) = .ok nodes)
    (hphrases : body.trees.filter (·.phrase?.isSome) = body.trees)
    (hnodes : Node.ofList nodes = body.node .nowhere) :
    (block body).tree.read .stmt = .ok (block body).meaning := by
  let outer := (block body).tree
  have hphrases : outer.phrases = body.trees := by simp [outer, tree, hphrases]
  have hall : Part.readAll .stmt outer.opened.phrases = .ok (body.node .nowhere) := by
    rw [Part.readAll, Tree.phrases_opened, hphrases, List.mapM_map]
    change Node.ofList <$> body.trees.mapM (Tree.read · .stmt) = _
    rw [hbody, ← hnodes]
    rfl
  rw [Tree.read_eq]
  change Node.blockStmt <$> (Node.block outer.opened.span <$>
    Part.readAll .stmt outer.opened.phrases) = _
  rw [hall, span_opened]
  rfl

theorem read_ifThen {test : OpTree} (hbody : body.tree.read .stmt = .ok body.meaning) :
    (ifThen test body).tree.read .stmt = .ok (ifThen test body).meaning := by
  let outer := (ifThen test body).tree
  have htest : outer.opened.readNth 0 .expr = .ok test.meaning :=
    (Tree.readNth_opened (by simp [outer, tree, OpTree.conditionParts])).trans test.read_grouped
  have hbody : outer.opened.readNth 1 .stmt = .ok body.meaning :=
    (Tree.readNth_opened (by simp [outer, tree, OpTree.conditionParts])).trans hbody
  have hnone : outer.opened.phrases[2]? = none := by
    simp [outer, Tree.phrases_opened, tree, OpTree.conditionParts]
  rw [Tree.read_eq]
  change (do
    let test ← outer.opened.readNth 0 .expr
    let body ← outer.opened.readNth 1 .stmt
    return Node.ifStmt outer.opened.span test body
      (← Part.readOption .stmt outer.opened.phrases[2]?) : Reading .stmt) = _
  rw [htest, hbody, hnone, span_opened]
  rfl

theorem read_ifElse {test : OpTree} {orelse : StmtTree}
    (hbody : body.tree.read .stmt = .ok body.meaning)
    (horelse : orelse.tree.read .stmt = .ok orelse.meaning) :
    (ifElse test body orelse).tree.read .stmt = .ok (ifElse test body orelse).meaning := by
  let outer := (ifElse test body orelse).tree
  have htest : outer.opened.readNth 0 .expr = .ok test.meaning :=
    (Tree.readNth_opened (by simp [outer, tree, OpTree.conditionParts])).trans test.read_grouped
  have hbody : outer.opened.readNth 1 .stmt = .ok body.meaning :=
    (Tree.readNth_opened (by simp [outer, tree, OpTree.conditionParts])).trans hbody
  have hsome : outer.opened.phrases[2]? = some (Part.ofTree orelse.tree) := by
    simp [outer, Tree.phrases_opened, tree, OpTree.conditionParts]
  rw [Tree.read_eq]
  change (do
    let test ← outer.opened.readNth 0 .expr
    let body ← outer.opened.readNth 1 .stmt
    return Node.ifStmt outer.opened.span test body
      (← Part.readOption .stmt outer.opened.phrases[2]?) : Reading .stmt) = _
  rw [htest, hbody, hsome, span_opened]
  change (do return Node.ifStmt _ _ _ (← Node.present <$> orelse.tree.read .stmt)) = _
  rw [horelse]
  rfl

theorem read_whileLoop {test : OpTree} (hbody : body.tree.read .stmt = .ok body.meaning) :
    (whileLoop test body).tree.read .stmt = .ok (whileLoop test body).meaning := by
  let outer := (whileLoop test body).tree
  have htest : outer.opened.readNth 0 .expr = .ok test.meaning :=
    (Tree.readNth_opened (by simp [outer, tree, OpTree.conditionParts])).trans test.read_grouped
  have hbody : outer.opened.readNth 1 .stmt = .ok body.meaning :=
    (Tree.readNth_opened (by simp [outer, tree, OpTree.conditionParts])).trans hbody
  rw [Tree.read_eq]
  change (do
    let test ← outer.opened.readNth 0 .expr
    return Node.whileStmt outer.opened.span test (← outer.opened.readNth 1 .stmt) :
      Reading .stmt) = _
  rw [htest, hbody, span_opened]
  rfl

theorem read_doWhile {test : OpTree} (hbody : body.tree.read .stmt = .ok body.meaning) :
    (doWhile body test).tree.read .stmt = .ok (doWhile body test).meaning := by
  let outer := (doWhile body test).tree
  have hbody : outer.opened.readNth 0 .stmt = .ok body.meaning :=
    (Tree.readNth_opened (by simp [outer, tree, OpTree.conditionParts])).trans hbody
  have htest : outer.opened.readNth 1 .expr = .ok test.meaning :=
    (Tree.readNth_opened (by simp [outer, tree, OpTree.conditionParts])).trans test.read_grouped
  rw [Tree.read_eq]
  change (do
    let body ← outer.opened.readNth 0 .stmt
    return Node.doWhileStmt outer.opened.span body (← outer.opened.readNth 1 .expr) :
      Reading .stmt) = _
  rw [htest, hbody, span_opened]
  rfl

theorem read_labeled {label : LegalName} (hbody : body.tree.read .stmt = .ok body.meaning) :
    (labeled label body).tree.read .stmt = .ok (labeled label body).meaning := by
  let outer := (labeled label body).tree
  have hlabel : outer.opened.identifierAs "a label" = .ok label.symbol.token.identifier := rfl
  have hbody : outer.opened.readNth 0 .stmt = .ok body.meaning :=
    (Tree.readNth_opened (by simp [outer, tree])).trans hbody
  rw [Tree.read_eq]
  change (do
    let label ← outer.opened.identifierAs "a label"
    return Node.labeledStmt outer.opened.span label (← outer.opened.readNth 0 .stmt) :
      Reading .stmt) = _
  rw [hlabel, hbody, span_opened]
  rfl

theorem read_jump {kind : Jump} {label : Option LegalName} :
    (jump kind label).tree.read .stmt = .ok (jump kind label).meaning := by
  rw [Tree.read_eq]
  cases kind <;> cases label <;> rfl

theorem read_call {func : LegalName} {plain : func.IsPlain} {args : OpTrees} :
    (call func plain args).tree.read .stmt = .ok (call func plain args).meaning := by
  let outer := (call func plain args).tree
  have hcall : outer.opened.readNth 0 .expr = .ok ((OpHead.call func args).node .nowhere) :=
    (Tree.readNth_opened rfl).trans (OpTree.head (OpHead.call func args)).read_grouped
  rw [Tree.read_eq]
  change Node.exprStmt outer.opened.span <$> outer.opened.readNth 0 .expr = _
  rw [hcall, span_opened]
  rfl

/-! ### Loops -/

/-- What stands between the semicolons is the test. -/
theorem push_test {head : Opened.ForHead} (test : OpTree) (h : head.semicolons = 1) :
    head.push (Part.ofTree test.grouped.tree) = .ok { head with test := .present test.meaning } := by
  have hpush : head.push (Part.ofTree test.grouped.tree) =
      if head.semicolons == 1 then do
        return { head with test := .present (← test.grouped.tree.read .expr) }
      else return head := by
    cases test.grouped with
    | head inner => cases inner <;> rfl
    | binary op => cases op <;> rfl
    | _ => rfl
  rw [hpush, h, test.read_grouped]
  rfl

/-- What stands behind both semicolons is none. -/
theorem push_body {head : Opened.ForHead} (body : StmtTree) (h : head.semicolons = 2) :
    head.push (Part.ofTree body.tree) = .ok head := by
  have hpush : head.push (Part.ofTree body.tree) =
      if head.semicolons == 1 then do
        return { head with test := .present (← body.tree.read .expr) }
      else return head := by
    cases body with
    | jump kind => cases kind <;> rfl
    | _ => rfl
  rw [hpush, h]
  rfl

/-- The update of a loop, if there is any. -/
theorem push_update {head : Opened.ForHead} (update : OpTrees) (h : head.update = .nil) :
    (update.updateParts.map Part.ofTree).foldlM Opened.ForHead.push head =
      .ok { head with update := update.node .nowhere } := by
  cases update with
  | nil =>
    cases head
    cases h
    rfl
  | cons first others =>
    let outer := Phrase.forUpdate.over ((OpTrees.cons first others).grouped.trees [])
    obtain ⟨nodes, hread, hnodes⟩ := (OpTrees.cons first others).grouped.read_trees [] rfl
    change (do return { head with update := ← outer.read .exprs }) >>= pure = _
    rw [Tree.read_exprs, Phrase.phrases_over, hread, ← OpTrees.node_grouped, ← hnodes]
    rfl

/-- The parts of a loop up to its update. -/
def frontParts (test : Option OpTree) : List Tree :=
  [TokenKind.forKw.leaf, TokenKind.lparen.leaf, TokenKind.semi.leaf]
    ++ test.toList.map (·.grouped.tree) ++ [TokenKind.semi.leaf]

theorem push_front (test : Option OpTree) :
    ((frontParts test).map Part.ofTree).foldlM Opened.ForHead.push ⟨0, .noInit, .absent, .nil⟩ =
      .ok ⟨2, .noInit, .ofOption (test.map OpTree.meaning), .nil⟩ := by
  cases test with
  | none => rfl
  | some test =>
    change (do
      let head ← Opened.ForHead.push ⟨1, .noInit, .absent, .nil⟩ (Part.ofTree test.grouped.tree)
      (head.push (Part.ofTree TokenKind.semi.leaf) >>= pure : Except NodeError _)) = _
    rw [push_test test rfl]
    rfl

theorem read_forLoop {test : Option OpTree} {update : OpTrees}
    (hbody : body.tree.read .stmt = .ok body.meaning) :
    (forLoop test update body).tree.read .stmt = .ok (forLoop test update body).meaning := by
  let outer := (forLoop test update body).tree
  have hlast : outer.opened.last = .ok (Part.ofTree body.tree) := by
    simp [outer, Opened.last, Tree.phrases_opened, tree]
  have hparts : outer.parts =
      frontParts test ++ update.updateParts ++ [TokenKind.rparen.leaf, body.tree] := by
    change (_ :: _ :: _ :: _ ++ _) = _
    simp [frontParts]
  have hhead : outer.opened.parts.foldlM Opened.ForHead.push ⟨0, .noInit, .absent, .nil⟩ =
      .ok ⟨2, .noInit, .ofOption (test.map OpTree.meaning), update.node .nowhere⟩ := by
    rw [Tree.parts_opened, hparts, List.map_append, List.map_append, List.foldlM_append,
      List.foldlM_append, push_front]
    simp only [bind, Except.bind]
    rw [push_update update rfl]
    change Opened.ForHead.push _ (Part.ofTree body.tree) >>= pure = _
    rw [push_body body rfl]
    rfl
  rw [Tree.read_eq]
  change (do
    let body ← (← outer.opened.last).read .stmt
    let head ← outer.opened.parts.foldlM Opened.ForHead.push ⟨0, .noInit, .absent, .nil⟩
    return Node.forStmt outer.opened.span head.init head.test head.update body :
      Reading .stmt) = _
  rw [hlast, hhead, span_opened]
  change (do return Node.forStmt _ _ _ _ (← body.tree.read .stmt)) = _
  rw [hbody]
  rfl

/-- A name that stands for a type is read as it, unless it is `var`. -/
theorem read_typeTree (n : LegalName) (h : n.IsPlain) :
    n.typeTree.read .type = .ok (n.typeNode .nowhere) :=
  (TypeTree.ofName n).read_tree ⟨h.ne (by decide), trivial⟩

theorem read_forEach {ty id : LegalName} {plain : ty.IsPlain} {iter : OpTree}
    (hbody : body.tree.read .stmt = .ok body.meaning) :
    (forEach ty id plain iter body).tree.read .stmt =
      .ok (forEach ty id plain iter body).meaning := by
  let outer := (forEach ty id plain iter body).tree
  have hty : outer.opened.readFirst .type .type = .ok (ty.typeNode .nowhere) :=
    (Tree.readFirst_opened (p := ty.typeTree) rfl).trans (read_typeTree ty plain)
  have hid : outer.opened.readFirst .variableDeclaratorId .variableDeclaratorId =
      .ok (.variableDeclaratorId (some noSpan) (id.identifier .nowhere) .nil) :=
    Tree.readFirst_opened (p := id.variableTree) rfl
  have hiter : outer.opened.behind? (·.kind == .colon) = some (Part.ofTree iter.grouped.tree) := by
    change (Part.ofTrees [TokenKind.colon.leaf, iter.grouped.tree, TokenKind.rparen.leaf,
      body.tree]).find? Part.isPhrase = _
    simp [Part.ofTrees, Part.isPhrase_ofTree]
  have hlast : outer.opened.last = .ok (Part.ofTree body.tree) := by
    simp [outer, Opened.last, Tree.phrases_opened, tree, LegalName.typeTree,
      LegalName.variableTree]
  have hmodifiers : outer.opened.modifiers = .ok .nil :=
    Tree.modifiers_opened (by
      simp only [outer, tree, Phrase.parts_over, List.forall_mem_cons]
      exact ⟨rfl, rfl, rfl, rfl, rfl, iter.grouped.phrase?_tree (.head _), rfl, body.phrase?_tree rfl,
        List.forall_mem_nil _⟩)
  have hread : outer.read .stmt = outer.opened.forEachStmt := Tree.read_eq _ _
  rw [hread, Opened.forEachStmt, hty, hid, hiter, hlast, hmodifiers, span_opened]
  change (do
    let iter ← iter.grouped.tree.read .expr
    return Node.forEachStmt _ _ _ _ iter (← body.tree.read .stmt)) = _
  rw [iter.read_grouped, hbody]
  rfl

end StmtTree

mutual

/-- **The parse tree of a statement is read as its node.** -/
theorem StmtTree.read_tree : (s : StmtTree) → s.tree.read .stmt = .ok s.meaning
  | .empty => StmtTree.read_empty
  | .block body => by
    obtain ⟨nodes, hread, hnodes⟩ := body.read_trees
    exact StmtTree.read_block hread body.filter_trees hnodes
  | .ifThen _ body => StmtTree.read_ifThen body.read_tree
  | .ifElse _ body orelse => StmtTree.read_ifElse body.read_tree orelse.read_tree
  | .whileLoop _ body => StmtTree.read_whileLoop body.read_tree
  | .doWhile body _ => StmtTree.read_doWhile body.read_tree
  | .forLoop _ _ body => StmtTree.read_forLoop body.read_tree
  | .forEach _ _ _ _ body => StmtTree.read_forEach body.read_tree
  | .labeled _ body => StmtTree.read_labeled body.read_tree
  | .jump .. => StmtTree.read_jump
  | .call .. => StmtTree.read_call

theorem StmtTrees.read_trees : (ss : StmtTrees) → ∃ nodes,
    ss.trees.mapM (Tree.read · .stmt) = .ok nodes ∧ Node.ofList nodes = ss.node .nowhere
  | .nil => ⟨[], rfl, rfl⟩
  | .cons first others => by
    obtain ⟨nodes, hread, hnodes⟩ := others.read_trees
    refine ⟨first.meaning :: nodes, ?_, congrArg (Node.cons first.meaning) hnodes⟩
    rw [StmtTrees.trees, List.mapM_cons, first.read_tree, hread]
    rfl

end

theorem StmtTree.unplaced_over (s : StmtTree) :
    (Phrase.statementStart.over [s.tree]).unplaced = Phrase.statementStart.over [s.tree] := by
  rw [Phrase.unplaced_over, List.map_cons, s.unplaced_tree, List.map_nil]

/-- The parse tree of a whole source that is a statement. -/
theorem StmtTree.readWhole_over (s : StmtTree) :
    (Phrase.statementStart.over [s.tree]).readWhole = .ok ⟨.stmt, s.meaning⟩ := by
  have hphrases : (Phrase.statementStart.over [s.tree]).phrases.head? = some s.tree := by simp
  change (Phrase.statementStart.over [s.tree]).readOnly (·.readAny .stmt) = _
  rw [Tree.readOnly, hphrases]
  change s.tree.readAny .stmt = _
  rw [Tree.readAny, s.read_tree]
  rfl

end JavaSource
