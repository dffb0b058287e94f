import JavaSource.Proofs.Guards.Tree
import JavaSource.Proofs.Preorder
import JavaSource.Proofs.Statements.Meaning

/-!
# What the parse tree of a guard means

The conditions of a guard are the leaves of the conjunctions at the left of its parse tree.  A
condition is no conjunction itself, for one stands in parentheses there, so the conditions are read
as they were conjoined (`OpTrees.read_conjoined`).  The parse tree of a switch is read as its node,
as a statement (`SwitchTree.read_stmt`) and as an expression (`SwitchTree.read_expr`).
-/

namespace JavaSource

/-! ### Conditions -/

/-- Only a conjunction has the phrase of one. -/
theorem OpTree.rank_of_phrase? {t : OpTree} (h : t.tree.phrase? = some .conditionalAnd) :
    t.rank = Level.logicalAnd.rank := by
  cases t with
  | head inner => cases inner <;> cases h
  | binary op left right => cases op <;> first | rfl | cases h
  | _ => cases h

/-- What is no conjunction is one condition. -/
theorem OpTree.read_conditions {t : OpTree}
    (h : (t.tree.phrase? == some .conditionalAnd) = false) :
    t.tree.read .conditions = .ok (.cons t.meaning .nil) := by
  have hread : t.tree.opened.read .conditions =
      if t.tree.opened.tree.phrase? == some .conditionalAnd then t.tree.opened.conditions
      else (Node.cons · .nil) <$> t.tree.opened.read .expr := rfl
  rw [Tree.read_eq, hread, Tree.tree_opened, h, ← Tree.read_eq, t.read_tree]
  rfl

theorem OpTree.read_conjunct (t : OpTree) :
    t.conjunct.tree.read .conditions = .ok (.cons t.meaning .nil) := by
  have hmeaning : t.conjunct.meaning = t.meaning := by
    rw [meaning, conjunct, node_within, node_grouped]
  rw [read_conditions, hmeaning]
  refine beq_eq_false_iff_ne.mpr fun heq => ?_
  exact absurd (rank_of_phrase? heq) (Nat.ne_of_gt t.lt_rank_conjunct)

/-- **Conditions are read as they were conjoined**, behind those that stand to the left. -/
theorem OpTrees.read_conjoined : (ts : OpTrees) → {left : OpTree} → {nodes : Nodes .expr} →
    left.tree.read .conditions = .ok nodes →
    (ts.conjoined left).tree.read .conditions = .ok (nodes.append (ts.node .nowhere))
  | .nil, _, nodes, hleft => hleft.trans (congrArg Except.ok nodes.append_nil.symm)
  | .cons first others, left, nodes, hleft => by
    let outer := (OpTree.binary .and left first.conjunct).tree
    have hfirst : outer.opened.readNth 0 .conditions = .ok nodes :=
      (Tree.readNth_opened (p := left.tree) (by simp [outer, OpTree.tree])).trans hleft
    have hsecond : outer.opened.readNth 1 .conditions = .ok (.cons first.meaning .nil) :=
      (Tree.readNth_opened (p := first.conjunct.tree) (by simp [outer, OpTree.tree])).trans
        first.read_conjunct
    have houter : outer.read .conditions = .ok (nodes.append (.cons first.meaning .nil)) := by
      rw [Tree.read_eq]
      change (do
        let left ← outer.opened.readNth 0 .conditions
        return left.append (← outer.opened.readNth 1 .conditions) : Reading (.list .expr)) = _
      rw [hfirst, hsecond]
      rfl
    rw [conjoined, others.read_conjoined houter, Node.append_assoc]
    rfl

/-! ### Patterns and labels -/

theorem PatternTree.unplaced_tree (p : PatternTree) : p.tree.unplaced = p.tree := by
  have hfinal : (Phrase.modifiers.over [TokenKind.finalKw.leaf]).unplaced =
      Phrase.modifiers.over [TokenKind.finalKw.leaf] := rfl
  have hid : p.id.leaf.unplaced = p.id.leaf := rfl
  cases hp : p.isFinal with
  | false => simp [tree, hp, Phrase.unplaced_over, p.type.unplaced_tree, hid]
  | true => simp [tree, hp, Phrase.unplaced_over, p.type.unplaced_tree, hid, hfinal]

theorem GuardTree.unplaced_tree (g : GuardTree) : g.tree.unplaced = g.tree := by
  have hwhen : whenName.leaf.unplaced = whenName.leaf := rfl
  simp only [tree, Phrase.unplaced_over, List.map_cons, List.map_nil, g.pattern.unplaced_tree,
    hwhen, g.conjunction.unplaced_tree]

theorem GuardTree.unplaced_label (g : GuardTree) : g.label.unplaced = g.label := by
  simp only [label, Phrase.unplaced_over, List.map_cons, List.map_nil, TokenKind.unplaced_leaf,
    g.unplaced_tree]

/-- The parse tree of a pattern is read as its node. -/
theorem PatternTree.read_tree (p : PatternTree) (hclasses : p.type.HasClasses) :
    p.tree.read .pattern = .ok (p.node .nowhere) := by
  have htype : p.tree.opened.readFirst .type .type = .ok (p.type.node .nowhere) := by
    refine (Tree.readFirst_opened (p := p.type.tree) ?_).trans (p.type.read_tree hclasses)
    cases hp : p.isFinal <;> simp [tree, hp, p.type.phrase?_tree]
  have hnone : p.type.tree.token? = none :=
    Tree.token?_of_phrase? (by rw [p.type.phrase?_tree]; rfl)
  have hid : p.tree.opened.identifier? = some (p.id.identifier .nowhere) := by
    have hfinal : (Phrase.modifiers.over [TokenKind.finalKw.leaf]).token? = none := rfl
    have htokens : p.tree.tokens = [p.id.symbol.token] := by
      cases hp : p.isFinal <;> simp [tree, hp, hnone, hfinal]
    rw [Opened.identifier?, Opened.identifiers, Tree.tree_opened, Tree.tokensOf, htokens]
    rfl
  have hmodifiers : p.tree.opened.modifiers = .ok (if p.isFinal then
      .cons (.keywordModifier (some noSpan) .finalWord) .nil else .nil) := by
    cases hp : p.isFinal with
    | false => exact Tree.modifiers_opened (by simp [tree, hp, p.type.phrase?_tree])
    | true =>
      have hfirst : p.tree.parts.find? (·.phrase? == some .modifiers) =
          some (Phrase.modifiers.over [TokenKind.finalKw.leaf]) := by simp [tree, hp]
      rw [Opened.modifiers, Opened.readList, Tree.first?_opened, hfirst]
      rfl
  rw [Tree.read_eq]
  change p.tree.opened.pattern = _
  rw [Opened.pattern, htype, hid, hmodifiers, Tree.span_opened p.unplaced_tree]
  rfl

/-- A label that stands nowhere is read as some items. -/
structure ReadsLabel (label : Tree) (items : Nodes .caseItem) : Prop where
  unplaced : label.unplaced = label
  phrase : label.phrase? = some .switchLabel
  hasToken : label.hasToken .defaultKw = false
  read : label.read .caseItems = .ok items

variable {g : GuardTree} {label : Tree} {items : Nodes .caseItem}

namespace GuardTree

/-- The parse tree of a pattern and its guard is read as its node. -/
theorem read_tree (hclasses : g.pattern.type.HasClasses) :
    g.tree.read .caseItem = .ok (g.node .nowhere) := by
  have hpattern : g.tree.opened.readFirst .pattern .pattern = .ok (g.pattern.node .nowhere) :=
    (Tree.readFirst_opened (p := g.pattern.tree) rfl).trans (g.pattern.read_tree hclasses)
  have hconditions : g.tree.opened.readNth 1 .conditions = .ok (g.conditions.node .nowhere) := by
    refine (Tree.readNth_opened (p := g.conjunction.tree) ?_).trans
      (g.others.read_conjoined g.first.read_conjunct)
    have hpattern : g.pattern.tree.phrase?.isSome = true := rfl
    simp [tree, hpattern]
  rw [Tree.read_eq]
  change (do
    let pattern ← g.tree.opened.readFirst .pattern .pattern
    return Node.guardedPattern g.tree.opened.span pattern
      (← g.tree.opened.readNth 1 .conditions) : Reading .caseItem) = _
  rw [hpattern, hconditions, Tree.span_opened g.unplaced_tree]
  rfl

theorem read_label (hclasses : g.pattern.type.HasClasses) :
    g.label.read .caseItems = .ok (.cons (g.node .nowhere) .nil) := by
  have hphrases : g.label.phrases = [g.tree] := rfl
  rw [Tree.read_eq]
  change Part.readAll .caseItem g.label.opened.phrases = _
  rw [Tree.readAll_phrases, hphrases, List.mapM_cons, read_tree hclasses]
  rfl

theorem readsLabel (hclasses : g.pattern.type.HasClasses) :
    ReadsLabel g.label (.cons (g.node .nowhere) .nil) :=
  ⟨g.unplaced_label, rfl, rfl, read_label hclasses⟩

end GuardTree

/-! ### Rules -/

/-- A rule with a label. -/
theorem Opened.switchRule_label (h : ReadsLabel label items) (isArrow : Bool) (body : Nodes .stmt) :
    Opened.switchRule (some noSpan) (Part.ofTree label) isArrow body =
      .ok (.switchRule (some noSpan) false items isArrow body) := by
  have hread : (Part.ofTree label).read .caseItems = .ok items := h.read
  rw [Opened.switchRule, Part.tree_ofTree, h.hasToken, hread]
  rfl

namespace RuleBody

theorem unplaced_tree (b : RuleBody) (h : label.unplaced = label) :
    (b.tree label).unplaced = b.tree label := by
  cases b with
  | colon body =>
    simp only [tree, Phrase.unplaced_over, List.map_cons, TokenKind.unplaced_leaf, h,
      body.unplaced_trees]
  | value e =>
    simp only [tree, Phrase.unplaced_over, List.map_cons, List.map_nil, TokenKind.unplaced_leaf, h,
      e.grouped.unplaced_tree]
  | block body =>
    simp only [tree, Phrase.unplaced_over, List.map_cons, List.map_nil, TokenKind.unplaced_leaf, h,
      StmtTree.unplaced_tree]

/-- A rule behind an arrow, whatever its only statement is. -/
theorem read_arrow {body : Tree} {node : Stmt} (h : ReadsLabel label items)
    (hphrase : body.phrase?.isSome = true) (hbody : body.read .stmt = .ok node)
    (hspan : (Phrase.switchRule.over [label, TokenKind.arrow.leaf, body]).opened.span =
      some noSpan) :
    (Phrase.switchRule.over [label, TokenKind.arrow.leaf, body]).read .switchRules =
      .ok (.cons (.switchRule (some noSpan) false items true (.cons node .nil)) .nil) := by
  let outer := Phrase.switchRule.over [label, TokenKind.arrow.leaf, body]
  have hfirst : outer.opened.first? .switchLabel = some (Part.ofTree label) := by
    rw [Tree.first?_opened]
    change ([label, TokenKind.arrow.leaf, body].find? _).map Part.ofTree = _
    rw [List.find?_cons_of_pos (by rw [h.phrase]; rfl)]
    rfl
  have hlabel : outer.opened.first .switchLabel = .ok (Part.ofTree label) := by
    rw [Opened.first, hfirst]
  have hbody : outer.opened.readNth 1 .stmt = .ok node := by
    refine (Tree.readNth_opened (p := body) ?_).trans hbody
    have hlabel : label.phrase?.isSome = true := by rw [h.phrase]; rfl
    simp [outer, hlabel, hphrase]
  rw [Tree.read_eq]
  change (do
    let label ← outer.opened.first .switchLabel
    let body ← outer.opened.readNth 1 .stmt
    return .cons (← Opened.switchRule outer.opened.span label true (.cons body .nil)) .nil :
      Reading (.list .switchRule)) = _
  rw [hlabel, hbody, hspan]
  change (do
    return .cons (← Opened.switchRule (some noSpan) (Part.ofTree label) true _) .nil :
      Reading (.list .switchRule)) = _
  rw [Opened.switchRule_label h]
  rfl

/-- A group has one label. -/
theorem phrasesOf_colon (body : StmtTrees) (h : label.phrase? = some .switchLabel) :
    ((colon body).tree label).opened.phrasesOf .switchLabel = [Part.ofTree label] := by
  have hrest : body.trees.filter (fun t => t.phrase? == some .switchLabel) = [] :=
    List.filter_eq_nil_iff.mpr fun t ht => by
      rw [body.phrase?_trees rfl t ht]
      exact Bool.false_ne_true
  rw [Tree.phrasesOf_opened]
  change ((label :: TokenKind.colon.leaf :: body.trees).filter _).map _ = _
  rw [List.filter_cons_of_pos (by rw [h]; rfl)]
  exact congrArg (fun ts => (label :: ts).map Part.ofTree) hrest

/-- A group with a guard can only stand among rules. -/
theorem isRichGroup_colon (body : StmtTrees) :
    Opened.isRichGroup (Part.ofTree ((colon body).tree g.label)) = true := by
  change (((colon body).tree g.label).opened.phrasesOf .switchLabel).any _ = true
  rw [phrasesOf_colon body rfl]
  rfl

/-- **A rule is read as its node.** -/
theorem read_tree (b : RuleBody) (h : ReadsLabel label items) :
    (b.tree label).read .switchRules =
      .ok (.cons (.switchRule (some noSpan) false items b.isArrow (b.node .nowhere)) .nil) := by
  have hspan := Tree.span_opened (b.unplaced_tree h.unplaced)
  cases b with
  | colon body =>
    let outer := (colon body).tree label
    obtain ⟨nodes, hread, hnodes⟩ := body.read_trees
    have hnone : ∀ t ∈ body.trees, (t.phrase? == some .switchLabel) = false :=
      body.phrase?_trees rfl
    have hbody : outer.opened.groupBody = .ok (body.node .nowhere) := by
      have hphrases : outer.phrases = label :: body.trees := by
        change (label :: TokenKind.colon.leaf :: body.trees).filter _ = _
        rw [List.filter_cons_of_pos (by rw [h.phrase]; rfl)]
        exact congrArg (label :: ·) body.filter_trees
      have hrest : body.trees.filter (fun t => !(t.phrase? == some .switchLabel)) = body.trees :=
        List.filter_eq_self.mpr fun t ht => by rw [hnone t ht]; rfl
      have hbehind : outer.phrases.filter (fun t => !(t.phrase? == some .switchLabel)) =
          body.trees := by
        rw [hphrases, List.filter_cons_of_neg (by rw [h.phrase]; decide)]
        exact hrest
      rw [Opened.groupBody, Tree.phrasesBut_opened, hbehind, Part.readAll, List.mapM_map]
      change Node.ofList <$> body.trees.mapM (Tree.read · .stmt) = _
      rw [hread, ← hnodes]
      rfl
    have hlabels : outer.opened.phrasesOf .switchLabel = [Part.ofTree label] :=
      phrasesOf_colon body h.phrase
    have hlabel : (Part.ofTree label).tree.span = noSpan := by
      rw [Part.tree_ofTree, Tree.span_of_unplaced h.unplaced]
    rw [Tree.read_eq]
    change (do
      let body ← outer.opened.groupBody
      Opened.groupRules body (outer.opened.phrasesOf .switchLabel) :
        Reading (.list .switchRule)) = _
    rw [hbody, hlabels]
    change (do
      return .cons (← Opened.switchRule (some (Part.ofTree label).tree.span)
        (Part.ofTree label) false (body.node .nowhere)) .nil : Reading (.list .switchRule)) = _
    rw [hlabel, Opened.switchRule_label h]
    rfl
  | value e =>
    let statement := Phrase.expressionStatement.over [e.grouped.tree, TokenKind.semi.leaf]
    have hstatement : statement.unplaced = statement := by
      simp only [statement, Phrase.unplaced_over, List.map_cons, List.map_nil,
        TokenKind.unplaced_leaf, e.grouped.unplaced_tree]
    have hvalue : statement.opened.readNth 0 .expr = .ok e.meaning :=
      (Tree.readNth_opened (by simp [statement])).trans e.read_grouped
    refine read_arrow h rfl ?_ hspan
    rw [Tree.read_eq]
    change Node.exprStmt statement.opened.span <$> statement.opened.readNth 0 .expr = _
    rw [hvalue, Tree.span_opened hstatement]
    rfl
  | block body => exact read_arrow h rfl (StmtTree.block body).read_tree hspan

/-- All rules of a body with one. -/
theorem allRules_over (b : RuleBody) (h : ReadsLabel label items) :
    (Phrase.switchBlock.over [TokenKind.lbrace.leaf, b.tree label,
      TokenKind.rbrace.leaf]).opened.allRules =
        .ok (.cons (.switchRule (some noSpan) false items b.isArrow (b.node .nowhere)) .nil) := by
  have hphrase : (b.tree label).phrase?.isSome = true := by cases b <;> rfl
  have hphrases : (Phrase.switchBlock.over [TokenKind.lbrace.leaf, b.tree label,
      TokenKind.rbrace.leaf]).phrases = [b.tree label] := by simp [hphrase]
  rw [Opened.allRules, Tree.phrases_opened, hphrases]
  change (do
    let rules ← [b.tree label].mapM (Tree.read · .switchRules)
    return rules.foldr Node.append .nil : Reading (.list .switchRule)) = _
  rw [List.mapM_cons, b.read_tree h]
  rfl

end RuleBody

/-- A switch expression is read as its value and the rules of its body. -/
theorem OpTree.read_switch {block : Tree} {rules : Nodes .switchRule} (value : OpTree)
    (hblock : block.phrase? = some .switchBlock) (hunplaced : block.unplaced = block)
    (hrules : block.opened.allRules = .ok rules) :
    (Phrase.switchExpression.over
      (TokenKind.switchKw.leaf :: value.conditionParts ++ [block])).read .expr =
        .ok (.switchExpr (some noSpan) value.meaning rules) := by
  let outer := Phrase.switchExpression.over
    (TokenKind.switchKw.leaf :: value.conditionParts ++ [block])
  have hunplaced : outer.unplaced = outer := by
    simp only [outer, conditionParts, Phrase.unplaced_over, List.map_cons, List.map_append,
      List.map_nil, TokenKind.unplaced_leaf, value.grouped.unplaced_tree, hunplaced]
  have hvalue : outer.opened.readNth 0 .expr = .ok value.meaning :=
    (Tree.readNth_opened (by simp [outer, conditionParts])).trans value.read_grouped
  have hfind : outer.parts.find? (·.phrase? == some .switchBlock) = some block := by
    have hvalue := value.grouped.phrase?_tree (.tail _ (.head _))
    simp [outer, conditionParts, hvalue, hblock]
  have hfirst : outer.opened.first .switchBlock = .ok (Part.ofTree block) := by
    rw [Opened.first, Tree.first?_opened, hfind]
    rfl
  rw [Tree.read_eq]
  change (do
    let value ← outer.opened.readNth 0 .expr
    let block ← outer.opened.first .switchBlock
    return Node.switchExpr outer.opened.span value (← block.opened.allRules) : Reading .expr) = _
  rw [hvalue, hfirst, Tree.span_opened hunplaced]
  change (do
    return Node.switchExpr (some noSpan) value.meaning (← block.opened.allRules) :
      Reading .expr) = _
  rw [hrules]
  rfl

/-! ### Switches -/

namespace SwitchTree

variable {t : SwitchTree}

theorem unplaced_blockTree (t : SwitchTree) : t.blockTree.unplaced = t.blockTree := by
  simp only [blockTree, Phrase.unplaced_over, List.map_cons, List.map_nil, TokenKind.unplaced_leaf,
    ruleTree, t.body.unplaced_tree t.guard.unplaced_label]

theorem unplaced_tree (t : SwitchTree) (kind : Phrase) :
    (t.tree kind).unplaced = t.tree kind := by
  simp only [tree, OpTree.conditionParts, Phrase.unplaced_over, List.map_cons, List.map_append,
    List.map_nil, TokenKind.unplaced_leaf, t.value.grouped.unplaced_tree, t.unplaced_blockTree]

/-- The body is the only one among the parts. -/
theorem find?_tree (t : SwitchTree) (kind : Phrase) :
    (t.tree kind).parts.find? (·.phrase? == some .switchBlock) = some t.blockTree := by
  have hvalue := t.value.grouped.phrase?_tree (.tail _ (.head _))
  have hblock : t.blockTree.phrase? = some .switchBlock := rfl
  simp [tree, OpTree.conditionParts, hvalue, hblock]

/-- All rules of the body. -/
theorem allRules_blockTree (hclasses : t.guard.pattern.type.HasClasses) :
    t.blockTree.opened.allRules = .ok (.cons (t.rule .nowhere) .nil) :=
  t.body.allRules_over (GuardTree.readsLabel hclasses)

/-- **The parse tree of the body is read as one with a rule.** -/
theorem read_blockTree (hclasses : t.guard.pattern.type.HasClasses) :
    t.blockTree.read .switchBlock =
      .ok (.switchBlock (some noSpan) .nil .nil (.cons (t.rule .nowhere) .nil)) := by
  have hspan := Tree.span_opened t.unplaced_blockTree
  have hrules := allRules_blockTree hclasses
  rw [Tree.read_eq]
  change t.blockTree.opened.switchBlock = _
  obtain ⟨value, guard, body⟩ := t
  cases body with
  | colon body =>
    have hgroups : (SwitchTree.mk value guard (.colon body)).blockTree.opened.phrasesOf .switchGroup
      = [Part.ofTree ((RuleBody.colon body).tree guard.label)] := rfl
    rw [Opened.switchBlock, hspan, hrules, hgroups, List.any_cons, RuleBody.isRichGroup_colon]
    rfl
  | value e =>
    rw [Opened.switchBlock, hspan, hrules]
    rfl
  | block body =>
    rw [Opened.switchBlock, hspan, hrules]
    rfl

/-- **The parse tree of a switch is read as a statement.** -/
theorem read_stmt (hclasses : t.guard.pattern.type.HasClasses) :
    (t.tree .switchStatement).read .stmt = .ok (t.stmt .nowhere) := by
  let outer := t.tree .switchStatement
  have hvalue : outer.opened.readNth 0 .expr = .ok t.value.meaning :=
    (Tree.readNth_opened (by simp [outer, tree, OpTree.conditionParts])).trans t.value.read_grouped
  have hbody := (Tree.readFirst_opened (t.find?_tree .switchStatement)).trans
    (read_blockTree hclasses)
  rw [Tree.read_eq]
  change (do
    let value ← outer.opened.readNth 0 .expr
    (Node.switchStmt outer.opened.span value
      (← outer.opened.readFirst .switchBlock .switchBlock)).checked : Reading .stmt) = _
  rw [hvalue, hbody, Tree.span_opened (t.unplaced_tree _)]
  rfl

/-- **The parse tree of a switch is read as an expression.** -/
theorem read_expr (hclasses : t.guard.pattern.type.HasClasses) :
    (t.tree .switchExpression).read .expr = .ok (t.expr .nowhere) :=
  t.value.read_switch rfl t.unplaced_blockTree (allRules_blockTree hclasses)

end SwitchTree

end JavaSource
