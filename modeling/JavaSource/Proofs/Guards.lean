import JavaSource.Proofs.Guards.Matched
import JavaSource.Proofs.Guards.Meaning
import JavaSource.Proofs.Guards.Printed
import JavaSource.Proofs.Sameness
import JavaSource.Proofs.Statements
import JavaSource.Proofs.Types

/-!
# Guards

A guard is written as one conjunction and read as the operands of all conjunctions at its left.
Conditions that are conjunctions themselves, or hold together less tightly, are written in
parentheses, so the list is read as it was (`Node.PlainPattern.parse_print_guarded`).

That is so for patterns without annotations.  An annotation in a pattern may have an element that is
read as something else (`same_annotatedPattern`).
-/

namespace JavaSource

open Node (Alike)

/-- A pattern of a type without annotations, `final` or without modifiers. -/
inductive Node.PlainPattern : Node .pattern → Prop where
  | plain (type : Plain ty) (id : LegalName) :
    PlainPattern (.pattern s .nil ty .nil (.identifier s₁ id.text))
  | final (type : Plain ty) (id : LegalName) :
    PlainPattern (.pattern s (.cons (.keywordModifier s₁ .finalWord) .nil) ty .nil
      (.identifier s₂ id.text))

/-- Statements that stand behind a label: structured ones behind a colon, or an expression of
operators or a block behind an arrow. -/
inductive Node.Labelled : Bool → Nodes .stmt → Prop where
  | colon (body : AllStructured ss) : Labelled false ss
  | value (value : Operational e) : Labelled true (.cons (.exprStmt s e) .nil)
  | block (body : AllStructured ss) : Labelled true (.cons (.blockStmt (.block s ss)) .nil)

/-- A rule for a pattern and its guard. -/
def Node.guarded (p : Node .pattern) (conditions : Nodes .expr) (isArrow : Bool)
    (body : Nodes .stmt) : Node .switchRule :=
  .switchRule none false (.cons (.guardedPattern none p conditions) .nil) isArrow body

/-- A switch statement with a rule. -/
def Node.switching (e : Expr) (rule : Node .switchRule) : Stmt :=
  .switchStmt none e (.switchBlock none .nil .nil (.cons rule .nil))

/-- A switch expression with a rule. -/
def Node.choosing (e : Expr) (rule : Node .switchRule) : Expr := .switchExpr none e (.cons rule .nil)

/-! ### Guard trees -/

theorem Node.PlainPattern.exists_node {p : Node .pattern} (h : p.PlainPattern) :
    ∃ (t : PatternTree) (spans : Spans),
      t.node spans = p ∧ t.type.HasClasses ∧ t.type.StartsPlain := by
  cases h with
  | plain type id =>
    obtain ⟨ty, types, rfl, hclasses, hplain⟩ := type.exists_node
    exact ⟨⟨false, ty, id⟩, .over _ [.over none [], types, .over _ []], rfl, hclasses, hplain⟩
  | final type id =>
    obtain ⟨ty, types, rfl, hclasses, hplain⟩ := type.exists_node
    exact ⟨⟨true, ty, id⟩, .over _ [.over _ [], types, .over _ []], rfl, hclasses, hplain⟩

theorem Node.Labelled.exists_node {isArrow : Bool} {body : Nodes .stmt}
    (h : body.Labelled isArrow) :
    ∃ (b : RuleBody) (spans : Spans), b.node spans = body ∧ b.isArrow = isArrow := by
  cases h with
  | colon body =>
    obtain ⟨ss, spans, rfl⟩ := body.exists_node
    exact ⟨.colon ss, spans, rfl, rfl⟩
  | value value =>
    obtain ⟨e, values, rfl⟩ := value.exists_node
    exact ⟨.value e, .over _ [values], rfl, rfl⟩
  | block body =>
    obtain ⟨ss, spans, rfl⟩ := body.exists_node
    exact ⟨.block ss, .over _ [spans], rfl, rfl⟩

/-! ### Nodes that are alike -/

theorem PatternTree.alike_node (spans spans' : Spans) (t : PatternTree) {p : Node .pattern}
    (h : p.Alike (t.node spans)) : p.Alike (t.node spans') := by
  cases h with
  | pattern hmodifiers htype hnone hid =>
    refine .pattern ?_ (t.type.alike_node _ _ htype) hnone (t.id.alike_identifier _ _ hid)
    cases hfinal : t.isFinal with
    | false =>
      rw [hfinal] at hmodifiers
      exact hmodifiers
    | true =>
      rw [hfinal] at hmodifiers
      cases hmodifiers with
      | cons hfirst hnil =>
        cases hfirst
        exact .cons .keywordModifier hnil

theorem GuardTree.alike_node (spans spans' : Spans) (t : GuardTree) {i : Node .caseItem}
    (h : i.Alike (t.node spans)) : i.Alike (t.node spans') := by
  cases h with
  | guardedPattern hpattern hconditions =>
    exact .guardedPattern (t.pattern.alike_node _ _ hpattern)
      (t.conditions.alike_node _ _ hconditions)

/-- What is alike the meaning of a braced body is alike what the body means, in braces. -/
theorem RuleBody.alike_braced (spans spans' : Spans) (b : RuleBody) {ns : Nodes .stmt}
    (h : ns.Alike (b.braced.node spans)) : ns.Alike (b.node spans').braced := by
  cases b with
  | colon body => exact body.alike_braced _ _ h
  | value e =>
    cases h with
    | cons hfirst hnil =>
      cases hfirst with
      | exprStmt hvalue => exact .cons (.exprStmt (e.alike_node _ _ hvalue)) hnil
  | block body =>
    cases h with
    | cons hfirst hnil => exact .cons ((StmtTree.block body).alike_braced _ _ hfirst) hnil

theorem RuleBody.isArrow_braced (b : RuleBody) : b.braced.isArrow = b.isArrow := by
  cases b <;> rfl

namespace SwitchTree

variable {t : SwitchTree} {spans spans' : Spans}

/-- A rule that is alike the one of the braced switch. -/
theorem alike_rule {r : Node .switchRule} (h : r.Alike (t.braced.rule spans)) :
    r.Alike (.switchRule (spans' []) false (.cons (t.guard.node (spans'.below 0)) .nil)
      t.body.isArrow (t.body.node (spans'.below 1)).braced) := by
  rw [rule] at h
  rw [show t.braced.body.isArrow = t.body.isArrow from t.body.isArrow_braced] at h
  cases h with
  | switchRule hcases hbody =>
    cases hcases with
    | cons hguard hnil =>
      exact .switchRule (.cons (t.guard.alike_node _ _ hguard) hnil) (t.body.alike_braced _ _ hbody)

theorem alike_stmt {n : Stmt} (h : n.Alike (t.braced.stmt spans)) :
    n.Alike (.switchStmt (spans' []) (t.value.node (spans'.below 0))
      (.switchBlock (spans' [1]) .nil .nil (.cons (.switchRule ((spans'.below 2) []) false
        (.cons (t.guard.node ((spans'.below 2).below 0)) .nil) t.body.isArrow
        (t.body.node ((spans'.below 2).below 1)).braced) .nil))) := by
  cases h with
  | switchStmt hvalue hblock =>
    cases hblock with
    | switchBlock hgroups hlabels hrules =>
      cases hrules with
      | cons hrule hnil =>
        exact .switchStmt (t.value.alike_node _ _ hvalue)
          (.switchBlock hgroups hlabels (.cons (alike_rule hrule) hnil))

theorem alike_expr {n : Expr} (h : n.Alike (t.braced.expr spans)) :
    n.Alike (.switchExpr (spans' []) (t.value.node (spans'.below 0))
      (.cons (.switchRule ((spans'.below 2) []) false
        (.cons (t.guard.node ((spans'.below 2).below 0)) .nil) t.body.isArrow
        (t.body.node ((spans'.below 2).below 1)).braced) .nil)) := by
  cases h with
  | switchExpr hvalue hrules =>
    cases hrules with
    | cons hrule hnil =>
      exact .switchExpr (t.value.alike_node _ _ hvalue) (.cons (alike_rule hrule) hnil)

theorem unplaced_over (kind : Phrase) (start : Phrase) :
    (start.over [t.tree kind]).unplaced = start.over [t.tree kind] := by
  rw [Phrase.unplaced_over, List.map_cons, t.unplaced_tree, List.map_nil]

/-- A switch statement is printed, and parsed to what it means with braces. -/
theorem parse_print_stmt (hclasses : t.guard.pattern.type.HasClasses)
    (hplain : t.guard.pattern.type.StartsPlain) (spans : Spans) (indent : Nat) :
    ∃ text, (t.stmt spans).print indent = .ok text ∧
      ∀ limit, (parseTreeWithin .stmt limit text).isOk →
        ∃ n, parse .stmt limit text = .ok n ∧ n.Alike ⟨.stmt, t.braced.stmt .nowhere⟩ := by
  obtain ⟨text, htext, hlexes⟩ := (t.lexes_stmt spans).render trivial indent
  refine ⟨text, htext, fun limit hlimit => ?_⟩
  have htakes : Mode.stmt.start.Takes _ 0 _ _ :=
    t.braced.matches_statementStart hplain t.body.settled_braced hlexes.scanned 0 rfl
  rw [← unplaced_over] at htakes
  have hread : (Phrase.statementStart.over [t.braced.tree .switchStatement]).readWhole =
      .ok ⟨.stmt, t.braced.stmt .nowhere⟩ := by
    change (t.braced.tree .switchStatement).readAny .stmt = _
    rw [Tree.readAny, read_stmt (t := t.braced) hclasses]
    rfl
  exact parse_of_takes hlexes htakes hread hlimit

/-- So is a switch expression. -/
theorem parse_print_expr (hclasses : t.guard.pattern.type.HasClasses)
    (hplain : t.guard.pattern.type.StartsPlain) (spans : Spans) (indent : Nat) :
    ∃ text, (t.expr spans).print indent = .ok text ∧
      ∀ limit, (parseTreeWithin .expr limit text).isOk →
        ∃ n, parse .expr limit text = .ok n ∧ n.Alike ⟨.expr, t.braced.expr .nowhere⟩ := by
  obtain ⟨text, htext, hlexes⟩ := (t.lexes_expr spans).render trivial indent
  refine ⟨text, htext, fun limit hlimit => ?_⟩
  have htakes : Mode.expr.start.Takes _ 0 _ _ :=
    t.braced.matches_expressionStart hplain t.body.settled_braced hlexes.scanned 0 rfl
  rw [← unplaced_over] at htakes
  have hread : (Phrase.expressionStart.over [t.braced.tree .switchExpression]).readWhole =
      .ok ⟨.expr, t.braced.expr .nowhere⟩ := by
    change (t.braced.tree .switchExpression).readAny .expr = _
    rw [Tree.readAny, read_expr (t := t.braced) hclasses]
    rfl
  exact parse_of_takes hlexes htakes hread hlimit

end SwitchTree

/-! ### Guarded patterns -/

/-- **A pattern and any conditions are read from a rule as they were printed there**, behind a colon
or an arrow, in a statement or in an expression, whatever the indent.  The statements of the rule
are those that were printed, with braces around the branches that dangle. -/
theorem Node.PlainPattern.parse_print_guarded {e : Expr} {p : Node .pattern}
    {conditions : Nodes .expr} {isArrow : Bool} {body : Nodes .stmt} (hp : p.PlainPattern)
    (hconditions : conditions.Arguments) (hsome : conditions.isEmpty = false)
    (hbody : body.Labelled isArrow) (he : e.Operational) (indent : Nat) :
    (∃ text, (switching e (guarded p conditions isArrow body)).print indent = .ok text ∧
      ∀ limit, (parseTreeWithin .stmt limit text).isOk → ∃ n, parse .stmt limit text = .ok n ∧
        n.Alike ⟨.stmt, switching e (guarded p conditions isArrow body.braced)⟩) ∧
    ∃ text, (choosing e (guarded p conditions isArrow body)).print indent = .ok text ∧
      ∀ limit, (parseTreeWithin .expr limit text).isOk → ∃ n, parse .expr limit text = .ok n ∧
        n.Alike ⟨.expr, choosing e (guarded p conditions isArrow body.braced)⟩ := by
  obtain ⟨value, values, rfl⟩ := he.exists_node
  obtain ⟨pattern, patterns, rfl, hclasses, hplain⟩ := hp.exists_node
  obtain ⟨ts, tests, rfl⟩ := hconditions.exists_node
  obtain ⟨b, bodies, rfl, rfl⟩ := hbody.exists_node
  cases ts with
  | nil => cases hsome
  | cons first others =>
    let t : SwitchTree := ⟨value, ⟨pattern, first, others⟩, b⟩
    let spans : Spans := .over none [values, .over none [],
      .over none [.over none [patterns, tests], bodies]]
    constructor
    · obtain ⟨text, htext, hparse⟩ := t.parse_print_stmt hclasses hplain spans indent
      refine ⟨text, htext, fun limit hlimit => ?_⟩
      obtain ⟨_, hn, ⟨halike⟩⟩ := hparse limit hlimit
      exact ⟨_, hn, .mk (@SwitchTree.alike_stmt t _ spans _ halike)⟩
    · obtain ⟨text, htext, hparse⟩ := t.parse_print_expr hclasses hplain spans indent
      refine ⟨text, htext, fun limit hlimit => ?_⟩
      obtain ⟨_, hn, ⟨halike⟩⟩ := hparse limit hlimit
      exact ⟨_, hn, .mk (@SwitchTree.alike_expr t _ spans _ halike)⟩

/-- A conjunction and an assignment among the conditions. -/
theorem Node.PlainPattern.parse_print_guarded_conjunction :
    ∃ (e : Expr) (p : Node .pattern) (conditions : Nodes .expr) (body : Nodes .stmt),
      p.PlainPattern ∧ conditions.Arguments ∧ conditions.isEmpty = false ∧ body.Labelled true ∧
      e.Operational ∧ (switching e (guarded p conditions true body)).print 0 =
        .ok "switch (x) \x7b case final int[] y when (a && b) && (c = d) -> f(); \x7d" ∧
      ∃ n, parse .stmt 30 "switch (x) \x7b case final int[] y when (a && b) && (c = d) -> f(); \x7d" =
        .ok n ∧ n.Alike ⟨.stmt, switching e (guarded p conditions true body.braced)⟩ := by
  let p : Node .pattern := .pattern none (.cons (.keywordModifier none .finalWord) .nil)
    (.arrayType none .nil (.wordType none .nil .int) (.cons (.dim none .nil) .nil)) .nil
    (.identifier none (String.ofList ['y']))
  have hp : p.PlainPattern := .final (.array (.word .int) .nil) (.letter 'y' rfl (by decide))
  let conditions : Nodes .expr :=
    .cons (.binary none (.letter 'a') (.binaryOperator .and) (.letter 'b'))
      (.cons (.assignment none (.letter 'c') .absent (.letter 'd')) .nil)
  have hconditions : conditions.Arguments :=
    .cons (.binary .and (.letter 'a' rfl (by decide)) (.letter 'b' rfl (by decide)))
      (.cons (.assignment (.letter 'c' rfl (by decide)) (.letter 'd' rfl (by decide))) .nil)
  let body : Nodes .stmt := .cons (.exprStmt none (.call none (.letter 'f') .nil)) .nil
  have hbody : body.Labelled true := .value (.head (.call (.letter 'f' rfl (by decide)) .nil))
  have he := Operational.letter 'x' rfl (by decide)
  have hprint : (switching (letter 'x') (guarded p conditions true body)).print 0 =
      .ok "switch (x) \x7b case final int[] y when (a && b) && (c = d) -> f(); \x7d" := by rfl
  obtain ⟨⟨text, htext, hparse⟩, -⟩ := hp.parse_print_guarded hconditions rfl hbody he 0
  obtain rfl := Except.ok.inj (htext.symm.trans hprint)
  exact ⟨letter 'x', p, conditions, body, hp, hconditions, rfl, hbody, he, hprint,
    hparse 30 (by decide +kernel)⟩

/-- An assignment in parentheses is the only element of an annotation.  It is printed without them,
and then it is a named element. -/
theorem same_annotatedPattern : ∃ source n text n', parse .stmt 30 source = .ok n ∧
    n.print 0 = .ok text ∧ parse .stmt 30 text = .ok n' ∧ n.same n' = false := by
  let source := "switch (x) \x7b case @A((y = z)) B b when c -> d; \x7d"
  let text := "switch (x) \x7b case @A(y = z) B b when c -> d; \x7d"
  let use : Node .annotationUse := .annotationUse none
    (.qualifiedName none (.cons (.identifier none "A") .nil))
    (.cons (.valueElement (.exprValue (.assignment none (.letter 'y') .absent (.letter 'z')))) .nil)
  let p : Node .pattern := .pattern none (.cons (.annotationModifier use) .nil)
    (.classType none .nil (.cons (.coit none .nil (.identifier none "B") .absent) .nil)) .nil
    (.identifier none "b")
  let s : AnyNode := ⟨.stmt, .switching (.letter 'x')
    (.guarded p (.cons (.letter 'c') .nil) true (.cons (.exprStmt none (.letter 'd')) .nil))⟩
  -- Each text is parsed apart, and compared with one statement.
  have hsource : (parse .stmt 30 source).toOption.any
      (fun n => decide (n.print 0 = .ok text) && n.same s) = true := by decide +kernel
  have htext : (parse .stmt 30 text).toOption.any (!·.same s) = true := by decide +kernel
  obtain ⟨n, hn, hboth⟩ := exists_of_toOption_any hsource
  obtain ⟨n', hn', hother⟩ := exists_of_toOption_any htext
  obtain ⟨hprint, hsame⟩ := (Bool.and_eq_true ..).mp hboth
  refine ⟨source, n, text, n', hn, of_decide_eq_true hprint, hn', Bool.eq_false_iff.mpr fun h => ?_⟩
  have hsame' : n'.same s = true := AnyNode.same_trans (AnyNode.same_symm h) hsame
  rw [hsame'] at hother
  cases hother

end JavaSource
