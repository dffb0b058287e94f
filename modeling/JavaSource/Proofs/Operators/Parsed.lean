import JavaSource.Proofs.Limit
import JavaSource.Proofs.Operators.Meaning
import JavaSource.Proofs.Operators.Recognized
import JavaSource.Proofs.Operators.Scanned

/-!
# Operator trees as they are parsed

The text of a layered tree is parsed to its node (`OpTree.parse_chars`).
-/

namespace JavaSource

open Grammar (Symbol Rule Source State Outcome)
open Node (Alike)

/-- What is alike the node of a name is so wherever the name stands. -/
theorem LegalName.alike_node (name : LegalName) (spans spans' : Spans) {n : Expr}
    (h : n.Alike (name.node spans)) : n.Alike (name.node spans') := by
  cases h with
  | name hid =>
    cases hid
    exact .name .identifier

mutual

/-- What is alike the node of an operator tree is so wherever the node stands. -/
theorem OpTree.alike_node (spans spans' : Spans) : (t : OpTree) → {n : Expr} →
    n.Alike (t.node spans) → n.Alike (t.node spans')
  | .head h, _, halike => h.alike_node spans spans' halike
  | .paren inner, _, halike => inner.alike_node spans spans' halike
  | .binary _ left right, _, .binary hleft hop hright =>
    .binary (left.alike_node _ _ hleft) hop (right.alike_node _ _ hright)
  | .unary _ operand, _, .unary hop hoperand => .unary hop (operand.alike_node _ _ hoperand)
  | .post _ operand, _, .post hoperand hop => .post (operand.alike_node _ _ hoperand) hop
  | .conditional test body orelse, _, .conditional htest hbody horelse =>
    .conditional (test.alike_node _ _ htest) (body.alike_node _ _ hbody)
      (orelse.alike_node _ _ horelse)
  | .assignment _ target value, _, .assignment htarget hop hvalue =>
    .assignment (target.alike_node _ _ htarget) hop (value.alike_node _ _ hvalue)
  | .index receiver inner, _, .index hreceiver hinner =>
    .index (receiver.alike_node _ _ hreceiver) (inner.alike_node _ _ hinner)
  | .member receiver selected, _, .member hreceiver hselected =>
    .member (receiver.alike_node _ _ hreceiver) (selected.alike_node _ _ hselected)

theorem OpHead.alike_node (spans spans' : Spans) : (h : OpHead) → {n : Expr} →
    n.Alike (h.node spans) → n.Alike (h.node spans')
  | .name name, _, halike => name.alike_node _ _ halike
  | .call name args, _, .call hfunc hargs =>
    .call (name.alike_node _ _ hfunc) (args.alike_node _ _ hargs)

theorem OpTrees.alike_node (spans spans' : Spans) : (ts : OpTrees) → {ns : Nodes .expr} →
    ns.Alike (ts.node spans) → ns.Alike (ts.node spans')
  | .nil, _, .nil => .nil
  | .cons first others, _, .cons hfirst hothers =>
    .cons (first.alike_node _ _ hfirst) (others.alike_node _ _ hothers)

end

namespace OpTree

variable {t : OpTree}

/-- The tree of a whole source that is an expression. -/
theorem readWhole_over (t : OpTree) :
    (Phrase.expressionStart.over [t.tree]).readWhole = .ok ⟨.expr, t.meaning⟩ := by
  have hphrases : (Phrase.expressionStart.over [t.tree]).phrases.head? = some t.tree := by simp
  change (Phrase.expressionStart.over [t.tree]).readOnly (·.readAny .expr) = _
  rw [Tree.readOnly, hphrases]
  change t.tree.readAny .expr = _
  rw [Tree.readAny, t.read_tree]
  rfl

/-- A tree that is the one of an operator tree but for where it stands is read as its node. -/
theorem readWhole_of_unplaced {tree : Tree}
    (h : tree.unplaced = Phrase.expressionStart.over [t.tree]) :
    ∃ n, tree.readWhole = .ok n ∧ n.Alike ⟨.expr, t.meaning⟩ := by
  have hagree : Agree AnyNode.Alike tree.readWhole (Except.ok ⟨.expr, t.meaning⟩) := by
    rw [← t.readWhole_over]
    refine Tree.readWhole_agree ?_
    rw [h, Phrase.unplaced_over, List.map_cons, t.unplaced_tree, List.map_nil]
  generalize tree.readWhole = m at hagree
  cases hagree with
  | ok h => exact ⟨_, rfl, h⟩

/-- A source that lexes to the symbols of a layered tree has its parse tree. -/
theorem parseTree_of_lexes {source : String} (hlayered : t.Layered)
    (hlexes : Lexes source.toList t.symbols) : ∃ enough, ∀ limit, enough ≤ limit →
      ∃ tree, parseTree .expr limit source = .ok tree ∧
        tree.unplaced = Phrase.expressionStart.over [t.tree] := by
  obtain ⟨ts, htokens, hunplaced⟩ := hlexes.tokenize
  obtain ⟨s, enough, hparts, hrun⟩ := run_symbols hlayered
  refine ⟨enough, fun limit hlimit => ?_⟩
  have hcommutes : Rule.expressionStart.run (Source.ofTokens ts).unplaced limit ⟨0, 0, [], []⟩ =
      (Rule.expressionStart.run (.ofTokens ts) limit ⟨0, 0, [], []⟩).unplaced :=
    Rule.run_unplaced .expressionStart ⟨0, 0, [], []⟩
  rw [hunplaced] at hcommutes
  have hrun := hcommutes.symm.trans (hrun limit hlimit)
  have hparse : parseTree .expr limit source =
      (Rule.expressionStart.run (.ofTokens ts) limit ⟨0, 0, [], []⟩).verdict limit ts :=
    parseTree_of_tokenize htokens
  cases hactual : Rule.expressionStart.run (.ofTokens ts) limit ⟨0, 0, [], []⟩ with
  | refused place why memo =>
    rw [hactual] at hrun
    cases hrun
  | done value s' =>
    rw [hactual] at hrun hparse
    have hs : s'.unplaced = s := (Outcome.done.inj hrun).2
    rw [← hs] at hparts
    obtain ⟨tree, htree, hover⟩ := List.map_eq_singleton_iff.mp hparts
    refine ⟨tree, ?_, hover⟩
    rw [hparse, Outcome.verdict, htree]
    rfl

/-- **A source that lexes to the symbols of a layered tree is parsed to its node**, wherever the
limit is not met. -/
theorem parse_of_lexes {source : String} {limit : Nat} (hlayered : t.Layered)
    (hlexes : Lexes source.toList t.symbols)
    (hlimit : (parseTreeWithin .expr limit source).isOk) :
    ∃ n, parse .expr limit source = .ok n ∧ n.Alike ⟨.expr, t.meaning⟩ := by
  obtain ⟨enough, hparse⟩ := parseTree_of_lexes hlayered hlexes
  obtain ⟨tree, hlarge, hover⟩ := hparse (max limit enough) (Nat.le_max_right ..)
  obtain ⟨n, hread, hn⟩ := readWhole_of_unplaced hover
  refine ⟨n, ?_, hn⟩
  rw [parse, parseTree_of_isOk (Nat.le_max_left ..) hlimit hlarge]
  change tree.readWhole.mapError Failure.node = _
  rw [hread]
  rfl

end OpTree

end JavaSource
