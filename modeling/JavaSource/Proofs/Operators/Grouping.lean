import JavaSource.Proofs.Operators.Tree

/-!
# Grouping

`OpTree.grouped` puts parentheses where an operand needs them.  It leaves the meaning as it is
(`OpTree.node_grouped`), its result is layered (`OpTree.layered_grouped`), and at the top it never
stands in parentheses (`OpTree.level_grouped`).
-/

namespace JavaSource

open Text (Span)

theorem Level.rank_injective {a b : Level} (h : a.rank = b.rank) : a = b := by
  cases a <;> cases b <;> first | rfl | cases h

theorem Level.rank_le_primary (l : Level) : l.rank ≤ Level.primary.rank := by
  cases l <;> decide

namespace Context

variable {context : Context} {level : Level}

theorem le_of_needsParens (h : context.needsParens level = false) :
    context.level.rank ≤ level.rank := by
  rw [needsParens, Bool.or_eq_false_iff, decide_eq_false_iff_not] at h
  exact Nat.not_lt.mp h.1

theorem lt_of_needsParens (h : context.needsParens level = false)
    (hequal : context.orEqual = false) : context.level.rank < level.rank := by
  refine Nat.lt_of_le_of_ne (le_of_needsParens h) fun heq => ?_
  rw [needsParens, Level.rank_injective heq, hequal] at h
  simp at h

end Context

namespace OpTree

variable {context : Context} {t : OpTree}

theorem node_within (spans : Spans) (context : Context) (t : OpTree) :
    (t.within context).node spans = t.node spans := by
  rw [within]
  split
  · rfl
  · rfl

theorem layered_within (h : t.Layered) : (t.within context).Layered := by
  rw [within]
  split
  · exact h
  · exact h

theorem le_rank_within (context : Context) : context.level.rank ≤ (t.within context).rank := by
  rw [within]
  split
  · exact context.level.rank_le_primary
  · exact Context.le_of_needsParens (Bool.eq_false_iff.mpr ‹_›)

theorem lt_rank_within (context : Context) (hequal : context.orEqual = false)
    (hlevel : context.level.rank < Level.primary.rank) :
    context.level.rank < (t.within context).rank := by
  rw [within]
  split
  · exact hlevel
  · exact Context.lt_of_needsParens (Bool.eq_false_iff.mpr ‹_›) hequal

end OpTree

mutual

/-- Grouping leaves the meaning as it is. -/
theorem OpTree.node_grouped :
    (t : OpTree) → (spans : Spans) → t.grouped.node spans = t.node spans
  | .head h, spans => h.node_grouped spans
  | .paren inner, spans => inner.node_grouped spans
  | .binary op left right, _ => by
    simp only [OpTree.grouped, OpTree.node, OpTree.node_within, left.node_grouped,
      right.node_grouped]
  | .unary op operand, _ => by
    simp only [OpTree.grouped, OpTree.node, OpTree.node_within, operand.node_grouped]
  | .post op operand, _ => by
    simp only [OpTree.grouped, OpTree.node, OpTree.node_within, operand.node_grouped]
  | .conditional test body orelse, _ => by
    simp only [OpTree.grouped, OpTree.node, OpTree.node_within, test.node_grouped,
      body.node_grouped, orelse.node_grouped]
  | .assignment op target value, _ => by
    simp only [OpTree.grouped, OpTree.node, OpTree.node_within, target.node_grouped,
      value.node_grouped]
  | .index receiver inner, _ => by
    simp only [OpTree.grouped, OpTree.node, OpTree.node_within, receiver.node_grouped,
      inner.node_grouped]
  | .member receiver selected, _ => by
    simp only [OpTree.grouped, OpTree.node, OpTree.node_within, receiver.node_grouped,
      selected.node_grouped]

theorem OpHead.node_grouped :
    (h : OpHead) → (spans : Spans) → h.grouped.node spans = h.node spans
  | .name _, _ => rfl
  | .call name args, _ => by simp only [OpHead.grouped, OpHead.node, args.node_grouped]

theorem OpTrees.node_grouped :
    (ts : OpTrees) → (spans : Spans) → ts.grouped.node spans = ts.node spans
  | .nil, _ => rfl
  | .cons first others, _ => by
    simp only [OpTrees.grouped, OpTrees.node, first.node_grouped, others.node_grouped]

end

theorem BinaryOp.level_lt_unary (op : BinaryOp) : op.level.rank < Level.unary.rank := by
  cases op <;> decide

theorem BinaryOp.level_lt_primary (op : BinaryOp) : op.level.rank < Level.primary.rank :=
  Nat.lt_trans op.level_lt_unary (by decide)

mutual

/-- Grouping leaves no operand without the parentheses that it needs. -/
theorem OpTree.layered_grouped : (t : OpTree) → t.grouped.Layered
  | .head h => h.layered_grouped
  | .paren inner => inner.layered_grouped
  | .binary op left right => ⟨OpTree.le_rank_within ⟨op.level, true⟩,
    OpTree.lt_rank_within ⟨op.level, false⟩ rfl op.level_lt_primary,
    OpTree.layered_within left.layered_grouped, OpTree.layered_within right.layered_grouped⟩
  | .unary _ operand =>
    ⟨OpTree.le_rank_within ⟨.unary, true⟩, OpTree.layered_within operand.layered_grouped⟩
  | .post _ operand =>
    ⟨OpTree.le_rank_within ⟨.post, true⟩, OpTree.layered_within operand.layered_grouped⟩
  | .conditional test body orelse =>
    ⟨OpTree.lt_rank_within ⟨.ternary, false⟩ rfl (by decide),
      OpTree.le_rank_within ⟨.ternary, true⟩, OpTree.layered_within test.layered_grouped,
      body.layered_grouped, OpTree.layered_within orelse.layered_grouped⟩
  | .assignment _ target value =>
    ⟨OpTree.lt_rank_within ⟨.assignment, false⟩ rfl (by decide),
      OpTree.layered_within target.layered_grouped, OpTree.layered_within value.layered_grouped⟩
  | .index receiver inner =>
    ⟨OpTree.le_rank_within .primary, OpTree.layered_within receiver.layered_grouped,
      inner.layered_grouped⟩
  | .member receiver selected =>
    ⟨OpTree.le_rank_within .primary, OpTree.layered_within receiver.layered_grouped,
      selected.layered_grouped⟩

theorem OpHead.layered_grouped : (h : OpHead) → h.grouped.Layered
  | .name _ => trivial
  | .call _ args => args.layered_grouped

theorem OpTrees.layered_grouped : (ts : OpTrees) → ts.grouped.Layered
  | .nil => trivial
  | .cons first others => ⟨first.layered_grouped, others.layered_grouped⟩

end

/-- What is grouped holds together as tightly as what it means. -/
theorem OpTree.level_grouped (spans : Spans) :
    (t : OpTree) → (t.node spans).level = t.grouped.level
  | .head (.name _) => rfl
  | .head (.call ..) => rfl
  | .paren inner => inner.level_grouped spans
  | .binary .. => rfl
  | .unary .. => rfl
  | .post .. => rfl
  | .conditional .. => rfl
  | .assignment .. => rfl
  | .index .. => rfl
  | .member .. => rfl

end JavaSource
