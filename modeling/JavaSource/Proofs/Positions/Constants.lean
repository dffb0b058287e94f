import JavaSource.Proofs.Guards
import JavaSource.Proofs.Positions.Values
import JavaSource.Proofs.Positions.Written
import JavaSource.Proofs.Sameness

/-!
# Constants of labels

A switch expression with one rule, whose only item is an expression: `switch (a) { case e: b(); }`.
The item is read in front of a colon or of an arrow as the expression is read alone, unless it may
be taken for a pattern, or the arrow for that of a lambda (`MayBeConstant`).

* `RuleBody.parse_constant`: what else is taken as a conditional is printed and parsed there.
-/

namespace JavaSource

open Grammar (Symbol Rule Scanned endsInHead)

variable {e v : Expr} {ss : List Symbol} {t : Tree} {text : String} {indent : Nat}

/-- A rule with a constant. -/
def Node.constantRule (e : Expr) (isArrow : Bool) (body : Nodes .stmt) : Node .switchRule :=
  .switchRule none false (.cons (.exprItem e) .nil) isArrow body

/-- A text is a constant in front of a colon or of an arrow: it is no pattern at its start, and does
not end in what the arrow may make a lambda of. -/
def MayBeConstant (isArrow : Bool) (text : String) : Prop :=
  ∃ ss, LexesStated text ss ∧
    (∀ parts n, ¬ Rule.pattern.Takes (.ofSymbols (ss ++ [Symbol.final])) 0 parts n) ∧
    if isArrow then endsInHead ss = false else SetsOff ':' ss

/-- The label of a constant. -/
def Tree.constantLabel (t : Tree) : Tree := Phrase.switchLabel.over [TokenKind.caseKw.leaf, t]

mutual

/-- What stands nowhere has no places to lose. -/
theorem Tree.unplaced_unplaced : (t : Tree) → t.unplaced.unplaced = t.unplaced
  | .leaf _        => rfl
  | .node k ps _ _ => congrArg (Tree.node k · default default) (unplacedAll_unplacedAll ps)

theorem Tree.unplacedAll_unplacedAll : (ts : List Tree) →
    unplacedAll (unplacedAll ts) = unplacedAll ts
  | []      => rfl
  | t :: ts => congrArg₂ List.cons (unplaced_unplaced t) (unplacedAll_unplacedAll ts)

end

/-- What is read is read without places as well. -/
theorem Tree.read_unplaced {c : Category} {goal : Goal c} {n : Node c} (h : t.read goal = .ok n) :
    ∃ n', t.unplaced.read goal = .ok n' ∧ n'.Alike n := by
  have hagree : Agree Node.Alike (t.unplaced.read goal) (t.read goal) :=
    (Part.alike_ofTree t.unplaced_unplaced).read goal
  rw [h] at hagree
  generalize t.unplaced.read goal = r at hagree ⊢
  cases hagree with
  | ok halike => exact ⟨_, rfl, halike⟩

/-! ### Printing -/

namespace RuleBody

variable (b : RuleBody) (value : OpTree)

/-- The symbols of a rule with a constant. -/
def constantSymbols (ss : List Symbol) : List Symbol :=
  TokenKind.caseKw.symbol :: ss ++ b.symbols

/-- The symbols of a switch with one. -/
def choosingSymbols (ss : List Symbol) : List Symbol :=
  TokenKind.switchKw.symbol :: value.condition ++
    (TokenKind.lbrace.symbol :: b.constantSymbols ss ++ [TokenKind.rbrace.symbol])

/-- The parse tree of the body of a switch with one. -/
def constantBlock (t : Tree) : Tree :=
  Phrase.switchBlock.over [TokenKind.lbrace.leaf, b.tree t.constantLabel, TokenKind.rbrace.leaf]

/-- The parse tree of the switch. -/
def choosingTree (t : Tree) : Tree :=
  Phrase.switchExpression.over
    (TokenKind.switchKw.leaf :: value.conditionParts ++ [b.constantBlock t])

/-- **A switch with a constant is written as its symbols**, where the constant is. -/
theorem lexes_choosing (spans spans' : Spans)
    (hwritten : (Doc.concat e.docs).LexesAt indent 1 (Edge.any.Holds ·) (StartsOff ss) ss)
    (hfront : SetsOff (if b.isArrow then ' ' else ':') ss) :
    (Doc.concat (Node.choosing (value.node spans)
      (.constantRule e b.isArrow (b.node spans'))).docs).LexesAt indent 0 (Edge.any.Holds ·)
        (Edge.any.Holds ·) (b.braced.choosingSymbols value ss) := by
  have hhead := Doc.Lexes.caseHead.here.append hwritten
  have hrule := (hhead.append (b.lexesAt spans' (StartsOff.cons hfront))).concat
  refine (Doc.LexesAt.switch value spans hrule).concat.of_eq ?_
  simp [choosingSymbols, constantSymbols, OpTree.condition]

/-! ### Matching -/

section

variable {source rest : List Symbol} (hscan : Scanned (ss ++ [Symbol.final]))
  (hscan' : Scanned source)
  (hitem : Rule.caseItem.Takes (.ofSymbols (ss ++ [Symbol.final])) 0 [t] ss.length)
  (hfree : b.isArrow = true → endsInHead ss = false)

include hscan hscan' hitem hfree

/-- An item is the same in front of what stands behind the label. -/
theorem matches_constant : Rule.caseItem.Matches source ss [t] (b.symbols ++ rest) := by
  have hscan : Scanned ([] ++ (ss ++ [Symbol.final])) := hscan
  refine .of_takes_within hscan hscan' rfl (b.isStopper rest) rfl (fun before => ?_) ?_
  · change Grammar.Window.slack ⟨ss, [], [Symbol.final], before, b.symbols ++ rest⟩ = 0
    rw [Grammar.Window.slack]
    cases b with
    | colon body => rfl
    | value e | block body => rw [hfree rfl, Bool.and_false, cond_false]
  · rw [List.length_nil, Nat.zero_add]
    exact hitem

/-- So the switch is read. -/
theorem matches_choosing (hsettled : b.Settled)
    (heq : source = b.choosingSymbols value ss ++ [Symbol.final]) :
    Rule.expressionStart.Matches source (b.choosingSymbols value ss)
      [Phrase.expressionStart.over [b.choosingTree value t]] [Symbol.final] := by
  have hlabel {rest} : Rule.switchLabel.Matches source (TokenKind.caseKw.symbol :: ss)
      [t.constantLabel] (b.symbols ++ (TokenKind.rbrace.symbol :: rest)) :=
    Grammar.matches_switchLabel hscan' (b.ne_comma _) (ne_nil_of_stops (b.isStopper _))
      (b.matches_constant hscan hscan' hitem hfree)
  have hne : [Symbol.final] ≠ [] := List.cons_ne_nil _ _
  have hblock := Grammar.matches_switchBlock hscan' hne (matches_switchEntry hscan' hsettled hlabel)
  subst heq
  exact Grammar.matches_expressionStart hscan' rfl
    (Grammar.matches_switchExpression hscan' hne hblock)

end

/-! ### Reading -/

section

variable (ht : t.phrase?.isSome = true) (hunplaced : t.unplaced = t)

include hunplaced

theorem unplaced_constantLabel : t.constantLabel.unplaced = t.constantLabel := by
  simp only [Tree.constantLabel, Phrase.unplaced_over, List.map_cons, List.map_nil,
    TokenKind.unplaced_leaf, hunplaced]

theorem unplaced_constantBlock : (b.constantBlock t).unplaced = b.constantBlock t := by
  simp only [constantBlock, Phrase.unplaced_over, List.map_cons, List.map_nil,
    TokenKind.unplaced_leaf, b.unplaced_tree (unplaced_constantLabel hunplaced)]

theorem unplaced_choosingTree :
    (Phrase.expressionStart.over [b.choosingTree value t]).unplaced =
      Phrase.expressionStart.over [b.choosingTree value t] := by
  simp only [choosingTree, OpTree.conditionParts, Phrase.unplaced_over, List.map_cons,
    List.map_append, List.map_nil, TokenKind.unplaced_leaf, value.grouped.unplaced_tree,
    b.unplaced_constantBlock hunplaced]

include ht

/-- The label is read as the constant. -/
theorem readsLabel_constant (hread : t.read .expr = .ok v) :
    ReadsLabel t.constantLabel (.cons (.exprItem v) .nil) where
  unplaced := unplaced_constantLabel hunplaced
  phrase := rfl
  hasToken := by
    cases t with
    | leaf _ => cases ht
    | node => rfl
  read := by
    have hitem : t.read .caseItem = .ok (.exprItem v) := by
      have hexpr : t.opened.expr = .ok v := by
        rwa [Tree.read_eq] at hread
      rw [Tree.read_eq]
      change t.opened.caseItem t.opened.expr = _
      rw [Opened.caseItem, Tree.tree_opened]
      split
      · exact absurd ‹_› (Tree.phrase?_of_expr hread (by decide))
      · exact absurd ‹_› (Tree.phrase?_of_expr hread (by decide))
      · rw [hexpr]
        rfl
    have hphrases : t.constantLabel.phrases = [t] := by simp [Tree.constantLabel, ht]
    rw [Tree.read_eq]
    change Part.readAll .caseItem t.constantLabel.opened.phrases = _
    rw [Tree.readAll_phrases, hphrases, List.mapM_cons, hitem]
    rfl

/-- **The switch is read with the constant.** -/
theorem readWhole_choosing (hread : t.read .expr = .ok v) :
    (Phrase.expressionStart.over [b.choosingTree value t]).readWhole =
      .ok ⟨.expr, .switchExpr (some noSpan) value.meaning (.cons (.switchRule (some noSpan) false
        (.cons (.exprItem v) .nil) b.isArrow (b.node .nowhere)) .nil)⟩ := by
  have hswitch : (b.choosingTree value t).read .expr = .ok _ :=
    value.read_switch rfl (b.unplaced_constantBlock hunplaced)
      (b.allRules_over (readsLabel_constant ht hunplaced hread))
  change (b.choosingTree value t).readAny .expr = _
  rw [Tree.readAny, hswitch]
  rfl

end

/-! ### Parsing -/

/-- **A conditional is printed as the constant of a rule, and parsed to it**, if it is printed and
parsed alone. -/
theorem parse_constant (hwrite : (Doc.concat e.docs).write indent 1 "" = .ok text)
    (hstated : LexesStated text ss) (hconstant : MayBeConstant b.isArrow text)
    (htakes : Rule.ternary.Takes (.ofSymbols (ss ++ [Symbol.final])) 0 [t.unplaced] ss.length)
    (ht : t.phrase?.isSome = true) (hread : t.read .expr = .ok v) (halike : v.Alike e)
    (spans spans' : Spans) :
    ∃ source, (Node.choosing (value.node spans)
        (.constantRule e b.isArrow (b.node spans'))).print indent = .ok source ∧
      ∀ limit, (parseTreeWithin .expr limit source).isOk → ∃ n, parse .expr limit source = .ok n ∧
        n.Alike ⟨.expr, .choosing (value.node spans)
          (.constantRule e b.isArrow (b.node spans').braced)⟩ := by
  obtain ⟨ss', hstated', hpattern, hfront⟩ := hconstant
  obtain rfl := hstated.1.unique hstated'.1
  have hfree : b.braced.isArrow = true → endsInHead ss = false := fun harrow => by
    rwa [if_pos (b.isArrow_braced ▸ harrow)] at hfront
  have hoff : SetsOff (if b.isArrow then ' ' else ':') ss := by
    cases harrow : b.isArrow with
    | true => exact ⟨by decide, nofun⟩
    | false => rwa [harrow] at hfront
  obtain ⟨source, hsource, hlexes⟩ :=
    (b.lexes_choosing value spans spans' (.of_write hwrite hstated) hoff).render trivial
  refine ⟨source, hsource, fun limit hlimit => ?_⟩
  have hitem := Grammar.caseItem_of_ternary hstated.1.scanned htakes hpattern
  have hstart : Mode.expr.start.Takes _ 0 _ _ := b.braced.matches_choosing value
    hstated.1.scanned hlexes.scanned hitem hfree b.settled_braced rfl 0 rfl
  obtain ⟨v', hread', halike'⟩ := Tree.read_unplaced hread
  have hphrase : t.unplaced.phrase?.isSome = true := by rwa [Tree.phrase?_unplaced]
  have hwhole := b.braced.readWhole_choosing value hphrase t.unplaced_unplaced hread'
  rw [← b.braced.unplaced_choosingTree value t.unplaced_unplaced] at hstart
  obtain ⟨_, hn, ⟨hn'⟩⟩ := parse_of_takes hlexes hstart hwhole hlimit
  refine ⟨_, hn, .mk ?_⟩
  rw [b.isArrow_braced] at hn'
  cases hn' with
  | switchExpr hvalue hrules =>
    cases hrules with
    | cons hrule hnil =>
      cases hrule with
      | switchRule hcases hbody =>
        cases hcases with
        | cons hconstant hnone =>
          cases hconstant with
          | exprItem hconstant =>
            exact .switchExpr (value.alike_node _ _ hvalue) (.cons (.switchRule (.cons (.exprItem
              (hconstant.trans (halike'.trans halike))) hnone) (b.alike_braced _ _ hbody)) hnil)

end RuleBody

end JavaSource
