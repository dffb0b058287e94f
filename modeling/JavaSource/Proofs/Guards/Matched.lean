import JavaSource.Proofs.Guards.Tree
import JavaSource.Proofs.Operators.Heads
import JavaSource.Proofs.Statements.Matched
import JavaSource.Proofs.Types.Declarations

/-!
# Guard trees in any source

A switch is read of its symbols in any source, as a statement (`SwitchTree.matches_statementStart`)
and as an expression (`SwitchTree.matches_expressionStart`).  The conjunction of a guard is read up
to a colon or an arrow, whichever ends the label.
-/

namespace JavaSource

open Grammar (Symbol Rule Scanned Ends Faces Entered Entry Stand Move Source kindAhead
  StartsStatement EndsType)

variable {ss rest : List Symbol}

theorem Grammar.length_lt_append_cons (front : List Symbol) (x : Symbol) (rest : List Symbol) :
    rest.length < (front ++ x :: rest).length := by
  rw [List.length_append, List.length_cons]
  omega

/-! ### Labels -/

theorem ne_nil_of_stops (hstops : rest.head?.any (·.kind.isStopper) = true) : rest ≠ [] := by
  rintro rfl
  cases hstops

/-- A label with one item. -/
theorem Grammar.matches_switchLabel {front : List Symbol} {item : Tree} (hscan : Scanned ss)
    (hcomma : (kindAhead rest 0 == .comma) = false) (hne : rest ≠ [])
    (hitem : Rule.caseItem.Matches ss front [item] rest) :
    Rule.switchLabel.Matches ss (TokenKind.caseKw.symbol :: front)
      [Phrase.switchLabel.over [TokenKind.caseKw.leaf, item]] rest :=
  .of_production hscan hne fun i s he h => by
    have h : Faces ss [] (TokenKind.caseKw.symbol :: (front ++ rest)) s := h
    refine .bind (h.eatNone rfl (h.expect rfl rfl fun h => ?_))
    refine h.read hitem (he.fewer h (Nat.lt_succ_self _)) fun h => ?_
    exact .loop (.stop (h.eatNone hcomma (.pure ⟨rfl, h.closeLast rfl⟩)))

namespace PatternTree

variable {p : PatternTree}

/-- What a pattern starts with. -/
theorem ne_nil (p : PatternTree) (rest : List Symbol) : p.symbols ++ rest ≠ [] := by
  refine List.append_ne_nil_of_left_ne_nil ?_ rest
  rw [symbols, ← List.append_assoc]
  exact List.append_ne_nil_of_right_ne_nil _ (List.cons_ne_nil _ _)

/-- `final`, or no modifier at all. -/
theorem matches_modifiers (hplain : p.type.StartsPlain) (hscan : Scanned ss) :
    Rule.modifiers.Matches ss (if p.isFinal then [TokenKind.finalKw.symbol] else [])
      (if p.isFinal then [Phrase.modifiers.over [TokenKind.finalKw.leaf]] else [])
      (p.type.symbols false ++ rest) := by
  have hstarts := TypeTree.startsType hplain false rest
  cases p.isFinal with
  | false => exact hstarts.matches_modifiers hscan
  | true =>
    refine .of_production hscan hstarts.ne_nil fun i s he h => .ahead ?_
    have h : Faces ss [] (TokenKind.finalKw.symbol :: (p.type.symbols false ++ rest)) s := h
    have hmodifier : ((Source.ofSymbols ss).view s).isAtModifierWord = true := by
      rw [Grammar.Ahead.isAtModifierWord, h.kind_eq]
      rfl
    rw [Grammar.Ahead.startsModifier, hmodifier]
    refine .loopThen (.go (.ahead ?_))
    rw [hmodifier]
    refine h.take rfl fun {s'} h' => .pure ⟨rfl, ?_, .stop (.ahead ?_)⟩
    · exact h.read_lt_read h' (Nat.lt_succ_self _)
    · obtain ⟨hword, hmark⟩ := (Bool.or_eq_false_iff ..).mp (hstarts.startsModifier h')
      rw [hword, hmark]
      exact .pure ⟨rfl, h'.closeLast rfl⟩

/-- A pattern. -/
theorem matches_pattern (hplain : p.type.StartsPlain) (hscan : Scanned ss) (hne : rest ≠ []) :
    Rule.pattern.Matches ss p.symbols [p.tree] rest :=
  .of_production hscan hne fun i s he h => by
    have hassoc : p.symbols ++ rest = (if p.isFinal then [TokenKind.finalKw.symbol] else []) ++
        (p.type.symbols false ++ (p.id.symbol :: rest)) := by simp [symbols]
    have hne' := p.ne_nil rest
    rw [hassoc] at he h hne'
    have hpos := p.type.length_symbols_pos false
    have hends : EndsType (p.id.symbol :: rest) := rfl
    have htype := @TypeTree.matches_type ss _ false hscan (List.cons_ne_nil _ _) hends p.type
    refine h.read (matches_modifiers hplain hscan) (he.same h hne' (by decide)) fun {s'} h => ?_
    have hallows : Entry.Allows (.pattern, i) .type s'.read := by
      cases hfinal : p.isFinal with
      | false =>
        rw [hfinal] at he
        exact he.same h (TypeTree.startsType hplain false _).ne_nil (by decide)
      | true =>
        rw [hfinal] at he
        exact he.fewer h (Nat.lt_succ_self _)
    refine h.read htype hallows fun h => h.expect rfl rfl fun h => h.closeLast ?_
    cases p.isFinal <;> rfl

end PatternTree

namespace GuardTree

variable {g : GuardTree}

theorem matches_caseItem (hplain : g.pattern.type.StartsPlain) (hscan : Scanned ss)
    (hstops : rest.head?.any (·.kind.isStopper) = true) :
    Rule.caseItem.Matches ss g.symbols [g.tree] rest := by
  refine .of_production hscan (ne_nil_of_stops hstops) fun i s he h => ?_
  have hassoc : g.symbols ++ rest =
      g.pattern.symbols ++ (whenName.symbol :: (g.conjunction.symbols ++ rest)) := by
    simp [symbols]
  rw [hassoc] at he h
  have hpattern : Grammar.Probe.pattern.rule.Matches ss g.pattern.symbols [g.pattern.tree]
      (whenName.symbol :: (g.conjunction.symbols ++ rest)) :=
    PatternTree.matches_pattern hplain hscan (List.cons_ne_nil _ _)
  have hguard := OpTree.matches_binary hscan g.layered_conjunction g.lt_rank_conjunction hstops
  have hallows := he.same h (g.pattern.ne_nil _) (r := .pattern) (by decide)
  refine h.attempt hpattern hallows (h.read hpattern hallows fun {s'} h => .ahead ?_)
  have h : Faces ss [g.pattern.tree] (whenName.symbol :: (g.conjunction.symbols ++ rest)) s' := h
  have hwhen : ((Source.ofSymbols ss).view s').isAtWord "when" = true := by
    change (((Source.ofSymbols ss).view s').at_ 0).isWord "when" = true
    rw [h.at_eq]
    rfl
  rw [hwhen]
  exact h.take rfl fun h => h.read hguard (he.fewer h (Grammar.length_lt_append_cons ..)) fun h =>
    h.closeLast rfl

/-- A label with a guard. -/
theorem matches_switchLabel (hplain : g.pattern.type.StartsPlain) (hscan : Scanned ss)
    (hstops : rest.head?.any (·.kind.isStopper) = true)
    (hcomma : (kindAhead rest 0 == .comma) = false) :
    Rule.switchLabel.Matches ss (TokenKind.caseKw.symbol :: g.symbols) [g.label] rest :=
  Grammar.matches_switchLabel hscan hcomma (ne_nil_of_stops hstops)
    (matches_caseItem hplain hscan hstops)

end GuardTree

/-! ### Rules -/

theorem RuleBody.isStopper (b : RuleBody) (rest : List Symbol) :
    (b.symbols ++ rest).head?.any (·.kind.isStopper) = true := by
  cases b <;> rfl

theorem RuleBody.ne_comma (b : RuleBody) (rest : List Symbol) :
    (kindAhead (b.symbols ++ rest) 0 == .comma) = false := by
  cases b <;> rfl

/-- The label of a group does not start where a statement does, nor where a block ends. -/
theorem Grammar.Faces.startsLabel {parts : List Tree} {s : Stand} (h : Faces ss parts rest s)
    (hcase : (kindAhead rest 0 == .caseKw) = false)
    (hdefault : (kindAhead rest 0 == .defaultKw) = false) :
    Grammar.Production.startsLabel ((Source.ofSymbols ss).view s) = false := by
  rw [Grammar.Production.startsLabel, h.isAt_eq, h.isAt_eq, hcase, hdefault]
  rfl

theorem Grammar.StartsStatement.startsLabel {parts : List Tree} {s : Stand}
    (h : StartsStatement rest) (hs : Faces ss parts rest s) :
    Grammar.Production.startsLabel ((Source.ofSymbols ss).view s) = false := by
  rcases h with hkind | ⟨n, rest', rfl, -⟩
  · exact hs.startsLabel (Grammar.test_of_mem hkind (· == .caseKw) rfl)
      (Grammar.test_of_mem hkind (· == .defaultKw) rfl)
  · exact hs.startsLabel rfl rfl

namespace RuleBody

variable {front : List Symbol} {label : Tree}

/-- A label and a colon, and statements up to the brace that ends the switch. -/
theorem matches_colon {body : StmtTrees} (hscan : Scanned ss) (hsettled : body.Settled)
    (hlabel : Rule.switchLabel.Matches ss (TokenKind.caseKw.symbol :: front) [label]
      ((colon body).symbols ++ (TokenKind.rbrace.symbol :: rest))) :
    Rule.switchEntry.Matches ss (TokenKind.caseKw.symbol :: front ++ (colon body).symbols)
      [(colon body).tree label] (TokenKind.rbrace.symbol :: rest) :=
  .of_production hscan (List.cons_ne_nil _ _) fun i s he h => by
    rw [List.append_assoc] at he h
    have hbody := body.matched hscan hsettled (List.cons_ne_nil TokenKind.rbrace.symbol rest) rfl
    refine .notProvided (by rw [Grammar.Production.startsLabel, h.isAt_eq]; rfl) ?_
    refine h.read hlabel (he.same h (List.cons_ne_nil _ _) (by decide)) fun h => ?_
    refine h.eatNone rfl (h.expect rfl rfl fun {s'} h => ?_)
    have h : Faces ss [TokenKind.colon.leaf, label]
      (body.symbols ++ (TokenKind.rbrace.symbol :: rest)) s' := h
    have hnone : Grammar.Production.startsLabel ((Source.ofSymbols ss).view s') = false := by
      cases body with
      | nil => exact h.startsLabel rfl rfl
      | cons first others =>
        rw [StmtTrees.symbols, List.append_assoc] at h
        exact (first.starts _).startsLabel h
    refine .loopThen (.stop (.ahead ?_))
    rw [hnone]
    refine .pure ⟨rfl, .loopThen ?_⟩
    refine body.cycles hscan (List.cons_ne_nil _ _) he (fun hstarts h => ?_) (fun h => ?_) hbody h
      (by grind [symbols]) fun h => h.closeLast (by simp [TokenKind.leaf])
    · rw [hstarts.isInBody h, hstarts.startsLabel h]
      rfl
    · rw [Grammar.Production.isInBody, h.isAt_eq]
      rfl

/-- A label and an arrow, and an expression or a block. -/
theorem matches_arrow {body : List Symbol} {tree : Tree} (hscan : Scanned ss)
    (hlabel : Rule.switchLabel.Matches ss (TokenKind.caseKw.symbol :: front) [label]
      (TokenKind.arrow.symbol :: (body ++ (TokenKind.rbrace.symbol :: rest))))
    (hbody : ∀ {i s}, Entered ss (.switchEntry, i)
        (TokenKind.caseKw.symbol :: front ++ (TokenKind.arrow.symbol :: (body ++
          (TokenKind.rbrace.symbol :: rest)))) →
      Faces ss [TokenKind.arrow.leaf, label] (body ++ (TokenKind.rbrace.symbol :: rest)) s →
      Grammar.Production.ruleBody.Gets (.ofSymbols ss) (.switchEntry, i)
        (fun _ => Faces ss [tree, TokenKind.arrow.leaf, label] (TokenKind.rbrace.symbol :: rest)) s) :
    Rule.switchEntry.Matches ss
      (TokenKind.caseKw.symbol :: front ++ (TokenKind.arrow.symbol :: body))
      [Phrase.switchRule.over [label, TokenKind.arrow.leaf, tree]]
      (TokenKind.rbrace.symbol :: rest) :=
  .of_production hscan (List.cons_ne_nil _ _) fun i s he h => by
    rw [List.append_assoc] at he h
    refine .notProvided (by rw [Grammar.Production.startsLabel, h.isAt_eq]; rfl) ?_
    refine h.read hlabel (he.same h (List.cons_ne_nil _ _) (by decide)) fun h => ?_
    refine h.eat rfl rfl fun h => .bind ((hbody he h).mono fun _ _ h => h.closeLast rfl)

/-- An expression and its semicolon behind an arrow. -/
theorem gets_value (e : OpTree) {total : List Symbol} {parts : List Tree} {i : Nat} {s : Stand}
    (hscan : Scanned ss) (hne : rest ≠ []) (he : Entered ss (.switchEntry, i) total)
    (h : Faces ss parts (e.grouped.symbols ++ [TokenKind.semi.symbol] ++ rest) s)
    (hlt : (e.grouped.symbols ++ [TokenKind.semi.symbol] ++ rest).length < total.length) :
    Grammar.Production.ruleBody.Gets (.ofSymbols ss) (.switchEntry, i)
      (fun _ => Faces ss (Phrase.expressionStatement.over [e.grouped.tree, TokenKind.semi.leaf] ::
        parts) rest) s := by
  have hvalue : Rule.expression.Matches ss e.grouped.symbols [e.grouped.tree]
      (TokenKind.semi.symbol :: rest) := OpTree.matches_symbols hscan e.layered_grouped rfl
  have hstatement : Rule.expressionStatement.Matches ss
      (e.grouped.symbols ++ [TokenKind.semi.symbol])
      [Phrase.expressionStatement.over [e.grouped.tree, TokenKind.semi.leaf]] rest :=
    .of_production hscan hne fun i s he h => by
      rw [List.append_assoc] at he h
      refine h.read hvalue (he.same h ?_ (by decide)) fun h => h.expect rfl rfl fun h =>
        h.closeLast rfl
      exact List.append_ne_nil_of_right_ne_nil _ (List.cons_ne_nil _ _)
  refine .ahead ?_
  rw [h.kind_eq, List.append_assoc]
  have hbrace : (kindAhead (e.grouped.symbols ++ ([TokenKind.semi.symbol] ++ rest)) 0 == .lbrace) =
    false := e.grouped.isAt_symbols _ rfl
  have hthrow : (kindAhead (e.grouped.symbols ++ ([TokenKind.semi.symbol] ++ rest)) 0 == .throwKw) =
    false := e.grouped.isAt_symbols _ rfl
  split
  · next hkind => rw [hkind] at hbrace; cases hbrace
  · next hkind => rw [hkind] at hthrow; cases hthrow
  · exact h.readLast hstatement (he.fewer h hlt)

/-- A block behind an arrow. -/
theorem gets_block {body : StmtTrees} {total : List Symbol} {parts : List Tree} {i : Nat}
    {s : Stand} (hscan : Scanned ss) (hsettled : body.Settled) (hne : rest ≠ [])
    (he : Entered ss (.switchEntry, i) total)
    (h : Faces ss parts ((StmtTree.block body).symbols ++ rest) s)
    (hlt : ((StmtTree.block body).symbols ++ rest).length < total.length) :
    Grammar.Production.ruleBody.Gets (.ofSymbols ss) (.switchEntry, i)
      (fun _ => Faces ss ((StmtTree.block body).tree :: parts) rest) s := by
  have hbody := body.matched hscan hsettled (List.cons_ne_nil TokenKind.rbrace.symbol rest) rfl
  refine .ahead ?_
  rw [h.kind_eq]
  exact h.readLast (StmtTrees.matches_block hscan hne hbody) (he.fewer h hlt)

/-- **A label and what stands behind it are read as one entry of a switch.** -/
theorem matches_switchEntry {b : RuleBody} (hscan : Scanned ss) (hsettled : b.Settled)
    (hlabel : Rule.switchLabel.Matches ss (TokenKind.caseKw.symbol :: front) [label]
      (b.symbols ++ (TokenKind.rbrace.symbol :: rest))) :
    Rule.switchEntry.Matches ss (TokenKind.caseKw.symbol :: front ++ b.symbols) [b.tree label]
      (TokenKind.rbrace.symbol :: rest) := by
  cases b with
  | colon body => exact matches_colon hscan hsettled hlabel
  | value e =>
    exact matches_arrow hscan hlabel fun he h =>
      gets_value e hscan (List.cons_ne_nil _ _) he h (Grammar.length_lt_append_cons ..)
  | block body =>
    exact matches_arrow hscan hlabel fun he h =>
      gets_block hscan hsettled (List.cons_ne_nil _ _) he h (Grammar.length_lt_append_cons ..)

end RuleBody

/-! ### Switches -/

/-- **A primary is read as an expression on its own**, if a switch is what starts. -/
theorem Grammar.matches_expressionStart {front : List Symbol} {tree : Tree}
    (hscan : Scanned (front ++ [Symbol.final]))
    (hkind : kindAhead (front ++ [Symbol.final]) 0 = .switchKw)
    (hprimary : Rule.primary.Matches (front ++ [Symbol.final]) front [tree] [Symbol.final]) :
    Rule.expressionStart.Matches (front ++ [Symbol.final]) front
      [Phrase.expressionStart.over [tree]] [Symbol.final] := by
  have hend : [Symbol.final] ≠ [] := List.cons_ne_nil _ _
  have hne : front ++ [Symbol.final] ≠ [] := List.append_ne_nil_of_right_ne_nil _ hend
  have hpostfixed : Rule.postfixed.Matches (front ++ [Symbol.final]) front [tree] [Symbol.final] :=
    .of_production hscan hend fun i s he h => by
      refine h.read hprimary (he.same h hne (by decide)) fun h => .loopThen (.stop (.ahead ?_))
      rw [h.kind_eq]
      refine .pure ⟨rfl, .loop (.stop (.ahead ?_))⟩
      rw [h.isAt_eq, h.isAt_eq]
      exact .pure ⟨rfl, h⟩
  have hunary : Rule.unary.Matches (front ++ [Symbol.final]) front [tree] [Symbol.final] :=
    .of_production hscan hend fun i s he h => by
      refine .nest (.ahead ?_)
      rw [h.kind_eq, hkind]
      exact h.readLast hpostfixed (he.same h hne (by decide))
  have hbinary : (Rule.binary .conditionalOr).Matches (front ++ [Symbol.final]) front [tree]
      [Symbol.final] :=
    .of_production hscan hend fun i s he h => by
      refine h.read hunary (he.same h hne (by decide)) fun {s'} h => .loop (.stop (.ahead ?_))
      have hoperator : ((Source.ofSymbols (front ++ [Symbol.final])).view s').operator =
        (.eof, 1) := Grammar.Stands.operator_eq h
      rw [hoperator]
      exact .pure ⟨rfl, h⟩
  have hternary : Rule.ternary.Matches (front ++ [Symbol.final]) front [tree] [Symbol.final] :=
    .of_production hscan hend fun i s he h => by
      refine h.read hbinary (he.same h hne (by decide)) fun h => ?_
      exact h.eatNone rfl (.pure h)
  have hexpression : Rule.expression.Matches (front ++ [Symbol.final]) front [tree]
      [Symbol.final] :=
    .of_production hscan hend fun i s he h => by
      have hlambda : ((Source.ofSymbols (front ++ [Symbol.final])).view s).startsLambda = false := by
        rw [Grammar.Ahead.startsLambda, h.kind_eq, hkind]
      refine .nest (.ahead ?_)
      rw [hlambda]
      refine h.read hternary (he.same h hne (by decide)) fun h => .ahead ?_
      rw [h.kind_eq]
      exact .pure h
  refine .of_production hscan hend fun i s he h => ?_
  refine h.read hexpression (he.same h hne (by decide)) fun h => .bind (.isAt ?_)
  rw [h.isAt_eq]
  exact .pure (h.closeLast rfl)

section

variable {entry : List Symbol} {value : OpTree} {tree : Tree} {kind : Phrase}

/-- The body of a switch with one rule. -/
theorem Grammar.matches_switchBlock (hscan : Scanned ss) (hne : rest ≠ [])
    (hentry : Rule.switchEntry.Matches ss (TokenKind.caseKw.symbol :: entry) [tree]
      (TokenKind.rbrace.symbol :: rest)) :
    Rule.switchBlock.Matches ss
      (TokenKind.lbrace.symbol :: (TokenKind.caseKw.symbol :: entry) ++ [TokenKind.rbrace.symbol])
      [Phrase.switchBlock.over [TokenKind.lbrace.leaf, tree, TokenKind.rbrace.leaf]] rest :=
  .of_production hscan hne fun i s he h => by
    have hassoc : TokenKind.lbrace.symbol :: (TokenKind.caseKw.symbol :: entry) ++
        [TokenKind.rbrace.symbol] ++ rest = TokenKind.lbrace.symbol ::
          ((TokenKind.caseKw.symbol :: entry) ++ (TokenKind.rbrace.symbol :: rest)) := by simp
    rw [hassoc] at he h
    refine h.expect rfl rfl fun h => .loopThen (.go (.ahead ?_))
    beta_reduce
    rw [h.isAt_eq]
    refine h.read hentry (he.fewer h (Nat.lt_succ_self _)) fun h' => .pure ⟨rfl, ?_, ?_⟩
    · exact h.read_lt_read h' (by grind)
    · refine .stop (.ahead ?_)
      rw [h'.isAt_eq]
      exact .pure ⟨rfl, h'.expect rfl rfl fun h => h.closeLast rfl⟩

/-- The moves that read a switch, as a statement or as an expression. -/
theorem Grammar.gets_switch {e : Entry} {s : Stand} {block : List Symbol} (hscan : Scanned ss)
    (hblock : Rule.switchBlock.Matches ss block [tree] rest)
    (he : Entered ss e (TokenKind.switchKw.symbol :: (value.condition ++ (block ++ rest))))
    (h : Faces ss [] (TokenKind.switchKw.symbol :: (value.condition ++ (block ++ rest))) s) :
    (do Move.take
        Grammar.Production.condition
        Move.read .switchBlock
        Move.close kind).Gets (.ofSymbols ss) e (fun _ => Faces ss
          [kind.over (TokenKind.switchKw.leaf :: value.conditionParts ++ [tree])] rest) s := by
  refine h.take rfl fun h => h.condition hscan he value (by simp) fun h => ?_
  refine h.read hblock (he.fewer h (by grind)) fun h => ?_
  exact h.closeLast (by simp [TokenKind.leaf, OpTree.conditionParts])

/-- A switch as a statement. -/
theorem Grammar.matches_switchStatement {block : List Symbol} (hscan : Scanned ss) (hne : rest ≠ [])
    (hblock : Rule.switchBlock.Matches ss block [tree] rest) :
    Rule.statement.Matches ss (TokenKind.switchKw.symbol :: value.condition ++ block)
      [Phrase.switchStatement.over (TokenKind.switchKw.leaf :: value.conditionParts ++ [tree])]
      rest :=
  .of_production hscan hne fun i s he h => .nest <| .ahead <| by
    rw [h.kind_eq]
    rw [List.append_assoc] at he h
    exact gets_switch hscan hblock he h

/-- A switch as a primary. -/
theorem Grammar.matches_switchExpression {block : List Symbol} (hscan : Scanned ss)
    (hne : rest ≠ []) (hblock : Rule.switchBlock.Matches ss block [tree] rest) :
    Rule.primary.Matches ss (TokenKind.switchKw.symbol :: value.condition ++ block)
      [Phrase.switchExpression.over (TokenKind.switchKw.leaf :: value.conditionParts ++ [tree])]
      rest :=
  .of_production hscan hne fun i s he h => .ahead <| by
    rw [h.kind_eq]
    rw [List.append_assoc] at he h
    exact gets_switch hscan hblock he h

end

namespace SwitchTree

variable {t : SwitchTree}

theorem matches_switchBlock (hplain : t.guard.pattern.type.StartsPlain)
    (hsettled : t.body.Settled) (hscan : Scanned ss) (hne : rest ≠ []) :
    Rule.switchBlock.Matches ss t.blockSymbols [t.blockTree] rest := by
  have hlabel : Rule.switchLabel.Matches ss (TokenKind.caseKw.symbol :: t.guard.symbols)
      [t.guard.label] (t.body.symbols ++ (TokenKind.rbrace.symbol :: rest)) :=
    GuardTree.matches_switchLabel hplain hscan (t.body.isStopper _) (t.body.ne_comma _)
  exact Grammar.matches_switchBlock hscan hne (RuleBody.matches_switchEntry hscan hsettled hlabel)

/-- **A switch is read as a statement.** -/
theorem matches_statementStart (hplain : t.guard.pattern.type.StartsPlain)
    (hsettled : t.body.Settled) (hscan : Scanned (t.symbols ++ [Symbol.final])) :
    Rule.statementStart.Matches (t.symbols ++ [Symbol.final]) t.symbols
      [Phrase.statementStart.over [t.tree .switchStatement]] [Symbol.final] := by
  have hne : [Symbol.final] ≠ [] := List.cons_ne_nil _ _
  have hstatement : Rule.statement.Matches (t.symbols ++ [Symbol.final]) t.symbols
      [t.tree .switchStatement] [Symbol.final] :=
    Grammar.matches_switchStatement hscan hne (matches_switchBlock hplain hsettled hscan hne)
  have hblock := Grammar.matches_blockStatement hscan hne (.inl (List.contains_iff_mem.mp rfl))
    hstatement
  refine .of_production hscan hne fun i s he h => ?_
  refine h.read hblock (he.same h (by simp) (by decide)) fun h => .bind (.isAt ?_)
  rw [h.isAt_eq]
  exact .pure (h.closeLast rfl)

/-- **A switch is read as an expression.** -/
theorem matches_expressionStart (hplain : t.guard.pattern.type.StartsPlain)
    (hsettled : t.body.Settled) (hscan : Scanned (t.symbols ++ [Symbol.final])) :
    Rule.expressionStart.Matches (t.symbols ++ [Symbol.final]) t.symbols
      [Phrase.expressionStart.over [t.tree .switchExpression]] [Symbol.final] := by
  have hne : [Symbol.final] ≠ [] := List.cons_ne_nil _ _
  exact Grammar.matches_expressionStart hscan rfl
    (Grammar.matches_switchExpression hscan hne (matches_switchBlock hplain hsettled hscan hne))

end SwitchTree

end JavaSource
