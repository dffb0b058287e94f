import JavaSource.Proofs.Operators.Follow

/-!
# Operator trees are recognized

The rules for expressions read the symbols of a layered tree up to what follows it, and build its
tree.  A chain of operators or of selectors is read by a loop, from the left: a tree is a start of
such a chain if the loop can go on behind it (`OpTree.Selects`, `OpTree.Suffixes`,
`OpTree.Operates`).

A tree of some level is read by the rule of that level and by those of all looser ones
(`OpTree.Recognized`).

* `OpTree.recognized`: every layered tree is recognized.
-/

namespace JavaSource

namespace Grammar

/-! ### Turns of the loops -/

namespace Production

open Move

/-- One more operator and what stands to the right of it. -/
def operatorTurn (loosest : Layer) : Move Bool := do
  let (op, width) := (← ahead).operator
  match Layer.ofOperator op with
  | none       => return false
  | some layer =>
    if layer.rank < loosest.rank then return false
    else
      operation layer op width
      return true

/-- One more selector. -/
def selectorTurn : Move Bool := do
  match (← ahead).kind with
  | .dot =>
    nest
    take
    read .selected
    close .memberAccess
    return true
  | .lbrack =>
    nest
    take
    read .expression
    expect .rbrack
    close .arrayAccess
    return true
  | .colonColon =>
    nest
    methodReference
    return true
  | _ => return false

/-- One more `++` or `--`. -/
def suffixTurn : Move Bool := do
  let a ← ahead
  if a.isAt .inc || a.isAt .dec then
    nest
    take
    close .postfixed
    return true
  else return false

theorem binary_eq (loosest : Layer) : binary loosest = (do
    read .unary
    loop (operatorTurn loosest)) := rfl

end Production

open Production

variable {ss rest : List Symbol} {parts : List Tree} {s : State} {bound : Nat}

theorem reach?_of_ofOperator {op : TokenKind} {layer : Layer}
    (h : Layer.ofOperator op = some layer) :
    op.reach? = some (layer.rank + Level.ternary.rank) := by
  cases op <;> first
    | (cases h; done)
    | (cases h; rfl)

theorem reach?_of_isAssignment {kind : TokenKind} (h : kind.isAssignment = true) :
    kind.reach? = some Level.assignment.rank := by
  cases kind <;> first
    | (cases h; done)
    | rfl

/-- The loop ends where no operator follows that is tight enough. -/
theorem Stands.stopOperators (h : Stands ss parts rest s) {loosest : Layer}
    (hrest : Follows (loosest.rank + Level.ternary.rank) rest) {Q : State → Prop}
    (hQ : ∀ {s'}, Stands ss parts rest s' → Q s') :
    (operatorTurn loosest).Loops (.ofSymbols ss) bound Q s := by
  obtain ⟨hne, reach, hreach, hlt⟩ := hrest
  refine .stop (h.read_lt hne) (.ahead ?_)
  rw [h.operator_eq]
  split
  rename_i op width hop
  rw [hop] at hreach
  split
  · exact .pure ⟨rfl, hQ h⟩
  · rename_i layer hlayer
    rw [reach?_of_ofOperator hlayer] at hreach
    have hloose : layer.rank < loosest.rank := by
      have := Option.some.inj hreach
      omega
    rw [if_pos hloose]
    exact .pure ⟨rfl, hQ h⟩

/-- The loop ends where no selector follows. -/
theorem Stands.stopSelectors (h : Stands ss parts rest s) (hrest : Follows Level.primary.rank rest)
    {Q : State → Prop} (hQ : ∀ {s'}, Stands ss parts rest s' → Q s') :
    selectorTurn.Loops (.ofSymbols ss) bound Q s := by
  have hdot : kindAhead rest 0 ≠ .dot := hrest.kind_ne rfl
  have hlbrack : kindAhead rest 0 ≠ .lbrack := hrest.kind_ne rfl
  have hreference : kindAhead rest 0 ≠ .colonColon := hrest.kind_ne rfl
  refine .stop (h.read_lt hrest.1) (.ahead ?_)
  rw [h.kind_eq]
  split
  · exact absurd ‹_› hdot
  · exact absurd ‹_› hlbrack
  · exact absurd ‹_› hreference
  · exact .pure ⟨rfl, hQ h⟩

/-- The loop ends where no `++` or `--` follows. -/
theorem Stands.stopSuffixes (h : Stands ss parts rest s) (hrest : Follows Level.post.rank rest)
    {Q : State → Prop} (hQ : ∀ {s'}, Stands ss parts rest s' → Q s') :
    suffixTurn.Loops (.ofSymbols ss) bound Q s := by
  have hinc : kindAhead rest 0 ≠ .inc := hrest.kind_ne rfl
  have hdec : kindAhead rest 0 ≠ .dec := hrest.kind_ne rfl
  refine .stop (h.read_lt hrest.1) (.ahead ?_)
  rw [h.isAt_eq, h.isAt_eq, beq_eq_false_iff_ne.mpr hinc, beq_eq_false_iff_ne.mpr hdec]
  exact .pure ⟨rfl, hQ h⟩

end Grammar

open Grammar Grammar.Production

namespace OpTree

variable {ss rest : List Symbol} {t : OpTree} {s : State} {bound : Nat}

/-! ### What it is to be recognized -/

/-- The loop of selectors goes on behind a tree. -/
structure Selects (ss : List Symbol) (t : OpTree) : Prop where
  reaches : ∀ {rest bound Q s}, Stands ss [] (t.symbols ++ rest) s →
    Room bound (t.symbols ++ rest) Rule.postfixed.rank → Follows (Level.primary.rank + 1) rest →
    (∀ {s'}, Stands ss [t.tree] rest s' → selectorTurn.Loops (.ofSymbols ss) bound Q s') →
    (Move.read .primary).Reaches (.ofSymbols ss) bound
      (fun _ s' => selectorTurn.Loops (.ofSymbols ss) bound Q s') s

/-- The loop of `++` and `--` goes on behind a tree. -/
structure Suffixes (ss : List Symbol) (t : OpTree) : Prop where
  reaches : ∀ {rest bound Q s}, Stands ss [] (t.symbols ++ rest) s →
    Room bound (t.symbols ++ rest) Rule.postfixed.rank → Follows (Level.post.rank + 1) rest →
    (∀ {s'}, Stands ss [t.tree] rest s' → suffixTurn.Loops (.ofSymbols ss) bound Q s') →
    (do Move.read .primary
        Move.loop selectorTurn).Reaches (.ofSymbols ss) bound
      (fun _ s' => suffixTurn.Loops (.ofSymbols ss) bound Q s') s

/-- The loop of binary operators goes on behind a tree. -/
structure Operates (ss : List Symbol) (loosest : Layer) (t : OpTree) : Prop where
  reaches : ∀ {rest bound Q s}, Stands ss [] (t.symbols ++ rest) s →
    Room bound (t.symbols ++ rest) (Rule.binary loosest).rank →
    Follows Level.unary.rank rest → Follows (t.rank + 1) rest →
    (∀ {s'}, Stands ss [t.tree] rest s' →
      (operatorTurn loosest).Loops (.ofSymbols ss) bound Q s') →
    (Move.read .unary).Reaches (.ofSymbols ss) bound
      (fun _ s' => (operatorTurn loosest).Loops (.ofSymbols ss) bound Q s') s

/-- A rule reads a tree, up to what does not belong to an expression of some level. -/
structure Read (ss : List Symbol) (r : Rule) (level : Nat) (t : OpTree) : Prop where
  reads : ∀ {rest}, Follows level rest → r.Reads ss t.symbols [t.tree] rest

/-- A tree is read by the rules of its level and of all looser ones. -/
structure Recognized (ss : List Symbol) (t : OpTree) : Prop where
  selects : Level.primary.rank ≤ t.rank → t.Selects ss
  suffixes : Level.post.rank ≤ t.rank → t.Suffixes ss
  unary : Level.unary.rank ≤ t.rank → t.Read ss .unary Level.unary.rank
  operates : ∀ layer : Layer, layer.rank + Level.ternary.rank ≤ t.rank → t.Operates ss layer
  ternary : Level.ternary.rank ≤ t.rank → t.Read ss .ternary Level.ternary.rank
  expression : t.Read ss .expression Level.assignment.rank

/-! ### From one level to the next -/

theorem Selects.suffixes (h : t.Selects ss) : t.Suffixes ss where
  reaches hs room hrest k :=
    have hprimary := h.reaches hs room (hrest.mono (by decide)) fun hs => hs.stopSelectors hrest k
    .bind (hprimary.mono fun _ _ hloops => hloops.last)

theorem Suffixes.postfixed (h : t.Suffixes ss) : t.Read ss .postfixed Level.post.rank where
  reads hrest := .of_production fun bound s hs room => by
    have hloops' := h.reaches hs room (hrest.mono (Nat.le_succ _)) fun hs =>
      hs.stopSuffixes hrest fun h => h
    have hbind := Move.Reaches.bind (hloops'.mono fun _ _ hloops => hloops.last)
    exact hbind

/-- What an expression starts with that holds together as tightly as a postfix expression. -/
theorem kindAhead_symbols : (t : OpTree) → t.Layered → Level.post.rank ≤ t.rank →
    (rest : List Symbol) →
    kindAhead (t.symbols ++ rest) 0 = .identifier ∨ kindAhead (t.symbols ++ rest) 0 = .lparen
  | .head (.name _), _, _, _ => .inl rfl
  | .head (.call _ _), _, _, _ => .inl rfl
  | .paren _, _, _, _ => .inr rfl
  | .post op operand, h, _, rest => by
    have hstart := operand.kindAhead_symbols h.2 h.1 ([op.kind.symbol] ++ rest)
    rwa [← List.append_assoc] at hstart
  | .index receiver inner, h, _, rest => by
    have hstart := receiver.kindAhead_symbols h.2.1 (Nat.le_trans (by decide) h.1)
      (TokenKind.lbrack.symbol :: inner.symbols ++ [TokenKind.rbrack.symbol] ++ rest)
    rwa [← List.append_assoc, ← List.append_assoc] at hstart
  | .member receiver selected, h, _, rest => by
    have hstart := receiver.kindAhead_symbols h.2.1 (Nat.le_trans (by decide) h.1)
      (TokenKind.dot.symbol :: selected.symbols ++ rest)
    rwa [← List.append_assoc] at hstart
  | .binary op _ _, _, hrank, _ =>
    absurd (Nat.lt_of_le_of_lt hrank op.level_lt_unary) (by decide)
  | .unary _ _, _, hrank, _ => absurd hrank (show ¬Level.post.rank ≤ Level.unary.rank by decide)
  | .conditional _ _ _, _, hrank, _ =>
    absurd hrank (show ¬Level.post.rank ≤ Level.ternary.rank by decide)
  | .assignment _ _ _, _, hrank, _ =>
    absurd hrank (show ¬Level.post.rank ≤ Level.assignment.rank by decide)

/-- Every expression starts with what a unary expression starts with. -/
theorem startsUnary : (t : OpTree) → (rest : List Symbol) →
    Ahead.startsUnary (kindAhead (t.symbols ++ rest) 0) = true
  | .head (.name _), _ => rfl
  | .head (.call _ _), _ => rfl
  | .paren _, _ => rfl
  | .unary op _, _ => by cases op <;> rfl
  | .binary op left right, rest => by
    have hstart := left.startsUnary (op.symbols ++ (right.symbols ++ rest))
    rwa [← List.append_assoc, ← List.append_assoc] at hstart
  | .post op operand, rest => by
    have hstart := operand.startsUnary ([op.kind.symbol] ++ rest)
    rwa [← List.append_assoc] at hstart
  | .conditional test body orelse, rest => by
    have hstart := test.startsUnary (TokenKind.question.symbol :: body.symbols ++
      TokenKind.colon.symbol :: orelse.symbols ++ rest)
    rwa [← List.append_assoc, ← List.append_assoc] at hstart
  | .assignment op target value, rest => by
    have hstart := target.startsUnary
      ((op.elim TokenKind.assign AssignOp.kind).symbol :: value.symbols ++ rest)
    rwa [← List.append_assoc] at hstart
  | .index receiver inner, rest => by
    have hstart := receiver.startsUnary
      (TokenKind.lbrack.symbol :: inner.symbols ++ [TokenKind.rbrack.symbol] ++ rest)
    rwa [← List.append_assoc, ← List.append_assoc] at hstart
  | .member receiver selected, rest => by
    have hstart := receiver.startsUnary (TokenKind.dot.symbol :: selected.symbols ++ rest)
    rwa [← List.append_assoc] at hstart

variable (htame : Tame ss)

include htame

theorem Suffixes.unary (h : t.Suffixes ss) (hlayered : t.Layered)
    (hrank : Level.post.rank ≤ t.rank) : t.Read ss .unary Level.unary.rank where
  reads hrest := .of_production fun bound s hs room => by
    have hread := h.postfixed.reads (hrest.mono (by decide))
    refine hs.nest fun {s'} hs => .ahead ?_
    rw [hs.kind_eq]
    rcases t.kindAhead_symbols hlayered hrank _ with hkind | hkind
    · rw [hkind]
      exact hs.readLast hread (room.same (by decide))
    · rw [hkind]
      exact hs.startsCast htame fun hs => hs.readLast hread (room.same (by decide))

omit htame in
theorem Read.operates (h : t.Read ss .unary Level.unary.rank) (loosest : Layer) :
    t.Operates ss loosest where
  reaches hs room hrest _ k :=
    have hread := hs.readLast (h.reads hrest) (room.same (show Rule.unary.rank < 9 by decide))
    hread.mono fun _ _ hs => k hs

omit htame in
theorem Operates.binary {layer : Layer} (h : t.Operates ss layer)
    (hrank : layer.rank + Level.ternary.rank ≤ t.rank) :
    t.Read ss (.binary layer) (layer.rank + Level.ternary.rank) where
  reads hrest := .of_production fun bound s hs room => by
    have hunary : layer.rank + Level.ternary.rank ≤ Level.unary.rank := by cases layer <;> decide
    have hloops' := h.reaches hs room (hrest.mono hunary) (hrest.mono (Nat.le_succ_of_le hrank))
      fun hs => hs.stopOperators hrest fun h => h
    exact .bind (hloops'.mono fun _ _ hloops => hloops.last)

omit htame in
theorem Read.ternary
    (h : t.Read ss (.binary .conditionalOr) (Layer.conditionalOr.rank + Level.ternary.rank)) :
    t.Read ss .ternary Level.ternary.rank where
  reads hrest := .of_production fun bound s hs room => by
    have hread := h.reads (hrest.mono (by decide))
    refine hs.read hread (room.same (by decide)) fun {s'} hs => .bind (.isAt ?_)
    rw [hs.isAt_eq, beq_eq_false_iff_ne.mpr (hrest.kind_ne rfl)]
    exact .pure (.pure hs)

theorem Read.expression (h : t.Read ss .ternary Level.ternary.rank) :
    t.Read ss .expression Level.assignment.rank where
  reads {rest} hrest := .of_production fun bound s hs room => by
    have hread := h.reads (hrest.mono (by decide))
    refine hs.nest fun {s'} hs => .ahead ?_
    rw [htame.startsLambda _ (ahead_symbols s')]
    refine hs.read hread (room.same (by decide)) fun {s'} hs => .ahead ?_
    have hassign : (kindAhead rest 0).isAssignment = false := by
      obtain ⟨reach, hreach, hlt⟩ := hrest.kind
      refine Bool.eq_false_iff.mpr fun hassign => ?_
      rw [reach?_of_isAssignment hassign] at hreach
      exact absurd hlt (Nat.not_lt.mpr (Nat.le_of_eq (Option.some.inj hreach)))
    rw [hs.kind_eq, hassign]
    exact .pure hs

/-! ### From a level to being recognized -/

namespace Recognized

omit htame in
theorem ofExpression (hrank : t.rank = Level.assignment.rank)
    (h : t.Read ss .expression Level.assignment.rank) : t.Recognized ss where
  selects hle := absurd (hrank ▸ hle) (by decide)
  suffixes hle := absurd (hrank ▸ hle) (by decide)
  unary hle := absurd (hrank ▸ hle) (by decide)
  operates layer hle := absurd (hrank ▸ hle) (by cases layer <;> decide)
  ternary hle := absurd (hrank ▸ hle) (by decide)
  expression := h

theorem ofTernary (hrank : t.rank = Level.ternary.rank)
    (h : t.Read ss .ternary Level.ternary.rank) : t.Recognized ss where
  selects hle := absurd (hrank ▸ hle) (by decide)
  suffixes hle := absurd (hrank ▸ hle) (by decide)
  unary hle := absurd (hrank ▸ hle) (by decide)
  operates layer hle := absurd (hrank ▸ hle) (by cases layer <;> decide)
  ternary _ := h
  expression := h.expression htame

theorem ofOperates {layer : Layer} (hrank : t.rank = layer.rank + Level.ternary.rank)
    (h : ∀ loosest : Layer, loosest.rank + Level.ternary.rank ≤ t.rank →
      t.Operates ss loosest) : t.Recognized ss :=
  have hternary : t.Read ss .ternary Level.ternary.rank :=
    have hle : Layer.conditionalOr.rank + Level.ternary.rank ≤ t.rank := by
      rw [hrank]
      cases layer <;> decide
    ((h .conditionalOr hle).binary hle).ternary
  { selects := fun hle => absurd (hrank ▸ hle) (by cases layer <;> decide)
    suffixes := fun hle => absurd (hrank ▸ hle) (by cases layer <;> decide)
    unary := fun hle => absurd (hrank ▸ hle) (by cases layer <;> decide)
    operates := h
    ternary := fun _ => hternary
    expression := hternary.expression htame }

theorem ofUnary (hrank : t.rank = Level.unary.rank)
    (h : t.Read ss .unary Level.unary.rank) : t.Recognized ss :=
  have hbinary (layer : Layer) (hle : layer.rank + Level.ternary.rank ≤ t.rank) :=
    (h.operates layer).binary hle
  have hternary : t.Read ss .ternary Level.ternary.rank :=
    (hbinary .conditionalOr (hrank ▸ by decide)).ternary
  { selects := fun hle => absurd (hrank ▸ hle) (by decide)
    suffixes := fun hle => absurd (hrank ▸ hle) (by decide)
    unary := fun _ => h
    operates := fun layer _ => h.operates layer
    ternary := fun _ => hternary
    expression := hternary.expression htame }

theorem ofSuffixes (hlayered : t.Layered) (hrank : Level.post.rank ≤ t.rank)
    (hselects : Level.primary.rank ≤ t.rank → t.Selects ss) (h : t.Suffixes ss) :
    t.Recognized ss :=
  have hunary : t.Read ss .unary Level.unary.rank := h.unary htame hlayered hrank
  have hor : Layer.conditionalOr.rank + Level.ternary.rank ≤ t.rank :=
    Nat.le_trans (by decide) hrank
  have hternary : t.Read ss .ternary Level.ternary.rank :=
    ((hunary.operates .conditionalOr).binary hor).ternary
  { selects := hselects
    suffixes := fun _ => h
    unary := fun _ => hunary
    operates := fun layer _ => hunary.operates layer
    ternary := fun _ => hternary
    expression := hternary.expression htame }

theorem ofSelects (hlayered : t.Layered) (hrank : t.rank = Level.primary.rank)
    (h : t.Selects ss) : t.Recognized ss :=
  .ofSuffixes htame hlayered (hrank ▸ by decide) (fun _ => h) h.suffixes

end Recognized

/-! ### Primaries -/

omit htame in
theorem Selects.of_read (h : t.Read ss .primary (Level.primary.rank + 1)) : t.Selects ss where
  reaches hs room hrest k :=
    have hread := hs.readLast (h.reads hrest) (room.same (by decide))
    hread.mono fun _ _ hs => k hs

theorem read_name (name : LegalName) :
    (head (.name name)).Read ss .primary (Level.primary.rank + 1) where
  reads {rest} hrest := .of_production fun bound s hs room => by
    have hs : Stands ss [] (name.symbol :: rest) s := hs
    have hcall : kindAhead (name.symbol :: rest) 1 ≠ .lparen := hrest.kind_ne rfl
    refine .ahead ?_
    rw [hs.kind_eq]
    change (if _ then _ else _ : Move Unit).Reaches ..
    rw [hs.kindAt_eq, beq_eq_false_iff_ne.mpr hcall]
    refine hs.startsTypeSelector htame fun hs => ?_
    exact hs.take (show TokenKind.identifier ≠ .eof by decide) fun hs => hs.closeLast

theorem recognized_paren {inner : OpTree} (hlayered : inner.Layered) (h : inner.Recognized ss) :
    (paren inner).Recognized ss := by
  refine .ofSelects htame hlayered rfl (.of_read ⟨fun {rest} hrest => .of_production
    fun bound s hs room => ?_⟩)
  have hs : Stands ss [] (TokenKind.lparen.symbol ::
      (inner.symbols ++ TokenKind.rparen.symbol :: rest)) s := by
    simpa [OpTree.symbols] using hs
  have hclose : Follows Level.assignment.rank (TokenKind.rparen.symbol :: rest) :=
    .of_kind 0 rfl (by decide) (by decide)
  refine .ahead ?_
  rw [hs.kind_eq]
  refine hs.take (by decide) fun hs => ?_
  refine hs.read (h.expression.reads hclose) (room.fewer (by simp [OpTree.symbols]))
    fun hs => ?_
  exact hs.expect rfl (by decide) fun hs => hs.closeLast

omit htame in
theorem follows_comma_or_rparen (args : OpTrees) (rest : List Symbol) :
    Follows Level.assignment.rank
      (args.symbols [TokenKind.comma.symbol] ++ TokenKind.rparen.symbol :: rest) := by
  cases args with
  | nil => exact .of_kind 0 rfl (by decide) (by decide)
  | cons first others => exact .of_kind 0 rfl (by decide) (by decide)

end OpTree

namespace OpTrees

variable {ss rest : List Symbol} {parts : List Tree} {s : State} {bound : Nat} {args : OpTrees}

/-- Each of several expressions is recognized. -/
def Recognized (ss : List Symbol) : OpTrees → Prop
  | .nil               => True
  | .cons first others => first.Recognized ss ∧ others.Recognized ss

/-- The loop reads the expressions behind the first one. -/
theorem loops {rank : Nat} : (args : OpTrees) → args.Recognized ss →
    {parts : List Tree} → {s : State} →
    Stands ss parts (args.symbols [TokenKind.comma.symbol] ++ TokenKind.rparen.symbol :: rest) s →
    Room bound (args.symbols [TokenKind.comma.symbol] ++ TokenKind.rparen.symbol :: rest) rank →
    {Q : State → Prop} →
    (∀ {s'}, Stands ss ((args.trees [TokenKind.comma.leaf]).reverse ++ parts)
      (TokenKind.rparen.symbol :: rest) s' → Q s') →
    (do if ← Move.eat .comma then
          Move.read .expression
          return true
        else return false).Loops (.ofSymbols ss) bound Q s
  | .nil, _, _, _, hs, _, _, k => by
    have hs : Stands ss _ (TokenKind.rparen.symbol :: rest) _ := hs
    refine .stop (hs.read_lt (List.cons_ne_nil _ _)) (.bind (.isAt ?_))
    rw [hs.isAt_eq]
    exact .pure (.pure ⟨rfl, k hs⟩)
  | .cons first others, h, parts, s, hs, room, Q, k => by
    have hassoc : (cons first others).symbols [TokenKind.comma.symbol] ++
        TokenKind.rparen.symbol :: rest = TokenKind.comma.symbol :: (first.symbols ++
          (others.symbols [TokenKind.comma.symbol] ++ TokenKind.rparen.symbol :: rest)) := by
      simp [symbols]
    rw [hassoc] at hs room
    refine .go (hs.read_lt (List.cons_ne_nil _ _)) (.bind (.isAt ?_))
    rw [hs.isAt_eq]
    have hfirst := h.1.expression.reads (OpTree.follows_comma_or_rparen others rest)
    refine hs.take (by decide) fun hs' => .pure ?_
    refine hs'.read hfirst (room.fewer (by simp)) fun hs'' => .pure ⟨rfl, ?_, ?_⟩
    · exact hs.read_lt_read hs'' (by simp <;> omega)
    · have room' : Room bound (others.symbols [TokenKind.comma.symbol] ++
          TokenKind.rparen.symbol :: rest) 0 := room.fewer' (by simp <;> omega) (by decide)
      refine loops others h.2 hs'' room' fun hs => k ?_
      simpa [trees, TokenKind.leaf] using hs

end OpTrees

namespace OpHead

variable {ss : List Symbol}

/-- Arguments in their parentheses. -/
theorem reads_arguments {args : OpTrees} (h : args.Recognized ss) (rest : List Symbol) :
    Rule.arguments.Reads ss
      (TokenKind.lparen.symbol :: args.symbols [] ++ [TokenKind.rparen.symbol])
      [Phrase.arguments.over (TokenKind.lparen.leaf :: args.trees [] ++ [TokenKind.rparen.leaf])]
      rest := .of_production fun bound s hs room => by
  cases args with
  | nil =>
    have hs : Stands ss [] (TokenKind.lparen.symbol :: TokenKind.rparen.symbol :: rest) s := hs
    refine hs.expect rfl (by decide) fun hs => .bind (.ahead ?_)
    change (if (!(Ahead.isAt _ .rparen)) = true then _ else _ : Move Unit).Reaches ..
    rw [hs.isAt_eq]
    exact .pure (hs.expect rfl (by decide) fun hs => hs.closeLast)
  | cons first others =>
    have hassoc : TokenKind.lparen.symbol :: (OpTrees.cons first others).symbols [] ++
        [TokenKind.rparen.symbol] ++ rest = TokenKind.lparen.symbol :: (first.symbols ++
          (others.symbols [TokenKind.comma.symbol] ++ TokenKind.rparen.symbol :: rest)) := by
      simp [OpTrees.symbols]
    rw [hassoc] at hs room
    have hrparen : kindAhead (first.symbols ++
        (others.symbols [TokenKind.comma.symbol] ++ TokenKind.rparen.symbol :: rest)) 0 ≠
          .rparen := by
      intro hkind
      have hstart := first.startsUnary (others.symbols [TokenKind.comma.symbol] ++
        TokenKind.rparen.symbol :: rest)
      rw [hkind] at hstart
      cases hstart
    have hfirst := h.1.expression.reads (OpTree.follows_comma_or_rparen others rest)
    refine hs.expect rfl (by decide) fun hs => .bind (.ahead ?_)
    change (if (!(Ahead.isAt _ .rparen)) = true then _ else _ : Move Unit).Reaches ..
    rw [hs.isAt_eq, beq_eq_false_iff_ne.mpr hrparen]
    refine hs.read hfirst (room.fewer (by simp)) fun hs => ?_
    have room' : Room bound (others.symbols [TokenKind.comma.symbol] ++
        TokenKind.rparen.symbol :: rest) 0 := room.fewer' (by simp <;> omega) (by decide)
    refine (others.loops h.2 hs room' fun hs => ?_).last
    refine hs.expect rfl (by decide) fun hs => ?_
    exact hs.closeAs (by simp [OpTrees.trees, TokenKind.leaf])

/-- A call by name. -/
theorem reads_methodCall {args : OpTrees} (name : LegalName) (h : args.Recognized ss)
    (rest : List Symbol) :
    Rule.methodCall.Reads ss (call name args).symbols [(call name args).tree] rest :=
  .of_production fun bound s hs room => by
    have hs : Stands ss [] (name.symbol :: (TokenKind.lparen.symbol :: args.symbols [] ++
      [TokenKind.rparen.symbol] ++ rest)) s := hs
    refine .bind (.ahead ?_)
    rw [if_pos (by rw [hs.isAt_eq]; rfl)]
    refine (hs.takeLast (show TokenKind.identifier ≠ .eof by decide)).mono fun _ s' hs => ?_
    exact hs.read (reads_arguments h rest) (room.fewer (Nat.lt_succ_self _)) fun hs =>
      hs.closeLast

theorem recognized_head (htame : Tame ss) : (head : OpHead) → head.Layered →
    (∀ name args, head = .call name args → args.Recognized ss) → (OpTree.head head).Recognized ss
  | .name n, hlayered, _ =>
    .ofSelects htame hlayered rfl (.of_read (OpTree.read_name htame n))
  | .call n args, hlayered, h => by
    refine .ofSelects htame hlayered rfl (.of_read ⟨fun {rest} _ => .of_production
      fun bound s hs room => .ahead ?_⟩)
    have hread : Rule.methodCall.Reads ss _ _ rest := reads_methodCall n (h n args rfl) rest
    have hs : Stands ss [] ((call n args).symbols ++ rest) s := hs
    rw [hs.kind_eq]
    change (if _ then _ else _ : Move Unit).Reaches ..
    rw [hs.kindAt_eq]
    exact hs.readLast hread (room.same (by decide))

/-- What may follow a dot. -/
theorem reads_selected : (head : OpHead) →
    (∀ name args, head = .call name args → args.Recognized ss) →
    {rest : List Symbol} → Follows (Level.primary.rank + 1) rest →
    Rule.selected.Reads ss head.symbols [head.tree] rest
  | .name n, _, rest, hrest => .of_production fun bound s hs room => .ahead (by
    have hs : Stands ss [] (n.symbol :: rest) s := hs
    have hcall : kindAhead (n.symbol :: rest) 1 ≠ .lparen := hrest.kind_ne rfl
    rw [hs.kind_eq]
    change (if _ then _ else _ : Move Unit).Reaches ..
    rw [hs.kindAt_eq, beq_eq_false_iff_ne.mpr hcall]
    exact hs.take (show TokenKind.identifier ≠ .eof by decide) fun hs => hs.closeLast)
  | .call n args, h, rest, _ => .of_production fun bound s hs room => .ahead (by
    have hread : Rule.methodCall.Reads ss _ _ rest :=
      reads_methodCall n (h n args rfl) rest
    have hs : Stands ss [] ((call n args).symbols ++ rest) s := hs
    rw [hs.kind_eq]
    change (if _ then _ else _ : Move Unit).Reaches ..
    rw [hs.kindAt_eq]
    exact hs.readLast hread (room.same (by decide)))

end OpHead

namespace OpTree

variable {ss : List Symbol} (htame : Tame ss)

/-! ### Selectors -/

include htame

theorem recognized_member {receiver : OpTree} {selected : OpHead}
    (hlayered : (member receiver selected).Layered) (hreceiver : receiver.Recognized ss)
    (hselected : ∀ name args, selected = .call name args → args.Recognized ss) :
    (member receiver selected).Recognized ss := by
  refine .ofSelects htame hlayered rfl ⟨fun {rest bound Q s} hs room hrest k => ?_⟩
  have hassoc : (member receiver selected).symbols ++ rest =
      receiver.symbols ++ TokenKind.dot.symbol :: (selected.symbols ++ rest) := by
    simp [symbols]
  rw [hassoc] at hs room
  have hdot : Follows (Level.primary.rank + 1) (TokenKind.dot.symbol :: (selected.symbols ++ rest)) :=
    .of_kind 16 rfl (by decide) (by decide)
  refine (hreceiver.selects hlayered.1).reaches hs room hdot fun hs => ?_
  refine .go (hs.read_lt (List.cons_ne_nil _ _)) (.ahead ?_)
  rw [hs.kind_eq]
  refine hs.nest fun hs' => hs'.take (by decide) fun hs' => ?_
  refine hs'.read (selected.reads_selected hselected hrest) (room.fewer (by simp; omega))
    fun hs' => hs'.close fun hs' => .pure ⟨rfl, hs.read_lt_read hs' (by simp <;> omega), k hs'⟩

theorem recognized_index {receiver inner : OpTree} (hlayered : (index receiver inner).Layered)
    (hreceiver : receiver.Recognized ss) (hinner : inner.Recognized ss) :
    (index receiver inner).Recognized ss := by
  refine .ofSelects htame hlayered rfl ⟨fun {rest bound Q s} hs room hrest k => ?_⟩
  have hassoc : (index receiver inner).symbols ++ rest = receiver.symbols ++
      TokenKind.lbrack.symbol :: (inner.symbols ++ TokenKind.rbrack.symbol :: rest) := by
    simp [symbols]
  rw [hassoc] at hs room
  have hlbrack : Follows (Level.primary.rank + 1)
      (TokenKind.lbrack.symbol :: (inner.symbols ++ TokenKind.rbrack.symbol :: rest)) :=
    .of_kind 16 rfl (by decide) (by decide)
  have hrbrack : Follows Level.assignment.rank (TokenKind.rbrack.symbol :: rest) :=
    .of_kind 0 rfl (by decide) (by decide)
  refine (hreceiver.selects hlayered.1).reaches hs room hlbrack fun hs => ?_
  refine .go (hs.read_lt (List.cons_ne_nil _ _)) (.ahead ?_)
  rw [hs.kind_eq]
  refine hs.nest fun hs' => hs'.take (by decide) fun hs' => ?_
  refine hs'.read (hinner.expression.reads hrbrack) (room.fewer (by simp; omega))
    fun hs' => hs'.expect rfl (by decide) fun hs' => hs'.close fun hs' =>
      .pure ⟨rfl, hs.read_lt_read hs' (by simp; omega), k hs'⟩

/-! ### Operators -/

theorem recognized_post {op : PostOp} {operand : OpTree} (hlayered : (post op operand).Layered)
    (h : operand.Recognized ss) : (post op operand).Recognized ss := by
  refine .ofSuffixes htame hlayered (Nat.le_refl _)
    (fun hle => absurd hle (show ¬Level.primary.rank ≤ Level.post.rank by decide))
    ⟨fun {rest bound Q s} hs room hrest k => ?_⟩
  have hassoc : (post op operand).symbols ++ rest =
      operand.symbols ++ op.kind.symbol :: rest := by
    simp [symbols]
  rw [hassoc] at hs room
  refine (h.suffixes hlayered.1).reaches hs room (.post op rest) fun hs => ?_
  refine .go (hs.read_lt (List.cons_ne_nil _ _)) (.ahead ?_)
  have hkind : (kindAhead (op.kind.symbol :: rest) 0 == .inc ||
      kindAhead (op.kind.symbol :: rest) 0 == .dec) = true := by cases op <;> rfl
  rw [hs.isAt_eq, hs.isAt_eq, hkind]
  refine hs.nest fun hs' => hs'.take (by cases op <;> decide) fun hs' => hs'.close fun hs' =>
    .pure ⟨rfl, hs.read_lt_read hs' (by simp), k hs'⟩

theorem recognized_unary {op : UnaryOp} {operand : OpTree}
    (hlayered : (unary op operand).Layered) (h : operand.Recognized ss) :
    (unary op operand).Recognized ss := by
  refine .ofUnary htame rfl ⟨fun {rest} hrest => .of_production fun bound s hs room => ?_⟩
  have hs : Stands ss [] (op.kind.symbol :: (operand.symbols ++ rest)) s := hs
  have hread := (h.unary hlayered.1).reads hrest
  refine hs.nest fun hs => .ahead ?_
  rw [hs.kind_eq]
  cases op
  all_goals
    refine hs.take (by decide) fun hs => ?_
    exact hs.read hread (room.fewer (by simp [symbols])) fun hs => hs.closeLast

omit htame in
/-- No operator tree is a cast. -/
theorem unary_le_rank : (t : OpTree) → Level.multiplicative.rank < t.rank →
    Level.unary.rank ≤ t.rank
  | .head _, _ | .paren _, _ | .index _ _, _ | .member _ _, _ =>
    show Level.unary.rank ≤ Level.primary.rank by decide
  | .post _ _, _ => show Level.unary.rank ≤ Level.post.rank by decide
  | .unary _ _, _ => Nat.le_refl _
  | .binary op _ _, h =>
    absurd h (show ¬Level.multiplicative.rank < op.level.rank by cases op <;> decide)
  | .conditional _ _ _, h =>
    absurd h (show ¬Level.multiplicative.rank < Level.ternary.rank by decide)
  | .assignment _ _ _, h =>
    absurd h (show ¬Level.multiplicative.rank < Level.assignment.rank by decide)

end OpTree

theorem BinaryOp.level_eq_layer (op : BinaryOp) :
    op.level.rank = op.layer.rank + Level.ternary.rank := by
  cases op <;> rfl

theorem BinaryOp.ofOperator_kind (op : BinaryOp) : Layer.ofOperator op.kind = some op.layer := by
  cases op <;> rfl

theorem BinaryOp.symbols_length (op : BinaryOp) : 0 < op.symbols.length := by
  cases op <;> decide

namespace Grammar

variable {ss rest : List Symbol} {parts : List Tree} {s : State} {bound : Nat} {β : Type}
variable {Q : β → State → Prop} {f : Unit → Move β}

/-- The symbols of an operator become one token. -/
theorem Stands.operatorToken (op : BinaryOp) (h : Stands ss parts (op.symbols ++ rest) s)
    (k : ∀ {s'}, Stands ss (op.kind.leaf :: parts) rest s' →
      (f ()).Reaches (.ofSymbols ss) bound Q s') :
    (Production.operatorToken op.kind op.symbols.length >>= f).Reaches (.ofSymbols ss) bound Q
      s := by
  have hbehind (n : Nat) (hn : n = op.symbols.length) (hrest : (op.symbols ++ rest).drop n = rest) :
      Stands ss (op.kind.leaf :: parts) rest
        { s with read := s.read + n, parts := op.kind.leaf :: s.parts } :=
    ⟨congrArg _ h.parts_eq, by rw [← List.drop_drop, h.rest_eq, hrest]⟩
  cases op
  case rshift =>
    have ht : (Source.ofSymbols ss).joined .rshift s.read 2 =
        some TokenKind.rshift.symbol.token := by
      simp only [Source.joined, List.range_succ, h.token_eq, BinaryOp.symbols]
      rfl
    exact .joined ht (k (hbehind 2 rfl rfl))
  case urshift =>
    have ht : (Source.ofSymbols ss).joined .urshift s.read 3 =
        some TokenKind.urshift.symbol.token := by
      simp only [Source.joined, List.range_succ, h.token_eq, BinaryOp.symbols]
      rfl
    exact .joined ht (k (hbehind 3 rfl rfl))
  all_goals exact h.take (by decide) k

end Grammar

namespace OpTree

variable {ss : List Symbol} (htame : Tame ss)

include htame

omit htame in
/-- What stands to the right of an operator. -/
theorem reads_rightOperand {op : BinaryOp} {right : OpTree} (h : right.Recognized ss)
    (hrank : op.level.rank < right.rank) {rest : List Symbol}
    (hrest : Follows (op.level.rank + 1) rest) {parts : List Tree} {s : State} {bound : Nat}
    (hs : Stands ss parts (right.symbols ++ rest) s)
    (hroom : ∀ r : Rule, (right.symbols ++ rest).length * Rule.ranks + r.rank < bound) :
    (rightOperand op.layer).Reaches (.ofSymbols ss) bound
      (fun _ => Stands ss (right.tree :: parts) rest) s := by
  rw [op.level_eq_layer] at hrank hrest
  unfold rightOperand
  split
  · rename_i tighter htighter
    have hnext : tighter.rank = op.layer.rank + 1 := by
      revert htighter
      cases op.layer <;> intro h <;> cases h <;> rfl
    have hlevel : tighter.rank + Level.ternary.rank = op.layer.rank + Level.ternary.rank + 1 := by
      rw [hnext, Nat.add_right_comm]
    have hle : tighter.rank + Level.ternary.rank ≤ right.rank := hlevel ▸ hrank
    exact hs.readLast (((h.operates tighter hle).binary hle).reads (hlevel ▸ hrest)) (hroom _)
  · rename_i htightest
    have htight : op.layer.rank + Level.ternary.rank = Level.multiplicative.rank := by
      revert htightest
      cases op.layer <;> intro h <;> first | rfl | cases h
    have hunary : Level.unary.rank ≤ right.rank := right.unary_le_rank (htight ▸ hrank)
    exact hs.readLast ((h.unary hunary).reads (hrest.mono (by rw [htight]; decide))) (hroom _)

theorem recognized_binary {op : BinaryOp} {left right : OpTree}
    (hlayered : (binary op left right).Layered) (hleft : left.Recognized ss)
    (hright : right.Recognized ss) : (binary op left right).Recognized ss := by
  refine .ofOperates htame op.level_eq_layer fun loosest hle =>
    ⟨fun {rest bound Q s} hs room hunary hrest k => ?_⟩
  have hassoc : (binary op left right).symbols ++ rest =
      left.symbols ++ (op.symbols ++ (right.symbols ++ rest)) := by
    simp [symbols]
  rw [hassoc] at hs room
  have hfollows := Follows.binary op (right.symbols ++ rest)
  refine (hleft.operates loosest (Nat.le_trans hle hlayered.1)).reaches hs room
    (hfollows.mono op.level_lt_unary) (hfollows.mono (Nat.succ_le_succ hlayered.1)) fun hs => ?_
  refine .go (hs.read_lt hfollows.1) (.ahead ?_)
  rw [hs.operator_eq, operatorAhead_symbols]
  have hloose : ¬op.layer.rank < loosest.rank := by
    have hlayer := op.level_eq_layer
    have hle : loosest.rank + Level.ternary.rank ≤ op.level.rank := hle
    omega
  dsimp only
  rw [op.ofOperator_kind]
  dsimp only
  rw [if_neg hloose]
  have hkind : (op.kind == .instanceOfKw) = false := by cases op <;> rfl
  have hlength := op.symbols_length
  refine .bind (hs.nest fun hs' => hs'.operatorToken op fun {s'} hs' => ?_)
  rw [hkind]
  have hroom (r : Rule) : (right.symbols ++ rest).length * Rule.ranks + r.rank < bound :=
    room.fewer (by simp; omega)
  have hoperand := reads_rightOperand hright hlayered.2.1 hrest hs' hroom
  refine .bind (hoperand.mono fun _ s'' hs' => hs'.closeLast.mono fun _ _ hs' => ?_)
  exact .pure ⟨rfl, hs.read_lt_read hs' (by simp; omega), k hs'⟩

theorem recognized_conditional {test body orelse : OpTree}
    (hlayered : (conditional test body orelse).Layered) (htest : test.Recognized ss)
    (hbody : body.Recognized ss) (horelse : orelse.Recognized ss) :
    (conditional test body orelse).Recognized ss := by
  refine .ofTernary htame rfl ⟨fun {rest} hrest => .of_production fun bound s hs room => ?_⟩
  have hassoc : (conditional test body orelse).symbols ++ rest = test.symbols ++
      TokenKind.question.symbol :: (body.symbols ++
        TokenKind.colon.symbol :: (orelse.symbols ++ rest)) := by
    simp [symbols]
  rw [hassoc] at hs room
  have hor : Layer.conditionalOr.rank + Level.ternary.rank ≤ test.rank := hlayered.1
  have hquestion : Follows (Layer.conditionalOr.rank + Level.ternary.rank)
      (TokenKind.question.symbol :: (body.symbols ++
        TokenKind.colon.symbol :: (orelse.symbols ++ rest))) :=
    .of_kind 2 rfl (by decide) (by decide)
  have hcolon : Follows Level.assignment.rank
      (TokenKind.colon.symbol :: (orelse.symbols ++ rest)) :=
    .of_kind 0 rfl (by decide) (by decide)
  have hread := ((htest.operates .conditionalOr hor).binary hor).reads hquestion
  refine hs.read hread (room.same (by decide)) fun hs => .bind (.isAt ?_)
  rw [hs.isAt_eq]
  refine hs.take (by decide) fun hs => .pure ?_
  refine hs.read (hbody.expression.reads hcolon) (room.fewer (by simp; omega)) fun hs => ?_
  refine hs.expect rfl (by decide) fun {s'} hs => .bind (.ahead ?_)
  rw [htame.startsLambda _ (ahead_symbols s')]
  have horelse := (horelse.ternary hlayered.2.1).reads hrest
  refine hs.nest fun hs => ?_
  refine (hs.readLast horelse (room.fewer (by simp; omega))).mono fun _ _ hs => ?_
  exact hs.closeLast

theorem recognized_assignment {op : Option AssignOp} {target value : OpTree}
    (hlayered : (assignment op target value).Layered) (htarget : target.Recognized ss)
    (hvalue : value.Recognized ss) : (assignment op target value).Recognized ss := by
  refine .ofExpression rfl ⟨fun {rest} hrest => .of_production fun bound s hs room => ?_⟩
  have hassoc : (assignment op target value).symbols ++ rest = target.symbols ++
      (op.elim TokenKind.assign AssignOp.kind).symbol :: (value.symbols ++ rest) := by
    simp [symbols]
  rw [hassoc] at hs room
  have hread := (htarget.ternary hlayered.1).reads (.assignment op (value.symbols ++ rest))
  refine hs.nest fun {s'} hs => .ahead ?_
  rw [htame.startsLambda _ (ahead_symbols s')]
  refine hs.read hread (room.same (by decide)) fun hs => .ahead ?_
  have hkind : (kindAhead ((op.elim TokenKind.assign AssignOp.kind).symbol ::
      (value.symbols ++ rest)) 0).isAssignment = true := by
    cases op with
    | none => rfl
    | some op => cases op <;> rfl
  have hne : (op.elim TokenKind.assign AssignOp.kind).symbol.kind ≠ .eof := by
    cases op with
    | none => decide
    | some op => cases op <;> decide
  rw [hs.kind_eq, hkind]
  refine hs.take hne fun hs => ?_
  exact hs.read (hvalue.expression.reads hrest) (room.fewer (by simp; omega)) fun hs => hs.closeLast

end OpTree

/-! ### All trees -/

mutual

/-- **Every layered tree is recognized.** -/
theorem OpTree.recognized {ss : List Symbol} (htame : Tame ss) :
    (t : OpTree) → t.Layered → t.Recognized ss
  | .head h, hlayered => h.recognized_head htame hlayered (h.recognized_args htame hlayered)
  | .paren inner, hlayered =>
    OpTree.recognized_paren htame hlayered (inner.recognized htame hlayered)
  | .binary _ left right, hlayered => OpTree.recognized_binary htame hlayered
    (left.recognized htame hlayered.2.2.1) (right.recognized htame hlayered.2.2.2)
  | .unary _ operand, hlayered =>
    OpTree.recognized_unary htame hlayered (operand.recognized htame hlayered.2)
  | .post _ operand, hlayered =>
    OpTree.recognized_post htame hlayered (operand.recognized htame hlayered.2)
  | .conditional test body orelse, hlayered => OpTree.recognized_conditional htame hlayered
    (test.recognized htame hlayered.2.2.1) (body.recognized htame hlayered.2.2.2.1)
    (orelse.recognized htame hlayered.2.2.2.2)
  | .assignment _ target value, hlayered => OpTree.recognized_assignment htame hlayered
    (target.recognized htame hlayered.2.1) (value.recognized htame hlayered.2.2)
  | .index receiver inner, hlayered => OpTree.recognized_index htame hlayered
    (receiver.recognized htame hlayered.2.1) (inner.recognized htame hlayered.2.2)
  | .member receiver selected, hlayered => OpTree.recognized_member htame hlayered
    (receiver.recognized htame hlayered.2.1) (selected.recognized_args htame hlayered.2.2)

theorem OpHead.recognized_args {ss : List Symbol} (htame : Tame ss) :
    (h : OpHead) → h.Layered → ∀ name args, h = .call name args → args.Recognized ss
  | .name _, _, _, _, heq => nomatch heq
  | .call _ args, hlayered, _, _, heq => (OpHead.call.inj heq).2 ▸ args.recognized htame hlayered

theorem OpTrees.recognized {ss : List Symbol} (htame : Tame ss) :
    (ts : OpTrees) → ts.Layered → ts.Recognized ss
  | .nil, _ => trivial
  | .cons first others, hlayered =>
    ⟨first.recognized htame hlayered.1, others.recognized htame hlayered.2⟩

end

/-! ### Tameness -/

namespace Grammar.Tame

variable {rest : List Symbol}

theorem cons {x : Symbol} (h : Tame rest) (hx : x.kind.isTame = true) (hrparen : x.kind ≠ .rparen) :
    Tame (x :: rest) :=
  ⟨hx, fun heq => absurd heq hrparen, h⟩

theorem binary (h : Tame rest) (op : BinaryOp) : Tame (op.symbols ++ rest) := by
  have hgt (touches : Bool) {rest : List Symbol} (h : Tame rest) :
      Tame (⟨.gt, ">", touches⟩ :: rest) := h.cons rfl nofun
  cases op
  case rshift => exact hgt true (hgt false h)
  case urshift => exact hgt true (hgt true (hgt false h))
  all_goals exact h.cons rfl nofun

theorem assignment (h : Tame rest) (op : Option AssignOp) :
    Tame ((op.elim TokenKind.assign AssignOp.kind).symbol :: rest) := by
  cases op with
  | none => exact h.cons rfl nofun
  | some op => cases op <;> exact h.cons rfl nofun

end Grammar.Tame

/-- What follows an expression can follow a parenthesis too. -/
theorem Grammar.Follows.isSome {n : Nat} {rest : List Symbol} (h : Follows n rest) :
    (kindAhead rest 0).reach?.isSome := by
  obtain ⟨reach, hreach, -⟩ := h.kind
  rw [hreach]
  rfl

mutual

/-- The symbols of a tree are tame, in front of what may follow an expression. -/
theorem OpTree.tame : (t : OpTree) → {rest : List Symbol} → Tame rest →
    (kindAhead rest 0).reach?.isSome → Tame (t.symbols ++ rest)
  | .head h, _, hrest, hends => h.tame hrest hends
  | .paren inner, rest, hrest, hends => by
    have hclose : Tame (TokenKind.rparen.symbol :: rest) := ⟨rfl, fun _ => hends, hrest⟩
    have hopen : Tame (TokenKind.lparen.symbol :: _) := (inner.tame hclose rfl).cons rfl nofun
    simpa [OpTree.symbols] using hopen
  | .binary op left right, rest, hrest, hends => by
    have hop := (right.tame hrest hends).binary op
    have hleft := left.tame hop (Follows.binary op _).isSome
    simpa [OpTree.symbols] using hleft
  | .unary op operand, rest, hrest, hends => by
    have hoperand := operand.tame hrest hends
    cases op <;> exact hoperand.cons rfl nofun
  | .post op operand, rest, hrest, hends => by
    have hop : Tame (op.kind.symbol :: rest) := by cases op <;> exact hrest.cons rfl nofun
    have hoperand := operand.tame hop (Follows.post op rest).isSome
    simpa [OpTree.symbols] using hoperand
  | .conditional test body orelse, rest, hrest, hends => by
    have hcolon : Tame (TokenKind.colon.symbol :: _) :=
      (orelse.tame hrest hends).cons rfl nofun
    have hquestion : Tame (TokenKind.question.symbol :: _) :=
      (body.tame hcolon rfl).cons rfl nofun
    have htest := test.tame hquestion rfl
    simpa [OpTree.symbols] using htest
  | .assignment op target value, rest, hrest, hends => by
    have hop := (value.tame hrest hends).assignment op
    have htarget := target.tame hop (Follows.assignment op _).isSome
    simpa [OpTree.symbols] using htarget
  | .index receiver inner, rest, hrest, hends => by
    have hclose : Tame (TokenKind.rbrack.symbol :: rest) := hrest.cons rfl nofun
    have hopen : Tame (TokenKind.lbrack.symbol :: _) := (inner.tame hclose rfl).cons rfl nofun
    have hreceiver := receiver.tame hopen rfl
    simpa [OpTree.symbols] using hreceiver
  | .member receiver selected, rest, hrest, hends => by
    have hdot : Tame (TokenKind.dot.symbol :: _) := (selected.tame hrest hends).cons rfl nofun
    have hreceiver := receiver.tame hdot rfl
    simpa [OpTree.symbols] using hreceiver

theorem OpHead.tame : (h : OpHead) → {rest : List Symbol} → Tame rest →
    (kindAhead rest 0).reach?.isSome → Tame (h.symbols ++ rest)
  | .name _, _, hrest, _ => hrest.cons rfl nofun
  | .call n args, rest, hrest, hends => by
    have hclose : Tame (TokenKind.rparen.symbol :: rest) := ⟨rfl, fun _ => hends, hrest⟩
    have hargs : Tame (args.symbols [] ++ TokenKind.rparen.symbol :: rest) :=
      args.tame (fun h => h) hclose rfl
    have hopen : Tame (TokenKind.lparen.symbol :: _) := hargs.cons rfl nofun
    have hname : Tame (n.symbol :: _) := hopen.cons rfl nofun
    simpa [OpHead.symbols] using hname

theorem OpTrees.tame : (ts : OpTrees) → {lead rest : List Symbol} →
    (∀ {rest}, Tame rest → Tame (lead ++ rest)) → Tame rest →
    (kindAhead rest 0).reach?.isSome → Tame (ts.symbols lead ++ rest)
  | .nil, _, _, _, hrest, _ => hrest
  | .cons first others, lead, rest, hlead, hrest, hends => by
    have hcomma {rest : List Symbol} (h : Tame rest) :
        Tame ([TokenKind.comma.symbol] ++ rest) := h.cons rfl nofun
    have hothers := others.tame hcomma hrest hends
    have hnext : (kindAhead (others.symbols [TokenKind.comma.symbol] ++ rest) 0).reach?.isSome := by
      cases others with
      | nil => exact hends
      | cons _ _ => rfl
    have hfirst := hlead (first.tame hothers hnext)
    simpa [OpTrees.symbols] using hfirst

end

/-- **An operator tree is what its symbols are recognized as.** -/
theorem OpTree.run_symbols {t : OpTree} (hlayered : t.Layered) :
    ∃ s enough, s.parts = [Phrase.expressionStart.over [t.tree]] ∧ ∀ limit, enough ≤ limit →
      Rule.expressionStart.run (.ofSymbols (t.symbols ++ [Symbol.final])) limit ⟨0, 0, [], []⟩ =
        .done () s := by
  let ss := t.symbols ++ [Symbol.final]
  have htame : Tame ss := t.tame ⟨rfl, nofun, trivial⟩ rfl
  have hfinal : Follows Level.assignment.rank [Symbol.final] :=
    .of_kind 0 rfl (by decide) (by decide)
  have hread : Rule.expression.Reads ss t.symbols [t.tree] [Symbol.final] :=
    (t.recognized htame hlayered).expression.reads hfinal
  have hstart : Rule.expressionStart.Reads ss t.symbols [Phrase.expressionStart.over [t.tree]]
      [Symbol.final] := .of_production fun bound s hs room => by
    refine hs.read hread (room.same (by decide)) fun hs => .bind (.isAt ?_)
    rw [hs.isAt_eq]
    exact .pure hs.closeLast
  obtain ⟨s, hs, enough, hrun⟩ := hstart ⟨0, 0, [], []⟩ ⟨rfl, rfl⟩ Source.knows_nil
  exact ⟨s, enough, hs.parts_eq, hrun⟩

end JavaSource
