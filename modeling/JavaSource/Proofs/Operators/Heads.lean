import JavaSource.Proofs.Operators.Matched

/-!
# Operator trees in front of an arrow

In front of an arrow, a lone name or parentheses may be read as what stands before a lambda, where a
lambda may stand.  None may stand at the end of an operand that binds more tightly than a
conditional (`OpTree.endsInHead_symbols`).  So such operands are read in front of an arrow as
anywhere else (`OpTree.matches_binary`).
-/

namespace JavaSource

open Grammar (Symbol Rule Layer Scanned Tame Window endsInHead isHead leadsLast)

variable {ss rest : List Symbol} {t : OpTree} {ts : OpTrees} {x : Symbol}

/-! ### Parentheses in pairs -/

/-- Each parenthesis in a row is closed there, and the end of the source does not stand in it. -/
structure Paired (xs : List Symbol) : Prop where
  nested : ∃ opened, parensBehind false opened (xs.map Symbol.kind) = some 0
  whole : ∀ x ∈ xs, x.kind ≠ .eof

theorem Paired.tail {xs : List Symbol} (h : Paired (x :: xs)) : Paired xs where
  nested := by
    obtain ⟨opened, hnested⟩ := h.nested
    obtain ⟨between, -, hrest⟩ := Option.bind_eq_some_iff.mp hnested
    exact ⟨between, hrest⟩
  whole y hy := h.whole y (List.mem_cons_of_mem x hy)

/-- Where some parentheses are open, the one that closes the last of them is found. -/
theorem closing_lt {xs : List Symbol} (hwhole : ∀ x ∈ xs, x.kind ≠ .eof) (others : List Symbol)
    {opened : Nat} (hopened : 0 < opened) {more : Nat}
    (h : parensBehind false (opened + more) (xs.map Symbol.kind) = some 0) :
    ∃ n, Grammar.Ahead.closing opened (xs ++ others) = some n ∧ n < xs.length := by
  induction xs generalizing opened with
  | nil =>
    have hzero : opened + more = 0 := Option.some.inj h
    omega
  | cons x xs ih =>
    have hxs : ∀ y ∈ xs, y.kind ≠ .eof := fun y hy => hwhole y (List.mem_cons_of_mem x hy)
    obtain ⟨between, hkind, hrest⟩ := Option.bind_eq_some_iff.mp h
    have hlater {next : Nat} (hnext : 0 < next) (hbetween : between = next + more)
        (hclosing : Grammar.Ahead.closing opened (x :: (xs ++ others)) =
          (Grammar.Ahead.closing next (xs ++ others)).map (· + 1)) :
        ∃ n, Grammar.Ahead.closing opened (x :: xs ++ others) = some n ∧ n < (x :: xs).length := by
      subst hbetween
      obtain ⟨n, hn, hlt⟩ := ih hxs hnext hrest
      rw [List.cons_append, hclosing, hn]
      exact ⟨n + 1, rfl, Nat.succ_lt_succ hlt⟩
    obtain ⟨kind, text, touches⟩ := x
    have hne : kind ≠ .eof := hwhole _ List.mem_cons_self
    cases kind
    case lparen =>
      have hbetween : opened + more + 1 = between := Option.some.inj hkind
      exact hlater (Nat.succ_pos opened) (by omega) rfl
    case rparen =>
      simp only [TokenKind.parens] at hkind
      rw [if_neg (by omega)] at hkind
      have hbetween : opened + more - 1 = between := Option.some.inj hkind
      by_cases hlast : opened ≤ 1
      · refine ⟨0, ?_, Nat.succ_pos _⟩
        simp only [List.cons_append, Grammar.Ahead.closing, if_pos hlast]
      · have hnext : 0 < opened - 1 := by omega
        refine hlater hnext (by omega) ?_
        simp only [Grammar.Ahead.closing, if_neg hlast]
    case eof => exact absurd rfl hne
    all_goals
      have hbetween : opened + more = between := Option.some.inj hkind
      exact hlater hopened hbetween.symm rfl

/-- What is closed in front of more symbols is not all that stands before an arrow. -/
theorem Paired.isHead_append {xs : List Symbol} (h : Paired xs) (hname : x.kind ≠ .identifier)
    (hopen : x.kind ≠ .lparen) (others : List Symbol) : isHead (xs ++ x :: others) = false := by
  cases xs with
  | nil =>
    rw [List.nil_append, isHead]
    split
    · exact absurd ‹_› hname
    · exact absurd ‹_› hopen
    · rfl
  | cons y ys =>
    rw [List.cons_append, isHead]
    split
    · exact List.isEmpty_eq_false_iff.mpr (List.append_ne_nil_of_right_ne_nil _ (List.cons_ne_nil _ _))
    · rename_i hy
      obtain ⟨opened, hnested⟩ := h.nested
      rw [List.map_cons, hy] at hnested
      have hnested : parensBehind false (1 + opened) (ys.map Symbol.kind) = some 0 := by
        rw [Nat.add_comm]
        exact hnested
      obtain ⟨n, hn, hlt⟩ := closing_lt h.tail.whole (x :: others) Nat.one_pos hnested
      have hclosing : Grammar.Ahead.closing 0 (y :: (ys ++ x :: others)) = some (n + 1) := by
        rw [Grammar.Ahead.closing, hy]
        simp only [Nat.zero_add, hn, Option.map_some]
      rw [hclosing]
      refine beq_eq_false_iff_ne.mpr fun heq => ?_
      have hlength := Option.some.inj heq
      rw [List.length_append] at hlength
      simp only [List.length_cons] at hlength
      omega
    · rfl

/-- So only what stands behind counts. -/
theorem Paired.endsInHead_append {xs : List Symbol} (h : Paired xs) (hname : x.kind ≠ .identifier)
    (hopen : x.kind ≠ .lparen) {others : List Symbol}
    (hlast : (leadsLast x.kind && isHead others) = false) (hothers : endsInHead others = false) :
    endsInHead (xs ++ x :: others) = false := by
  induction xs with
  | nil => exact (Bool.or_eq_false_iff ..).mpr ⟨hlast, hothers⟩
  | cons y ys ih =>
    have hself : isHead (ys ++ x :: others) = false := h.tail.isHead_append hname hopen others
    exact (Bool.or_eq_false_iff ..).mpr ⟨(Bool.and_eq_false_iff ..).mpr (.inr hself), ih h.tail⟩

/-! ### The ends of operands -/

theorem OpTrees.paired (hlayered : ts.Layered) : Paired (ts.symbols []) := by
  have halone := scanned_alone hlayered
  have hwhole := Grammar.Scanned.ne_eof halone (List.cons_ne_nil _ _)
  cases ts with
  | nil => exact ⟨⟨0, rfl⟩, hwhole⟩
  | cons first others =>
    have hmatched := matched_alone halone tame_alone _ hlayered
    have hupdate := matches_forUpdate halone rfl (List.cons_ne_nil _ _) hlayered.1 hmatched 0 rfl
    have hnested := Window.nested_of_takes
      (W := ⟨(cons first others).symbols [], [], [TokenKind.rparen.symbol, Symbol.final], [], []⟩)
      halone (List.cons_ne_nil _ _) rfl hupdate
    exact ⟨⟨0, hnested⟩, hwhole⟩

theorem OpTree.paired (hlayered : t.Layered) : Paired t.symbols := by
  have hpaired : Paired ((OpTrees.cons t .nil).symbols []) := OpTrees.paired ⟨hlayered, trivial⟩
  simpa [OpTrees.symbols] using hpaired

/-- Nothing that is read in front of a closing symbol ends in front of an arrow. -/
theorem Paired.endsInHead_close {xs : List Symbol} (h : Paired xs) {kind : TokenKind}
    (hname : kind ≠ .identifier) (hopen : kind ≠ .lparen) :
    endsInHead (xs ++ [kind.symbol]) = false :=
  h.endsInHead_append hname hopen (Bool.and_false _) rfl

theorem OpHead.endsInHead_symbols (h : OpHead) (hlayered : h.Layered) :
    endsInHead h.symbols = false := by
  cases h with
  | name n => rfl
  | call n args =>
    have hclose : endsInHead (args.symbols [] ++ [TokenKind.rparen.symbol]) = false :=
      (OpTrees.paired hlayered).endsInHead_close nofun nofun
    exact hclose

/-- Behind an operator only its right operand counts. -/
theorem endsInHead_operator {left right : List Symbol} (op : BinaryOp) (h : Paired left)
    (hright : endsInHead right = false) : endsInHead (left ++ (op.symbols ++ right)) = false := by
  cases op
  all_goals exact h.endsInHead_append (by decide) (by decide) rfl hright

/-- **An operand that binds more tightly than a conditional does not end in what may stand before
an arrow.** -/
theorem OpTree.endsInHead_symbols (t : OpTree) (hlayered : t.Layered)
    (hrank : Level.ternary.rank < t.rank) : endsInHead t.symbols = false := by
  cases t with
  | head h => exact h.endsInHead_symbols hlayered
  | paren inner =>
    have hclose : endsInHead (inner.symbols ++ [TokenKind.rparen.symbol]) = false :=
      (OpTree.paired (t := inner) hlayered).endsInHead_close (by decide) (by decide)
    exact hclose
  | binary op left right =>
    obtain ⟨-, hright, hleft, hlayered⟩ := hlayered
    have hends := right.endsInHead_symbols hlayered (Nat.lt_trans hrank hright)
    have hall := endsInHead_operator op (OpTree.paired hleft) hends
    rwa [← List.append_assoc] at hall
  | unary op operand =>
    have hends := operand.endsInHead_symbols hlayered.2 (Nat.lt_of_lt_of_le (by decide) hlayered.1)
    cases op <;> exact hends
  | post op operand =>
    have hpaired := OpTree.paired hlayered.2
    cases op <;> exact hpaired.endsInHead_close (by decide) (by decide)
  | conditional test body orelse => exact absurd hrank (Nat.lt_irrefl _)
  | assignment op target value => exact absurd hrank (show ¬Level.ternary.rank < Level.assignment.rank by decide)
  | index receiver inner =>
    have hinner : endsInHead (inner.symbols ++ [TokenKind.rbrack.symbol]) = false :=
      (OpTree.paired hlayered.2.2).endsInHead_close nofun nofun
    have hall := (OpTree.paired hlayered.2.1).endsInHead_append
      (x := TokenKind.lbrack.symbol) nofun nofun rfl hinner
    rwa [← List.cons_append, ← List.append_assoc] at hall
  | member receiver selected =>
    exact (OpTree.paired hlayered.2.1).endsInHead_append (x := TokenKind.dot.symbol) nofun nofun rfl
      (selected.endsInHead_symbols hlayered.2.2)

/-! ### Operands of a disjunction -/

/-- **An operand that binds more tightly than a conditional is read of its symbols in any source**,
also in front of an arrow. -/
theorem OpTree.matches_binary (hscan : Scanned ss) (hlayered : t.Layered)
    (hrank : Level.ternary.rank < t.rank) (hstops : rest.head?.any (·.kind.isStopper) = true) :
    (Rule.binary .conditionalOr).Matches ss t.symbols [t.tree] rest := by
  have halone : Scanned (OpTrees.cons t .nil).alone := OpTrees.scanned_alone ⟨hlayered, trivial⟩
  have htame : Tame (OpTrees.cons t .nil).alone := OpTrees.tame_alone
  have hassoc : (OpTrees.cons t .nil).alone =
      t.symbols ++ [TokenKind.rparen.symbol, Symbol.final] := by
    simp [OpTrees.alone, OpTrees.symbols]
  rw [hassoc] at halone htame
  have hread : (Rule.binary .conditionalOr).Reads _ t.symbols [t.tree]
      [TokenKind.rparen.symbol, Symbol.final] :=
    (((t.recognized htame hlayered).operates .conditionalOr hrank).binary hrank).reads
      (.of_kind 0 rfl (by decide) (by decide))
  have hmatches : (Rule.binary .conditionalOr).Matches _ t.symbols [t.tree]
      [TokenKind.rparen.symbol, Symbol.final] :=
    .of_reads halone (fun _ => trivial) (List.cons_ne_nil _ _) hread
  have halone : Scanned ([] ++ (t.symbols ++ [TokenKind.rparen.symbol, Symbol.final])) := halone
  refine .of_takes_within halone hscan rfl hstops rfl (fun before' => ?_) (hmatches 0 rfl)
  change (bif _ && endsInHead t.symbols then 1 else 0) = 0
  rw [t.endsInHead_symbols hlayered hrank, Bool.and_false]
  rfl

end JavaSource
