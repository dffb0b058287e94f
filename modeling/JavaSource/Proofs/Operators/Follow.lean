import JavaSource.Proofs.Operators.Grouping
import JavaSource.Proofs.Standing

/-!
# What follows an expression

An expression is read up to a symbol that does not belong to it any more.  `Follows n rest` says
that the rest starts with such a symbol for an expression of the level `n`: with an operator that
binds more loosely, or with a closing symbol.

A source is `Tame` if it has none of the symbols that tell lambdas, types and method references,
and if what stands behind a parenthesis never starts an operand.  Where a source is tame every
question for a lambda, for a cast or for a type is answered in the negative
(`Tame.startsLambda`, `Stands.startsCast`, `Stands.startsTypeSelector`).
-/

namespace JavaSource

open Grammar

/-- How tightly what stands in front must hold together, to be an operand of what such a symbol
starts.  Only symbols that may follow an expression tell that. -/
def TokenKind.reach? : TokenKind → Option Nat
  | .rparen | .rbrack | .comma | .colon | .eof => some 0
  | .question                                  => some Level.ternary.rank
  | .inc | .dec                                => some Level.post.rank
  | .dot | .lbrack                             => some Level.primary.rank
  | kind                                       =>
    if kind.isAssignment then some Level.assignment.rank
    else (Layer.ofOperator kind).map fun layer => layer.rank + Level.ternary.rank

/-- Whether a symbol has no part in lambdas, types and method references. -/
def TokenKind.isTame (kind : TokenKind) : Bool :=
  !kind.isPrimitiveType && kind != .arrow && kind != .colonColon && kind != .classKw

namespace Grammar

variable {ss rest : List Symbol} {parts : List Tree} {s : State} {bound n : Nat}

/-! ### Operators ahead -/

/-- Whether a symbol some places ahead touches the next one. -/
def touchesAhead (rest : List Symbol) (n : Nat) : Bool := (rest[n]?.getD .final).touches

/-- The operator that some symbols start with, and how many it takes. -/
def operatorAhead (rest : List Symbol) : TokenKind × Nat :=
  if kindAhead rest 0 != .gt then (kindAhead rest 0, 1)
  else if !(touchesAhead rest 0 && kindAhead rest 1 == .gt) then (.gt, 1)
  else if !(touchesAhead rest 1 && kindAhead rest 2 == .gt) then (.rshift, 2)
  else (.urshift, 3)

theorem Stands.operator_eq (h : Stands ss parts rest s) :
    ((Source.ofSymbols ss).ahead s).operator = operatorAhead rest := by
  simp only [Ahead.operator, operatorAhead, touchesAhead, h.kind_eq, h.kindAt_eq, h.at_eq]
  rfl

/-- There is a rest, and it does not belong to an expression of a level. -/
def Follows (n : Nat) (rest : List Symbol) : Prop :=
  rest ≠ [] ∧ ∃ reach, (operatorAhead rest).1.reach? = some reach ∧ reach < n

theorem Follows.mono {m : Nat} (h : Follows m rest) (hle : m ≤ n) : Follows n rest := by
  obtain ⟨hrest, reach, hreach, hlt⟩ := h
  exact ⟨hrest, reach, hreach, Nat.lt_of_lt_of_le hlt hle⟩

/-- A shift binds more tightly than the comparison that it starts with. -/
theorem Follows.kind (h : Follows n rest) :
    ∃ reach, (kindAhead rest 0).reach? = some reach ∧ reach < n := by
  obtain ⟨-, reach, hreach, hlt⟩ := h
  unfold operatorAhead at hreach
  split at hreach
  · exact ⟨reach, hreach, hlt⟩
  · rename_i hgt
    have hgt : kindAhead rest 0 = .gt := by simpa using hgt
    rw [hgt]
    split at hreach
    · exact ⟨reach, hreach, hlt⟩
    split at hreach
    · cases hreach
      exact ⟨_, rfl, Nat.lt_of_succ_lt hlt⟩
    · cases hreach
      exact ⟨_, rfl, Nat.lt_of_succ_lt hlt⟩

theorem Follows.kind_ne (h : Follows n rest) {kind : TokenKind}
    (hkind : kind.reach?.all (n ≤ ·) = true) : kindAhead rest 0 ≠ kind := by
  rintro rfl
  obtain ⟨reach, hreach, hlt⟩ := h.kind
  rw [hreach, Option.all_some, decide_eq_true_eq] at hkind
  exact absurd hlt (Nat.not_lt.mpr hkind)

/-- Any symbol that is no `>` and may follow an expression. -/
theorem Follows.of_kind {x : Symbol} (reach : Nat) (hreach : x.kind.reach? = some reach)
    (hlt : reach < n) (hgt : x.kind ≠ .gt) : Follows n (x :: rest) := by
  have hop : operatorAhead (x :: rest) = (x.kind, 1) := if_pos (bne_iff_ne.mpr hgt)
  exact ⟨List.cons_ne_nil _ _, reach, hop ▸ hreach, hlt⟩

theorem operatorAhead_symbols (op : BinaryOp) (rest : List Symbol) :
    operatorAhead (op.symbols ++ rest) = (op.kind, op.symbols.length) := by
  cases op <;> rfl

theorem Follows.binary (op : BinaryOp) (rest : List Symbol) :
    Follows (op.level.rank + 1) (op.symbols ++ rest) := by
  rw [Follows, operatorAhead_symbols]
  exact ⟨by cases op <;> exact nofun, op.level.rank, by cases op <;> rfl, Nat.lt_succ_self _⟩

theorem Follows.assignment (op : Option AssignOp) (rest : List Symbol) :
    Follows Level.ternary.rank ((op.elim TokenKind.assign AssignOp.kind).symbol :: rest) := by
  cases op with
  | none => exact .of_kind 1 rfl (by decide) (by decide)
  | some op => cases op <;> exact .of_kind 1 rfl (by decide) (by decide)

theorem Follows.post (op : PostOp) (rest : List Symbol) :
    Follows Level.primary.rank (op.kind.symbol :: rest) := by
  cases op <;> exact .of_kind 15 rfl (by decide) (by decide)

/-! ### Tame sources -/

/-- There is nothing to tell a lambda, a cast, a type or a method reference. -/
def Tame : List Symbol → Prop
  | []        => True
  | x :: rest => x.kind.isTame ∧
    (x.kind = .rparen → (kindAhead rest 0).reach?.isSome) ∧ Tame rest

theorem Tame.drop (h : Tame ss) (n : Nat) : Tame (ss.drop n) := by
  induction n generalizing ss with
  | zero => exact h
  | succ n ih =>
    cases ss with
    | nil => exact h
    | cons x rest => exact ih h.2.2

theorem Tame.isTame (h : Tame ss) (n : Nat) : (kindAhead ss n).isTame = true := by
  have hn := h.drop n
  rw [kindAhead, ← Nat.add_zero n, ← List.getElem?_drop]
  cases hrest : ss.drop n with
  | nil => rfl
  | cons x rest =>
    rw [hrest] at hn
    exact hn.1

theorem Tame.kind_ne (h : Tame ss) {kind : TokenKind} (hkind : kind.isTame = false) (n : Nat) :
    kindAhead ss n ≠ kind := by
  rintro rfl
  rw [h.isTame] at hkind
  cases hkind

/-- What stands behind a parenthesis. -/
theorem Tame.behind (h : Tame ss) {n : Nat} {x : Symbol} (hx : ss[n]? = some x)
    (hkind : x.kind = .rparen) : (kindAhead ss (n + 1)).reach?.isSome := by
  have hn := h.drop n
  rw [kindAhead, ← List.getElem?_drop]
  cases hrest : ss.drop n with
  | nil =>
    rw [← Nat.add_zero n, ← List.getElem?_drop, hrest] at hx
    cases hx
  | cons y rest =>
    rw [hrest] at hn
    rw [← Nat.add_zero n, ← List.getElem?_drop, hrest] at hx
    cases hx
    exact hn.2.1 hkind

theorem kindAt_ofSymbols (a : Ahead) (ha : a.symbols = ss.toArray) (n : Nat) :
    a.kindAt n = kindAhead ss (a.read + n) := by
  rw [Ahead.kindAt, Ahead.at_, ha, List.getElem?_toArray, kindAhead]

theorem Tame.startsLambda (h : Tame ss) (a : Ahead) (ha : a.symbols = ss.toArray) :
    a.startsLambda = false := by
  have hne (n : Nat) : (a.kindAt n == .arrow) = false := by
    rw [kindAt_ofSymbols a ha]
    exact beq_eq_false_iff_ne.mpr (h.kind_ne rfl _)
  unfold Ahead.startsLambda
  split
  · exact hne 1
  · cases a.closingParen with
    | none => rfl
    | some n => exact hne (n + 1)
  · rfl

/-! ### Casts -/

theorem ahead_symbols (s : State) : ((Source.ofSymbols ss).ahead s).symbols = ss.toArray := rfl

/-- A symbol that has to be there is read. -/
theorem Move.run_expect {source : Source} {limit : Nat} {other : Rule → State → Outcome Unit}
    {kind : TokenKind} {s s' : State}
    (h : (Move.expect kind).run source limit other s = .done () s') :
    s'.read = s.read + 1 ∧ (source.ahead s).kind = kind := by
  change (if (source.ahead s).isAt kind then Move.take else Move.mismatch kind.describe).run
    source limit other s = _ at h
  split at h
  · rename_i hkind
    change (Move.shift (.done ())).run source limit other s = _ at h
    simp only [Move.run] at h
    split at h
    · cases h
    · split at h
      · cases h
      · cases h
        exact ⟨rfl, beq_iff_eq.mp hkind⟩
  · cases h

/-- The head of a cast ends with a parenthesis. -/
theorem Source.finds_castHead {source : Source} {place width : Nat}
    (h : source.Finds .castHead place width) :
    ∃ n, width = n + 1 ∧ ∃ s : State, s.read = place + n ∧ (source.ahead s).kind = .rparen := by
  obtain ⟨limit, s, s', rfl, hrun, rfl⟩ := h
  rw [Rule.run_production] at hrun
  have hforward {α : Type} (m : Move α) {s s' : State} {value : α} {bound : Nat}
      (hm : m.run source limit (source.others limit bound) s = .done value s') :
      s.read ≤ s'.read := by
    have hsound : (m.run source limit (source.others limit bound) s).Sound (fun _ => True)
      s.read := m.sound ⟨fun _ _ => trivial, fun _ _ => trivial⟩ trivial
    rw [hm] at hsound
    exact hsound.1
  change (Move.expect .lparen >>= fun _ => Move.separated .bitAnd .type >>= fun _ =>
    Move.expect .rparen).run _ _ _ s = _ at hrun
  rw [Move.run_bind] at hrun
  obtain ⟨_, s₁, hopen, hrun⟩ := Outcome.andThen_eq_done hrun
  rw [Move.run_bind] at hrun
  obtain ⟨_, s₂, htypes, hclose⟩ := Outcome.andThen_eq_done hrun
  obtain ⟨hread, hkind⟩ := Move.run_expect hclose
  have hle := Nat.le_trans (hforward _ hopen) (hforward _ htypes)
  exact ⟨s₂.read - s.read, by omega, s₂, by omega, hkind⟩

theorem Tame.not_startsUnsigned {kind : TokenKind} (h : kind.reach?.isSome) :
    Ahead.startsUnsigned kind = false := by
  cases kind <;> first | rfl | cases h

variable {β : Type} {Q : β → State → Prop}

/-- Nothing is cast in a tame source. -/
theorem Stands.startsCast (htame : Tame ss) (h : Stands ss parts rest s) {f : Bool → Move β}
    (k : ∀ {s'}, Stands ss parts rest s' → (f false).Reaches (.ofSymbols ss) bound Q s') :
    (Production.startsCast >>= f).Reaches (.ofSymbols ss) bound Q s := by
  refine .bind (.ahead (.attempt fun width memo hwidth => ?_))
  have hstands : Stands ss parts rest { s with memo } := ⟨h.parts_eq, h.rest_eq⟩
  cases width with
  | none => exact .pure (k hstands)
  | some width =>
    obtain ⟨n, rfl, s₁, hread, hkind⟩ := Source.finds_castHead (hwidth width rfl)
    let a := (Source.ofSymbols ss).ahead s
    have hprimitive : (a.kindAt 1).isPrimitiveType = false := by
      have htame1 := htame.isTame (a.read + 1)
      rw [← kindAt_ofSymbols a (ahead_symbols s)] at htame1
      simp only [TokenKind.isTame, Bool.and_eq_true, Bool.not_eq_true'] at htame1
      exact htame1.1.1.1
    have hbehind : ((a.skip (n + 1)).kind).reach?.isSome := by
      have hkind₁ : kindAhead ss (s.read + n) = .rparen := by
        rw [← hkind, Ahead.kind, kindAt_ofSymbols _ (ahead_symbols s₁)]
        exact congrArg (kindAhead ss) hread.symm
      obtain ⟨x, hx⟩ : ∃ x, ss[s.read + n]? = some x := by
        cases hx : ss[s.read + n]? with
        | none =>
          rw [kindAhead, hx] at hkind₁
          cases hkind₁
        | some x => exact ⟨x, rfl⟩
      rw [kindAhead, hx] at hkind₁
      rw [Ahead.kind, kindAt_ofSymbols (a.skip (n + 1)) rfl]
      exact htame.behind hx hkind₁
    have hanswer : (Ahead.startsUnsigned (a.skip (n + 1)).kind ||
        (a.skip (n + 1)).startsLambda) = false := by
      rw [Tame.not_startsUnsigned hbehind, htame.startsLambda (a.skip (n + 1)) rfl]
      rfl
    change (if (n + 1 == 3 && (a.kindAt 1).isPrimitiveType) = true then _ else
      Pure.pure (Ahead.startsUnsigned (a.skip (n + 1)).kind ||
        (a.skip (n + 1)).startsLambda) : Move Bool).Reaches ..
    rw [hprimitive, Bool.and_false, hanswer]
    exact .pure (k hstands)

/-- No type stands in a tame source. -/
theorem Stands.startsTypeSelector (htame : Tame ss) (h : Stands ss parts rest s)
    {f : Bool → Move β}
    (k : ∀ {s'}, Stands ss parts rest s' → (f false).Reaches (.ofSymbols ss) bound Q s') :
    (Production.startsTypeSelector >>= f).Reaches (.ofSymbols ss) bound Q s := by
  have hattempt {g : Option Nat → Move Bool} (hnone : g none = Pure.pure false)
      (hsome : ∀ width, g (some width) =
        let b := ((Source.ofSymbols ss).ahead s).skip width
        Pure.pure ((b.isAt .dot && b.kindAt 1 == .classKw) || (b.isAt .colonColon &&
          (!((Source.ofSymbols ss).ahead s).isPlainName width || b.kindAt 1 == .newKw)))) :
      (Move.attempt .type >>= g).Reaches (.ofSymbols ss) bound
        (fun value s' => (f value).Reaches (.ofSymbols ss) bound Q s') s := by
    refine .attempt fun width memo _ => ?_
    have hstands : Stands ss parts rest { s with memo } := ⟨h.parts_eq, h.rest_eq⟩
    cases width with
    | none =>
      rw [hnone]
      exact .pure (k hstands)
    | some width =>
      rw [hsome]
      let b := ((Source.ofSymbols ss).ahead s).skip width
      have hclass : (b.kindAt 1 == .classKw) = false := by
        rw [kindAt_ofSymbols b rfl]
        exact beq_eq_false_iff_ne.mpr (htame.kind_ne rfl _)
      have hreference : b.isAt .colonColon = false := by
        rw [Ahead.isAt, Ahead.kind, kindAt_ofSymbols b rfl]
        exact beq_eq_false_iff_ne.mpr (htame.kind_ne rfl _)
      refine .pure ?_
      rw [hclass, hreference, Bool.and_false, Bool.false_and]
      exact k hstands
  refine .bind (.ahead ?_)
  split
  iterate 5 exact hattempt rfl fun _ => rfl
  exact .pure (k h)

end Grammar

end JavaSource
