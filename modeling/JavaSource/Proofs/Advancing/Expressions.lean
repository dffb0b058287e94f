import JavaSource.Proofs.Advancing.Statements

/-!
# Rules for expressions advance
-/

namespace JavaSource.Grammar

open Move.Goes

variable {source : Source} {bound : Nat} {S : Stage} {a : Ahead}

theorem expressionStart_steps : Rule.expressionStart.Steps source :=
  readThen rfl rfl <| andThen finish_goes close

theorem assignment_ne_eof (h : a.kind.isAssignment = true) : a.kind ≠ .eof := by
  intro heof
  rw [heof] at h
  cases h

theorem expression_steps : Rule.expression.Steps source := by
  refine andThen nest <| ahead fun a => ite (fun _ => read rfl) fun _ => unseen ?_
  refine readThen rfl rfl <| ahead fun b => ite (fun h => ?_) fun _ => pure rfl
  exact andThen (take (assignment_ne_eof h)) <| readThen rfl rfl close

/-! ### Lambdas -/

theorem lambdaBody_goes : Production.lambdaBody.Goes source bound .fed fun _ => .fed :=
  isAt fun _ => ite (fun _ => read rfl) fun _ => read rfl

theorem lambda_steps : Rule.lambda.Steps source :=
  readThen rfl rfl <| andThen (expect (by decide)) <| andThen lambdaBody_goes close

theorem namesOrParameters_goes : Production.namesOrParameters.Goes source 1 .any fun _ => .fed := by
  refine ahead fun a => ite (fun h => take (ne_eof h (by decide))) fun _ => ite (fun _ => ?_)
    fun _ => read rfl
  refine andThen (expect (by decide)) <| andThen (loop ?_) (expect (by decide))
  refine isAt fun b => ite (fun _ => pure rfl) fun _ => ?_
  exact andThen (expect (by decide)) (eatTurn (by decide))

theorem lambdaParameters_steps : Rule.lambdaParameters.Steps source :=
  andThen namesOrParameters_goes close

/-! ### Operators -/

theorem alternative_goes : Production.alternative.Goes source bound .fed fun _ => .fed :=
  ahead fun _ => ite (fun _ => read rfl) fun _ => unseen (andThen nest (read rfl))

theorem ternary_steps : Rule.ternary.Steps source := by
  refine readThen rfl rfl <| ifEaten (by decide) ?_ (pure rfl)
  exact readThen rfl rfl <| andThen (expect (by decide)) <| andThen alternative_goes close

theorem rightOperand_goes (layer : Layer) :
    (Production.rightOperand layer).Goes source bound .fed fun _ => .fed := by
  unfold Production.rightOperand
  split
  · exact read rfl
  · exact read rfl

/-- An operator is the symbol ahead, or some `>`. -/
theorem operator_symbols (a : Ahead) :
    a.operator = (a.kind, 1) ∨
      0 < a.operator.2 ∧ ∀ n < a.operator.2, a.kindAt n = .gt := by
  by_cases hfirst : a.kind = .gt
  · refine .inr ?_
    unfold Ahead.operator
    rw [if_neg (by simp [hfirst])]
    split
    · exact ⟨Nat.one_pos, fun n hn => (show n = 0 by omega) ▸ hfirst⟩
    · rename_i hsecond
      have hsecond : a.kindAt 1 = .gt := by simp_all
      split
      · refine ⟨Nat.two_pos, fun n hn => ?_⟩
        obtain rfl | rfl : n = 0 ∨ n = 1 := by omega
        · exact hfirst
        · exact hsecond
      · rename_i hthird
        have hthird : a.kindAt 2 = .gt := by simp_all
        refine ⟨Nat.zero_lt_succ 2, fun n hn => ?_⟩
        obtain rfl | rfl | rfl : n = 0 ∨ n = 1 ∨ n = 2 := by omega
        · exact hfirst
        · exact hsecond
        · exact hthird
  · refine .inl ?_
    rw [Ahead.operator, if_pos (by simp [hfirst])]

/-- The symbols of an operator are not the end. -/
theorem operator_ne_eof {layer : Layer} (h : Layer.ofOperator a.operator.1 = some layer) :
    0 < a.operator.2 ∧ ∀ n < a.operator.2, a.kindAt n ≠ .eof := by
  rcases operator_symbols a with hone | ⟨hpos, hgt⟩
  · rw [hone] at h ⊢
    refine ⟨Nat.one_pos, fun n hn heof => ?_⟩
    obtain rfl : n = 0 := Nat.lt_one_iff.mp hn
    rw [show a.kind = .eof from heof] at h
    cases h
  · exact ⟨hpos, fun n hn heof => nomatch heof.symm.trans (hgt n hn)⟩

theorem operatorToken_goes {op : TokenKind} {width : Nat} (hpos : 0 < width)
    (h : ∀ n < width, a.kindAt n ≠ .eof) :
    (Production.operatorToken op width).Goes source bound (S.seeing a) fun _ => .fed :=
  ite (fun _ => take (h 0 hpos)) fun _ => joined hpos h

theorem patternOrType_goes : Production.patternOrType.Goes source bound .fed fun _ => .fed :=
  bind (attempt rfl) fun _ => ite (fun _ => read rfl) fun _ => read rfl

theorem operation_goes {layer : Layer} {op : TokenKind} {width : Nat} (hpos : 0 < width)
    (h : ∀ n < width, a.kindAt n ≠ .eof) :
    (Production.operation layer op width).Goes source bound (S.seeing a) fun _ => .fed :=
  andThen nest <| andThen (operatorToken_goes hpos h) <| ite
    (fun _ => andThen patternOrType_goes close) fun _ => andThen (rightOperand_goes layer) close

theorem binary_steps (loosest : Layer) : (Rule.binary loosest).Steps source := by
  refine readThen rfl rfl <| loop <| ahead fun a => ?_
  cases hlayer : Layer.ofOperator a.operator.1 with
  | none =>
    simp only [hlayer]
    exact pure rfl
  | some layer =>
    simp only [hlayer]
    obtain ⟨hpos, hsymbols⟩ := operator_ne_eof hlayer
    exact ite (fun _ => pure rfl) fun _ => andThen (operation_goes hpos hsymbols) (pure rfl)

theorem startsCast_goes (h : (S.isFed || Nat.blt 0 bound) = true) :
    Production.startsCast.Goes source bound S fun _ => S := by
  refine decide fun a => bind (attempt h) fun width => ?_
  cases width with
  | none => exact decided
  | some width => exact ite (fun _ => decided) fun _ => decided

theorem castHead_steps : Rule.castHead.Steps source :=
  andThen (expect (by decide)) <| andThen (separated (by decide) rfl rfl) (expect (by decide))

theorem castOperand_goes : Production.castOperand.Goes source bound .fed fun _ => .fed :=
  ahead fun _ => ite (fun _ => read rfl) fun _ => read rfl

theorem unary_steps : Rule.unary.Steps source := by
  refine andThen nest <| ahead fun a => ?_
  split
  case h_7 =>
    refine bind (startsCast_goes rfl) fun _ => ite (fun _ => ?_) fun _ => read rfl
    exact readThen rfl rfl <| andThen castOperand_goes close
  case h_8 => exact read rfl
  all_goals
    rename_i hkind
    exact andThen (take (hkind ▸ by decide)) <| readThen rfl rfl close

theorem nameOrNew_goes : Production.nameOrNew.Goes source bound S fun _ => .fed :=
  ahead fun _ => ite (fun h => take (either_ne_eof h (by decide) (by decide))) fun _ => mismatch

theorem methodReference_goes : Production.methodReference.Goes source bound S fun _ => .fed :=
  andThen (expect (by decide)) <| andThen (readAt rfl) <| andThen nameOrNew_goes close

theorem postfixed_steps : Rule.postfixed.Steps source := by
  refine readThen rfl rfl <| andThen (loop (ahead fun a => ?_)) (loop (ahead fun a => ?_))
  · split <;> rename_i hkind
    · exact andThen nest <| andThen (take (hkind ▸ by decide)) <| readThen rfl rfl <|
        andThen close (pure rfl)
    · exact andThen nest <| andThen (take (hkind ▸ by decide)) <| readThen rfl rfl <|
        andThen (expect (by decide)) <| andThen close (pure rfl)
    · exact andThen nest <| andThen methodReference_goes (pure rfl)
    · exact pure rfl
  · refine ite (fun h => ?_) fun _ => pure rfl
    exact andThen nest <| andThen (take (either_ne_eof h (by decide) (by decide))) <|
      andThen close (pure rfl)

/-! ### Creation -/

theorem dimExpr_steps : Rule.dimExpr.Steps source :=
  andThen (expect (by decide)) <| readThen rfl rfl <| andThen (expect (by decide)) close

theorem constructed_goes : Production.constructed.Goes source bound .fed fun _ => .fed :=
  readThen rfl rfl (readAt rfl)

theorem expectDims_goes : Production.expectDims.Goes source bound S fun _ => S.blind :=
  provided fun _ _ => mismatch

theorem creator_goes : Production.creator.Goes source bound S fun _ => .fed := by
  refine andThen (expect (by decide)) <| andThen (readAt rfl) <| readThen rfl rfl <|
    ahead fun a => ite (fun _ => ?_) fun _ => unseen (andThen constructed_goes close)
  refine andThen (readWhile rfl rfl) <| ahead fun b => andThen (unseen dims_goes) ?_
  refine ite (fun _ => close) fun _ => ?_
  exact andThen expectDims_goes <| readThen rfl rfl close

theorem innerCreator_goes : Production.innerCreator.Goes source bound S fun _ => .fed :=
  andThen (expect (by decide)) <| andThen (readAt rfl) <| andThen (read rfl) <|
    andThen (expect (by decide)) <| andThen (readAt rfl) <| andThen constructed_goes close

/-! ### Primaries -/

theorem single_goes {kind : Phrase} (h : a.kind ≠ .eof) :
    (Production.single kind).Goes source bound (S.seeing a) fun _ => .fed :=
  andThen (take h) close

theorem selected_steps : Rule.selected.Steps source := by
  refine ahead fun a => ?_
  split <;> rename_i hkind
  · exact ite (fun _ => read rfl) fun _ => single_goes (hkind ▸ by decide)
  · exact read rfl
  · exact single_goes (hkind ▸ by decide)
  · exact readSuper rfl hkind
  · exact innerCreator_goes
  · exact mismatch

theorem typeSelector_goes : Production.typeSelector.Goes source bound S fun _ => .fed :=
  isAt fun _ => ite (fun _ => methodReference_goes) fun _ =>
    andThen (expect (by decide)) <| andThen (expect (by decide)) close

theorem startsTypeSelector_goes (h : (S.isFed || Nat.blt 4 bound) = true) :
    Production.startsTypeSelector.Goes source bound S fun _ => S := by
  refine decide fun a => ?_
  split
  case h_6 => exact decided
  all_goals
    refine bind (attempt h) fun width => ?_
    cases width with
    | none => exact decided
    | some width => exact decided

theorem literal_ne_eof (h : a.kind.isLiteral = true) : a.kind ≠ .eof := by
  intro heof
  rw [heof] at h
  cases h

theorem primary_steps : Rule.primary.Steps source := by
  refine ahead fun a => ?_
  split <;> rename_i hkind
  · exact andThen (take (hkind ▸ by decide)) <| readThen rfl rfl <|
      andThen (expect (by decide)) close
  · exact ite (fun _ => read rfl) fun _ => single_goes (hkind ▸ by decide)
  · exact readSuper rfl hkind
  · exact creator_goes
  · exact andThen (take (hkind ▸ by decide)) <| andThen condition_goes <| readThen rfl rfl close
  · exact read rfl
  · refine ite (fun _ => read rfl) fun _ => bind (startsTypeSelector_goes rfl) fun _ => ?_
    exact ite (fun _ => readThen rfl rfl typeSelector_goes) fun _ =>
      single_goes (hkind ▸ by decide)
  · refine ite (fun h => single_goes (literal_ne_eof h)) fun _ => ite (fun _ => ?_) fun _ => fail
    exact readThen rfl rfl typeSelector_goes

theorem callee_goes : Production.callee.Goes source bound S fun _ => .fed := by
  refine ahead fun a => ite (fun h => take ?_) fun _ => mismatch
  rcases (Bool.or_eq_true ..).mp h with h | h
  · exact either_ne_eof h (by decide) (by decide)
  · exact ne_eof h (by decide)

theorem methodCall_steps : Rule.methodCall.Steps source :=
  andThen callee_goes <| readThen rfl rfl close

theorem arguments_steps : Rule.arguments.Steps source :=
  andThen (expect (by decide)) <| andThen (provided fun _ _ => separated (by decide) rfl rfl) <|
    andThen (expect (by decide)) close

theorem superAccess_goes (hsuper : a.kind = .superKw) :
    Production.superAccess.Goes source 1 (Stage.any.seeing a) fun _ => .fed := by
  refine aheadAgain fun b hb => ?_
  have hword : b.kind ≠ .eof := (hb.trans hsuper) ▸ by decide
  split <;> rename_i hkind
  · exact read rfl
  · exact andThen (takeTwo hword (hkind ▸ by decide)) <| andThen (readAt rfl) <|
      andThen (expect (by decide)) <| andThen (readAt rfl) close
  · exact andThen (expect (by decide)) close

theorem callOrSuper_goes : Production.callOrSuper.Goes source bound .fed fun _ => .fed := by
  refine ahead fun a => ?_
  split <;> rename_i hkind
  · exact read rfl
  · exact read rfl
  · exact readSuper rfl hkind
  · exact mismatch

theorem genericInvocation_steps : Rule.genericInvocation.Steps source :=
  readThen rfl rfl <| andThen callOrSuper_goes close

end JavaSource.Grammar
