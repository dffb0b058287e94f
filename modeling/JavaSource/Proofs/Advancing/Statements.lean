import JavaSource.Proofs.Advancing.Declarations

/-!
# Rules for statements advance
-/

namespace JavaSource.Grammar

open Move.Goes

variable {source : Source} {bound : Nat} {S : Stage} {a : Ahead}

theorem block_steps : Rule.block.Steps source :=
  andThen (expect (by decide)) <| andThen (readWhile rfl rfl) <| andThen (expect (by decide)) close

theorem startsLocalType_goes (h : (S.isFed || Nat.blt 1 bound) = true) :
    Production.startsLocalType.Goes source bound S fun _ => S := by
  refine decide fun a => ite (fun _ => decided) fun _ => ite (fun _ => ?_) fun _ => decided
  exact bind (attempt h) fun _ => decided

theorem blockStatement_steps : Rule.blockStatement.Steps source := by
  refine ahead fun a => ite (fun _ => read rfl) fun _ => bind (startsLocalType_goes rfl) fun _ => ?_
  refine ite (fun _ => readThen rfl rfl close) fun _ => bind (startsVariable_goes rfl) fun _ => ?_
  refine ite (fun _ => ?_) fun _ => read rfl
  exact readThen rfl rfl <| andThen (expect (by decide)) close

theorem localVariableDeclaration_steps : Rule.localVariableDeclaration.Steps source :=
  andThen (read rfl) <| readThen rfl rfl <| readThen rfl rfl close

theorem condition_goes : Production.condition.Goes source bound S fun _ => .fed :=
  andThen (expect (by decide)) <| readThen rfl rfl <| expect (by decide)

theorem expressionStatement_goes :
    Production.expressionStatement.Goes source 12 .any fun _ => .fed :=
  readThen rfl rfl <| andThen (expect (by decide)) close

theorem wordAndExpression_goes {kind : Phrase} (h : a.kind ≠ .eof) :
    (Production.wordAndExpression kind).Goes source bound (S.seeing a) fun _ => .fed :=
  andThen (take h) <| readThen rfl rfl <| andThen (expect (by decide)) close

theorem jump_goes {kind : Phrase} (h : a.kind ≠ .eof) :
    (Production.jump kind).Goes source bound (S.seeing a) fun _ => .fed :=
  andThen (take h) <| bind (eat (by decide)) fun _ => andThen (expect (by decide)) close

/-! ### Loops -/

theorem startsForEach_goes (h : (S.isFed || Nat.blt 5 bound) = true) :
    Production.startsForEach.Goes source bound S fun _ => S :=
  decide fun _ => bind (modifiedTypeWidth_goes h) fun _ => decided

theorem forStatement_goes : Production.forStatement.Goes source bound S fun _ => .fed := by
  refine andThen (expect (by decide)) <| andThen (expect (by decide)) <|
    bind (startsForEach_goes rfl) fun _ => ite (fun _ => ?_) fun _ => ?_
  · exact andThen (read rfl) <| readThen rfl rfl <| readThen rfl rfl <|
      andThen (expect (by decide)) <| readThen rfl rfl <| andThen (expect (by decide)) <|
      readThen rfl rfl close
  · exact andThen (provided fun _ _ => read rfl) <| andThen (expect (by decide)) <|
      andThen (provided fun _ _ => read rfl) <| andThen (expect (by decide)) <|
      andThen (provided fun _ _ => read rfl) <| andThen (expect (by decide)) <|
      readThen rfl rfl close

theorem variablesOrExpressions_goes :
    Production.variablesOrExpressions.Goes source 12 .any fun _ => .fed :=
  bind (startsVariable_goes rfl) fun _ =>
    ite (fun _ => read rfl) fun _ => separated (by decide) rfl rfl

theorem forInit_steps : Rule.forInit.Steps source := andThen variablesOrExpressions_goes close

theorem forUpdate_steps : Rule.forUpdate.Steps source :=
  andThen (separated (by decide) rfl rfl) close

/-! ### Try -/

/-- What follows the resources of a `try`. -/
theorem handlers_goes {managed : Bool} : Move.Goes source bound .fed (do
    Move.read .block
    Move.readWhile (·.isAt .catchKw) .catchClause
    Move.readAt .finallyKw .finallyClause
    if managed then Move.close .tryWithResourcesStatement
    else if (← Move.ahead).last == some .block then Move.mismatch "\x7b'catch', 'finally'\x7d"
    else Move.close .tryStatement) fun _ => .fed := by
  refine readThen rfl rfl <| andThen (readWhile rfl rfl) <| andThen (readAt rfl) <|
    ite (fun _ => close) fun _ => ahead fun a => ite (fun _ => mismatch) fun _ => ?_
  exact unseen close

theorem tryStatement_goes : Production.tryStatement.Goes source bound S fun _ => .fed :=
  andThen (expect (by decide)) <| isAt fun a => ite
    (fun _ => unseen <| readThen rfl rfl handlers_goes) fun _ => unseen handlers_goes

theorem finallyClause_steps : Rule.finallyClause.Steps source :=
  andThen (expect (by decide)) <| readThen rfl rfl close

theorem resourceSpecification_steps : Rule.resourceSpecification.Steps source := by
  refine andThen (expect (by decide)) <| andThen (loop ?_) <| andThen (expect (by decide)) close
  refine readThen rfl rfl <| ifEaten (by decide) (isAt fun b => ?_) (pure rfl)
  cases b.isAt .rparen <;> exact pure rfl

theorem variableOrName_goes : Production.variableOrName.Goes source 6 .any fun _ => .fed := by
  refine bind (startsVariable_goes rfl) fun _ => ite (fun _ => ?_) fun _ => read rfl
  exact andThen (read rfl) <| readThen rfl rfl <| read rfl

theorem resource_steps : Rule.resource.Steps source := andThen variableOrName_goes close

theorem resourceVariable_steps : Rule.resourceVariable.Steps source :=
  readThen rfl rfl <| andThen (expect (by decide)) <| readThen rfl rfl close

theorem catchClause_steps : Rule.catchClause.Steps source :=
  andThen (expect (by decide)) <| andThen (expect (by decide)) <| andThen (read rfl) <|
    readThen rfl rfl <| andThen (expect (by decide)) <| andThen (expect (by decide)) <|
    readThen rfl rfl close

theorem catchType_steps : Rule.catchType.Steps source :=
  andThen (separated (by decide) rfl rfl) close

/-! ### Switch -/

theorem switchBlock_steps : Rule.switchBlock.Steps source :=
  andThen (expect (by decide)) <| andThen (readWhile rfl rfl) <| andThen (expect (by decide)) close

theorem expectLabel_goes : Production.expectLabel.Goes source bound S fun _ => S.blind :=
  provided fun _ _ => mismatch

theorem ruleBody_goes : Production.ruleBody.Goes source bound .fed fun _ => .fed := by
  refine ahead fun a => ?_
  split
  · exact read rfl
  · exact read rfl
  · exact read rfl

theorem switchEntry_steps : Rule.switchEntry.Steps source := by
  refine andThen expectLabel_goes <| readThen rfl rfl <|
    ifEaten (by decide) (andThen ruleBody_goes close) ?_
  refine andThen (expect (by decide)) <| andThen (loop ?_) <| andThen (readWhile rfl rfl) close
  refine ahead fun a => ite (fun _ => unseen ?_) fun _ => pure rfl
  exact readThen rfl rfl <| andThen (expect (by decide)) (pure rfl)

theorem bareLabel_goes : Production.bareLabel.Goes source bound .any fun _ => .fed := by
  refine bind (eat (by decide)) fun eaten => ?_
  cases eaten with
  | true => exact pure rfl
  | false => exact andThen (expect (by decide)) (separated (by decide) rfl rfl)

theorem switchLabel_steps : Rule.switchLabel.Steps source := andThen bareLabel_goes close

theorem caseItem_steps : Rule.caseItem.Steps source := by
  refine bind (attempt rfl) fun _ => ite (fun _ => ?_) fun _ => read rfl
  refine readThen rfl rfl <| ahead fun a => ite (fun h => ?_) fun _ => pure rfl
  have heof : a.kind ≠ .eof := by
    rcases (Bool.or_eq_true ..).mp h with h | h
    · exact word_ne_eof h
    · exact ne_eof h (by decide)
  exact andThen (take heof) <| readThen rfl rfl close

theorem pattern_steps : Rule.pattern.Steps source :=
  andThen (read rfl) <| readThen rfl rfl <| andThen (expect (by decide)) close

/-! ### Any statement -/

theorem startsYield_ne_eof (h : a.startsYield = true) : a.kind ≠ .eof :=
  word_ne_eof (Bool.and_eq_true_iff.mp h).1

theorem statement_steps : Rule.statement.Steps source := by
  refine andThen nest <| ahead fun a => ?_
  split <;> rename_i hkind
  · exact read rfl
  · exact andThen (take (hkind ▸ by decide)) close
  · exact andThen (take (hkind ▸ by decide)) <| andThen condition_goes <| readThen rfl rfl <|
      andThen (readAfter (by decide) rfl) close
  · exact andThen (take (hkind ▸ by decide)) <| readThen rfl rfl <|
      andThen (readAfter (by decide) rfl) <| andThen (expect (by decide)) close
  · exact andThen (take (hkind ▸ by decide)) <| andThen condition_goes <| readThen rfl rfl close
  · exact andThen (take (hkind ▸ by decide)) <| andThen condition_goes <| readThen rfl rfl close
  · exact andThen (take (hkind ▸ by decide)) <| readThen rfl rfl <|
      andThen (expect (by decide)) <| andThen condition_goes <| andThen (expect (by decide)) close
  · exact forStatement_goes
  · exact jump_goes (hkind ▸ by decide)
  · exact jump_goes (hkind ▸ by decide)
  · exact andThen (take (hkind ▸ by decide)) <| andThen (provided fun _ _ => read rfl) <|
      andThen (expect (by decide)) close
  · exact wordAndExpression_goes (hkind ▸ by decide)
  · exact andThen (take (hkind ▸ by decide)) <| andThen condition_goes <| readThen rfl rfl close
  · exact tryStatement_goes
  · refine ite (fun h => wordAndExpression_goes (startsYield_ne_eof h)) fun _ =>
      ite (fun h => ?_) fun _ => ?_
    · obtain ⟨hname, hcolon⟩ := Bool.and_eq_true_iff.mp h
      exact andThen (takeTwo (ne_eof hname (by decide)) (ne_eof hcolon (by decide))) <|
        readThen rfl rfl close
    · exact anywhere expressionStatement_goes

theorem statementStart_steps : Rule.statementStart.Steps source :=
  readThen rfl rfl <| andThen finish_goes close

end JavaSource.Grammar
