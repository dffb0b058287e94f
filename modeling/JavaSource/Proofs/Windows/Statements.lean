import JavaSource.Proofs.Windows.Declarations

/-!
# Statements in a window
-/

namespace JavaSource.Grammar.Window

open Carries

variable {W : Window} {e : Entry} {n i : Nat}

theorem block_carries : W.Carries e n i Production.block Production.block :=
  andThen expect <| thenReads (readWhile isInBody_asks) (.first .expect) <|
    andThen expect close

theorem startsLocalType_carries :
    W.Carries e n i Production.startsLocalType Production.startsLocalType := by
  refine ahead fun hW _ last => ask .startsTypeDeclaration (fun _ => pure) fun _ =>
    ask .startsModifier (fun _ => attempt fun found hfound => ?_) fun _ => pure
  cases found with
  | none => exact pure
  | some width =>
    simp only [Option.any_some, Asks.startsTypeDeclaration.skip last hW (hfound width rfl)]
    exact pure

theorem blockStatement_carries (hroom : i + 1 < W.size) :
    W.Carries e 1 i Production.blockStatement Production.blockStatement := by
  have hstatement : W.Asks 2 fun a =>
      a.startsYield || (a.isAt .synchronizedKw && a.kindAt 1 == .lparen) :=
    .or .startsYield (.isAtAnd .kindAt)
  refine ahead fun hW _ last => ite (hstatement hW i last hroom) (fun _ => read) fun _ =>
    bind (c := 0) startsLocalType_carries (fun _ => .none) fun _ _ _ =>
    ite rfl (fun _ => andThen read close) fun _ =>
    bind (c := 0) startsVariable_carries (fun _ => .none) fun _ _ _ =>
    ite rfl (fun _ => ?_) fun _ => read
  exact andThen read <| andThen expect close

theorem localVariableDeclaration_carries :
    W.Carries e 1 i Production.localVariableDeclaration Production.localVariableDeclaration :=
  andThen read <| andThen read <| andThen read close

theorem condition_carries : W.Carries e n i Production.condition Production.condition :=
  andThen expect <| thenReads read .expect expect

theorem expressionStatement_carries :
    W.Carries e n i Production.expressionStatement Production.expressionStatement :=
  thenReads read (.first .expect) <| andThen expect close

theorem wordAndExpression_carries {kind : Phrase} :
    W.Carries e n i (Production.wordAndExpression kind) (Production.wordAndExpression kind) :=
  andThen take <| thenReads read (.first .expect) <| andThen expect close

theorem jump_carries {kind : Phrase} :
    W.Carries e n i (Production.jump kind) (Production.jump kind) :=
  andThen take <| bind (c := 0) eat (fun _ => .none) fun _ _ _ => andThen expect close

/-! ### Loops -/

/-- Behind a parenthesis, what follows a variable stands in the window. -/
theorem variable_lt {last : Option Phrase} {width : Nat} {parts : List Tree} (hW : W.Proper)
    (hi : i < W.size) (hopen : (W.view i last).kindAt 0 = .lparen)
    (htakes : Rule.modifiedType.Takes W.source (W.start + (i + 1)) parts
      (W.start + (i + 1 + width)))
    (hlt : i + 1 + width < W.size)
    (hname : (W.view (i + 1 + width) last).kindAt 0 = .identifier) :
    i + 1 + (width + 1) + W.dimsAt (i + 1 + (width + 1)) < W.size := by
  have htype := hW.scanned.nested htakes rfl (clear hW hi)
  rw [kindsBetween_symbols (Nat.le_of_lt hlt)] at htype
  have hidentifier : TokenKind.identifier.parens false 0 = some 0 := rfl
  have hnested : parensBehind false 0 (((W.inside.drop (i + 1)).take
      (width + (W.dimsAt (i + 1 + (width + 1)) + 1))).map Symbol.kind) = some 0 := by
    rw [List.take_add, List.map_append, parensBehind_append, htype, Option.bind_some,
      List.drop_drop, drop_inside hlt last, List.take_succ_cons, List.map_cons]
    exact Option.bind_eq_some_iff.mpr ⟨0, (congrArg _ hname).trans hidentifier, parensBehind_dims _⟩
  have hend := lt_of_opened hW hi hopen hnested
  omega

/-- Behind the parenthesis of a loop, the colon that follows a variable stands in the window. -/
theorem startsForEach_carries (hi : i < W.size)
    (hopen : ∀ last, (W.view i last).kindAt 0 = .lparen) :
    W.Carries e n (i + 1) Production.startsForEach Production.startsForEach := by
  refine ahead fun hW _ last => modifiedTypeWidth_carries fun found htakes => ?_
  cases found with
  | none => exact pure
  | some width =>
    obtain ⟨parts, htakes⟩ := htakes width rfl
    have hle : i + 1 + width ≤ W.size := probe_le .modifiedType hW hi htakes
    have hcolon : ((W.view (i + 1) last).kindAt width == .identifier &&
          (((W.view (i + 1) last).skip (width + 1)).skipDims).isAt .colon) =
        ((W.swap.view (i + 1) last).kindAt width == .identifier &&
          (((W.swap.view (i + 1) last).skip (width + 1)).skipDims).isAt .colon) := by
      refine and_eq_and (beq_eq hW hle) fun hname => ?_
      have hlt : i + 1 + width < W.size := lt_of_beq hW hle hname
      have hdims := skipDims_view (p := last) hW (i := i + 1 + (width + 1)) hlt
      have hdims' := skipDims_view (W := W.swap) (p := last) hW.swap
        (i := i + 1 + (width + 1)) hlt
      rw [skip_view, skip_view, hdims, hdims']
      refine isAt_inside (variable_lt hW hi (hopen last) htakes hlt ?_)
      rw [Ahead.kindAt, at_view, Nat.add_zero, ← at_view]
      exact beq_iff_eq.mp hname
    simp only [Option.any_some, hcolon]
    exact pure

theorem forStatement_carries :
    W.Carries e 1 i Production.forStatement Production.forStatement := by
  refine andThen expect <| expectThen fun hi hopen =>
    bind (c := 0) (startsForEach_carries hi hopen) (fun _ => .none) fun _ _ _ =>
    ite rfl (fun _ => ?_) fun _ => ?_
  · exact andThen read <| andThen read <| andThen read <| andThen expect <| andThen read <|
      andThen expect <| andThen read close
  · exact andThen (provided (.not .isAt) read) <| andThen expect <|
      andThen (provided (.not .isAt) read) <| andThen expect <|
      andThen (provided (.not .isAt) read) <| andThen expect <| andThen read close

theorem variablesOrExpressions_carries :
    W.Carries e 1 i Production.variablesOrExpressions Production.variablesOrExpressions :=
  bind (c := 0) startsVariable_carries (fun _ => .none) fun _ _ _ =>
    ite rfl (fun _ => read) fun _ => separated

theorem forInit_carries : W.Carries e 1 i Production.forInit Production.forInit :=
  andThen variablesOrExpressions_carries close

theorem forUpdate_carries : W.Carries e 1 i Production.forUpdate Production.forUpdate :=
  andThen separated close

/-! ### Try -/

theorem tryStatement_carries :
    W.Carries e 1 i Production.tryStatement Production.tryStatement := by
  refine andThen expect <| isAt fun managed => ?_
  cases managed with
  | true => exact andThen read <| andThen read <| andThen (readWhile .isAt) <| andThen readAt close
  | false =>
    exact andThen read <| andThen (readWhile .isAt) <| andThen readAt <| ahead fun _ _ _ =>
      ite rfl (fun _ => mismatch) fun _ => close

theorem finallyClause_carries :
    W.Carries e n i Production.finallyClause Production.finallyClause :=
  andThen expect <| andThen read close

theorem resourceSpecification_carries :
    W.Carries e 1 i Production.resourceSpecification Production.resourceSpecification := by
  refine andThen expect <| andThen (loop <| andThen read <| ifEaten ?_ pure) <|
    andThen expect close
  exact isAt fun _ => pure

theorem variableOrName_carries :
    W.Carries e 1 i Production.variableOrName Production.variableOrName :=
  bind (c := 0) startsVariable_carries (fun _ => .none) fun _ _ _ => ite rfl
    (fun _ => andThen read <| andThen read read) fun _ => read

theorem resource_carries : W.Carries e 1 i Production.resource Production.resource :=
  andThen variableOrName_carries close

theorem resourceVariable_carries :
    W.Carries e 1 i Production.resourceVariable Production.resourceVariable :=
  andThen read <| andThen expect <| andThen read close

theorem catchClause_carries :
    W.Carries e n i Production.catchClause Production.catchClause :=
  andThen expect <| andThen expect <| andThen read <| thenReads read (.first .expect) <|
    andThen expect <| andThen expect <| andThen read close

theorem catchType_carries : W.Carries e n i Production.catchType Production.catchType :=
  andThen separated close

/-! ### Switch -/

theorem startsLabel_asks : W.Asks n Production.startsLabel := .or .isAt .isAt

theorem switchBlock_carries : W.Carries e n i Production.switchBlock Production.switchBlock :=
  andThen expect <| thenReads (readWhile (.not .isAt)) (.first .expect) <|
    andThen expect close

theorem expectLabel_carries : W.Carries e n i Production.expectLabel Production.expectLabel :=
  provided (.not startsLabel_asks) mismatch

theorem ruleBody_carries : W.Carries e 1 i Production.ruleBody Production.ruleBody := by
  refine ahead fun _ hi last => ?_
  have hkind : (W.swap.view i last).kind = (W.view i last).kind := (kindAt_eq (n := 0) hi).symm
  simp only [hkind]
  split
  · exact read
  · exact read
  · exact read

theorem switchEntry_carries :
    W.Carries e 1 i Production.switchEntry Production.switchEntry := by
  refine andThen expectLabel_carries <| andThen read <|
    ifEaten (andThen ruleBody_carries close) ?_
  refine andThen expect <| andThen (loop <| aheadAsk startsLabel_asks ?_ pure) <|
    andThen (readWhile (.and isInBody_asks (.not startsLabel_asks))) close
  exact andThen read <| andThen expect pure

theorem bareLabel_carries (hn : W.slack ≤ n) :
    W.Carries e n i Production.bareLabel Production.bareLabel :=
  have : W.Spares .caseItem n := ⟨fun _ => hn⟩
  bind (c := 0) eat (fun _ => .none) fun _ _ _ => ite rfl (fun _ => andThen expect separated)
    fun _ => pure

theorem switchLabel_carries (hn : W.slack ≤ n) :
    W.Carries e n i Production.switchLabel Production.switchLabel :=
  andThen (bareLabel_carries hn) close

theorem caseItem_carries (hn : W.slack ≤ n) :
    W.Carries e n i Production.caseItem Production.caseItem :=
  attempt fun _ _ => ite rfl (fun _ => andThen read <| aheadAsk (.or .isAtWord .isAt)
    (andThen take <| andThen (readWithin hn) close) pure) fun _ => readWithin hn

theorem pattern_carries : W.Carries e n i Production.pattern Production.pattern :=
  andThen read <| andThen read <| andThen expect close

/-! ### Any statement -/

theorem statement_carries (hroom : i + 1 < W.size) :
    W.Carries e 1 i Production.statement Production.statement := by
  refine nestThen <| ahead fun hW hi last => ?_
  have hkind : (W.swap.view i last).kind = (W.view i last).kind := (kindAt_eq (n := 0) hi).symm
  simp only [hkind]
  split
  · exact read
  · exact andThen take close
  · exact andThen take <| andThen condition_carries <| andThen read <| andThen readAfter close
  · exact andThen take <| andThen read <| andThen readAfter <| andThen expect close
  · exact andThen take <| andThen condition_carries <| andThen read close
  · exact andThen take <| andThen condition_carries <| andThen read close
  · exact andThen take <| andThen read <| andThen expect <| andThen condition_carries <|
      andThen expect close
  · exact forStatement_carries
  · exact jump_carries
  · exact jump_carries
  · exact andThen take <| andThen (provided (.not .isAt) read) <| andThen expect close
  · exact wordAndExpression_carries
  · exact andThen take <| andThen condition_carries <| andThen read close
  · exact tryStatement_carries
  · refine ite (startsYield_eq hroom) (fun _ => wordAndExpression_carries) fun _ =>
      ite (and_eq_and (isAt_inside hi) fun _ => congrArg (· == _) (kindAt_eq hroom))
        (fun _ => ?_) fun _ => expressionStatement_carries
    exact andThen takeTwo <| andThen read close

theorem statementStart_carries :
    W.Carries e 1 i Production.statementStart Production.statementStart :=
  andThen read <| andThen finish_carries close

end JavaSource.Grammar.Window
