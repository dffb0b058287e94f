import JavaSource.Proofs.Layout.Sight

/-!
# No rule sees the layout

The production of every rule ignores the layout (`Rule.production_ignores`).  The lemmas follow the
productions: moves that only read, and what they go on by, for which the view has the same answer
when it is settled.
-/

namespace JavaSource.Grammar

open Move.IgnoresLayout

/-! ### Names, modifiers and annotations -/

theorem qualifiedName_ignores : Production.qualifiedName.IgnoresLayout :=
  .bind (.expect _) fun _ =>
    .bind (.loop <| .ahead (fun a => by simp) fun _ =>
      .ite (.bind .takeTwo fun _ => .pure _) (.pure _)) fun _ => .close _

theorem qualifiedNames_ignores : Production.qualifiedNames.IgnoresLayout :=
  .bind (.separated _ _) fun _ => .close _

theorem modifiers_ignores : Production.modifiers.IgnoresLayout :=
  .ahead (fun a => by simp) fun _ => .ite
    (.bind (.loop <| .ahead (fun a => by simp) fun _ => .ite (.bind .take fun _ => .pure _) <|
      .ite (.bind (.read _) fun _ => .pure _) (.pure _)) fun _ => .close _)
    (.pure _)

theorem annotations_ignores : Production.annotations.IgnoresLayout :=
  .readWhile fun a => by simp

theorem annotationElements_ignores : Production.annotationElements.IgnoresLayout :=
  .ahead (fun a => by simp) fun _ => .ite (.separated _ _) (.ite (.read _) (.pure _))

theorem annotationUse_ignores : Production.annotationUse.IgnoresLayout :=
  .bind (.expect _) fun _ => .bind (.read _) fun _ =>
    .bind (.provided (fun a => by simp) <| .bind .take fun _ =>
      .bind annotationElements_ignores fun _ => .expect _) fun _ => .close _

theorem elementValuePair_ignores : Production.elementValuePair.IgnoresLayout :=
  .bind (.expect _) fun _ => .bind (.expect _) fun _ => .bind (.read _) fun _ => .close _

theorem bareElementValue_ignores : Production.bareElementValue.IgnoresLayout := by
  refine .ahead (fun a => by simp) fun a => ?_
  split
  · exact .read _
  · exact .bind .take fun _ => .bind (.commasUpTo fun a => by simp) fun _ =>
      .bind (.expect _) fun _ => .close _
  · exact .read _

theorem elementValue_ignores : Production.elementValue.IgnoresLayout :=
  .bind bareElementValue_ignores fun _ => .close _

/-! ### Types -/

theorem dims_ignores : Production.dims.IgnoresLayout := by
  refine .loop <| .ahead (fun a => by simp) fun a => .ite (.bind (.read _) fun _ => .pure _) <|
    .ite (.bind (.attempt _) fun width? => ?_) (.pure _)
  cases width? with
  | none => exact .pure _
  | some width => exact .ite (.bind (.read _) fun _ => .pure _) (.pure _)

theorem dim_ignores : Production.dim.IgnoresLayout :=
  .bind (.read _) fun _ => .bind (.expect _) fun _ => .bind (.expect _) fun _ => .close _

theorem baseType_ignores : Production.baseType.IgnoresLayout :=
  .ahead (fun a => by simp) fun _ => .ite .take (.ite (.read _) (.mismatch _))

theorem typeBody_ignores (withDims : Bool) : (Production.typeBody withDims).IgnoresLayout :=
  .bind (.read _) fun _ => .bind baseType_ignores fun _ =>
    .bind (.provided (fun _ => rfl) dims_ignores) fun _ => .close _

theorem type_ignores : Production.type.IgnoresLayout :=
  .bind .nest fun _ => typeBody_ignores true

theorem bareType_ignores : Production.bareType.IgnoresLayout :=
  .bind .nest fun _ => typeBody_ignores false

theorem resultType_ignores : Production.resultType.IgnoresLayout :=
  .bind (.eat _) fun _ => .ite (.close _) (.read _)

theorem classType_ignores : Production.classType.IgnoresLayout :=
  .bind (.read _) fun _ =>
    .bind (.loop <| .ahead (fun a => by simp) fun _ =>
      .ite (.bind .take fun _ => .bind (.read _) fun _ => .pure _) (.pure _)) fun _ => .close _

theorem coit_ignores : Production.coit.IgnoresLayout :=
  .bind (.read _) fun _ => .bind (.expect _) fun _ => .bind (.readAt _ _) fun _ => .close _

theorem typeArguments_ignores : Production.typeArguments.IgnoresLayout :=
  .bind (.expect _) fun _ => .bind (.provided (fun a => by simp) (.separated _ _)) fun _ =>
    .bind (.expect _) fun _ => .close _

theorem typeArgument_ignores : Production.typeArgument.IgnoresLayout :=
  .bind (.read _) fun _ => .bind (.eat _) fun _ =>
    .ite (.bind (.provided (fun a => by simp) <| .bind .take fun _ => .read _) fun _ => .close _)
      (.bind .nest fun _ => typeBody_ignores true)

theorem typeList_ignores : Production.typeList.IgnoresLayout :=
  .bind (.separated _ _) fun _ => .close _

theorem typeParameters_ignores : Production.typeParameters.IgnoresLayout :=
  .bind (.expect _) fun _ => .bind (.separated _ _) fun _ => .bind (.expect _) fun _ => .close _

theorem typeParameter_ignores : Production.typeParameter.IgnoresLayout :=
  .bind (.read _) fun _ => .bind (.expect _) fun _ => .bind (.readAfter _ _) fun _ => .close _

theorem typeBound_ignores : Production.typeBound.IgnoresLayout :=
  .bind (.separated _ _) fun _ => .close _

theorem modifiedType_ignores : Production.modifiedType.IgnoresLayout :=
  .bind (.read _) fun _ => .read _

theorem modifiedTypeWidth_ignores : Production.modifiedTypeWidth.IgnoresLayout :=
  .ahead (fun a => by simp) fun _ => .ite (.attempt _) (.pure _)

theorem startsVariable_ignores : Production.startsVariable.IgnoresLayout :=
  .ahead (fun a => by simp) fun _ => .bind modifiedTypeWidth_ignores fun _ => .pure _

/-! ### Compilation units and modules -/

@[simp] theorem isAtModule_settled (a : Ahead) :
    Production.isAtModule a.settled = Production.isAtModule a := by
  simp [Production.isAtModule]

theorem startsPackage_ignores : Production.startsPackage.IgnoresLayout :=
  .ahead (fun a => by simp) fun _ => .ite (.pure _) <|
    .ite (.bind (.attempt _) fun _ => .pure _) (.pure _)

theorem startsModule_ignores : Production.startsModule.IgnoresLayout :=
  .ahead (fun a => by simp) fun _ => .ite (.bind (.attempt _) fun _ => .pure _) (.pure _)

theorem packageDeclaration_ignores : Production.packageDeclaration.IgnoresLayout :=
  .bind (.read _) fun _ => .bind (.expect _) fun _ => .bind (.read _) fun _ =>
    .bind (.expect _) fun _ => .close _

theorem importDeclaration_ignores : Production.importDeclaration.IgnoresLayout :=
  .bind (.expect _) fun _ => .bind (.eat _) fun _ => .bind (.read _) fun _ =>
    .bind (.provided (fun a => by simp) .takeTwo) fun _ => .bind (.expect _) fun _ => .close _

theorem moduleDeclaration_ignores : Production.moduleDeclaration.IgnoresLayout :=
  .bind (.read _) fun _ => .bind (.provided (fun a => by simp) .take) fun _ =>
    .bind (.expectWord _) fun _ => .bind (.read _) fun _ => .bind (.expect _) fun _ =>
      .bind (.readWhile fun a => by simp) fun _ => .bind (.expect _) fun _ => .close _

theorem nameAndTargets_ignores (word : String) :
    (Production.nameAndTargets word).IgnoresLayout :=
  .bind (.read _) fun _ => .provided (fun a => by simp) <| .bind .take fun _ => .read _

theorem requiresModifiers_ignores : Production.requiresModifiers.IgnoresLayout :=
  .loop <| .ahead (fun a => by simp) fun _ => .ite (.bind .take fun _ => .pure _) (.pure _)

theorem moduleDirective_ignores : Production.moduleDirective.IgnoresLayout := by
  refine .ahead (fun a => by simp) fun _ => .ite ?_ <| .ite ?_ <| .ite ?_ <| .ite ?_ <|
    .ite ?_ (.mismatch _)
  · exact .bind .take fun _ => .bind requiresModifiers_ignores fun _ => .bind (.read _) fun _ =>
      .bind (.expect _) fun _ => .close _
  · exact .bind .take fun _ => .bind (nameAndTargets_ignores _) fun _ =>
      .bind (.expect _) fun _ => .close _
  · exact .bind .take fun _ => .bind (nameAndTargets_ignores _) fun _ =>
      .bind (.expect _) fun _ => .close _
  · exact .bind .take fun _ => .bind (.read _) fun _ => .bind (.expect _) fun _ => .close _
  · exact .bind .take fun _ => .bind (.read _) fun _ => .bind (.expectWord _) fun _ =>
      .bind (.read _) fun _ => .bind (.expect _) fun _ => .close _

theorem finish_ignores : Production.finish.IgnoresLayout :=
  .bind (.isAt _) fun _ => .ite (.fail _) (.pure _)

theorem unitPackage_ignores : Production.unitPackage.IgnoresLayout :=
  .bind startsPackage_ignores fun _ => .ite (.read _) (.pure _)

theorem unitBody_ignores : Production.unitBody.IgnoresLayout :=
  .bind startsModule_ignores fun _ => .ite (.read _) (.readWhile fun a => by simp)

theorem compilationUnit_ignores : Production.compilationUnit.IgnoresLayout :=
  .bind unitPackage_ignores fun _ => .bind (.readWhile fun a => by simp) fun _ =>
    .bind unitBody_ignores fun _ => .bind finish_ignores fun _ => .close _

theorem anyDeclaration_ignores : Production.anyDeclaration.IgnoresLayout :=
  .bind startsPackage_ignores fun _ => .ite (.read _) <| .bind (.isAt _) fun _ =>
    .ite (.read _) <| .bind startsModule_ignores fun _ => .ite (.read _) (.read _)

theorem declarationStart_ignores : Production.declarationStart.IgnoresLayout :=
  .bind anyDeclaration_ignores fun _ => .bind finish_ignores fun _ => .close _

/-! ### Bodies -/

@[simp] theorem isInBody_settled (a : Ahead) :
    Production.isInBody a.settled = Production.isInBody a := by
  simp [Production.isInBody]

theorem classBody_ignores (setting : Setting) : (Production.classBody setting).IgnoresLayout :=
  .bind .nest fun _ => .bind (.expect _) fun _ => .bind (.readWhile isInBody_settled) fun _ =>
    .bind (.expect _) fun _ => .close _

theorem enumBody_ignores : Production.enumBody.IgnoresLayout :=
  .bind (.expect _) fun _ => .bind (.commasUpTo fun a => by simp) fun _ =>
    .bind (.provided (fun a => by simp) <| .bind .take fun _ => .readWhile isInBody_settled)
      fun _ => .bind (.expect _) fun _ => .close _

theorem enumConstant_ignores : Production.enumConstant.IgnoresLayout :=
  .bind (.read _) fun _ => .bind (.expect _) fun _ => .bind (.readAt _ _) fun _ =>
    .bind (.readAt _ _) fun _ => .close _

theorem classBodyDeclaration_ignores (setting : Setting) :
    (Production.classBodyDeclaration setting).IgnoresLayout :=
  .ahead (fun a => by simp) fun _ => .ite (.bind .take fun _ => .close _) <|
    .ite (.bind (.read _) fun _ => .close _) <|
      .ite (.bind .take fun _ => .bind (.read _) fun _ => .close _) (.read _)

theorem memberDeclaration_ignores (setting : Setting) :
    (Production.memberDeclaration setting).IgnoresLayout :=
  .bind (.read _) fun _ => .bind (.read _) fun _ => .close _

/-! ### Types declared -/

theorem permits_ignores : Production.permits.IgnoresLayout :=
  .provided (fun a => by simp) <| .bind .take fun _ => .read _

theorem classDeclaration_ignores : Production.classDeclaration.IgnoresLayout :=
  .bind (.expect _) fun _ => .bind (.expect _) fun _ => .bind (.readAt _ _) fun _ =>
    .bind (.readAfter _ _) fun _ => .bind (.readAfter _ _) fun _ => .bind permits_ignores fun _ =>
      .bind (.read _) fun _ => .close _

theorem interfaceDeclaration_ignores : Production.interfaceDeclaration.IgnoresLayout :=
  .bind (.expect _) fun _ => .bind (.expect _) fun _ => .bind (.readAt _ _) fun _ =>
    .bind (.readAfter _ _) fun _ => .bind permits_ignores fun _ => .bind (.read _) fun _ =>
      .close _

theorem enumDeclaration_ignores : Production.enumDeclaration.IgnoresLayout :=
  .bind (.expect _) fun _ => .bind (.expect _) fun _ => .bind (.readAfter _ _) fun _ =>
    .bind (.read _) fun _ => .close _

theorem recordDeclaration_ignores : Production.recordDeclaration.IgnoresLayout :=
  .bind (.expectWord _) fun _ => .bind (.expect _) fun _ => .bind (.readAt _ _) fun _ =>
    .bind (.read _) fun _ => .bind (.readAfter _ _) fun _ => .bind (.read _) fun _ => .close _

theorem recordHeader_ignores : Production.recordHeader.IgnoresLayout :=
  .bind (.expect _) fun _ => .bind (.provided (fun a => by simp) (.separated _ _)) fun _ =>
    .bind (.expect _) fun _ => .close _

theorem recordComponent_ignores : Production.recordComponent.IgnoresLayout :=
  .bind (.read _) fun _ => .bind (.read _) fun _ => .bind (.eat _) fun _ =>
    .bind (.expect _) fun _ => .close _

theorem annotationTypeDeclaration_ignores :
    Production.annotationTypeDeclaration.IgnoresLayout :=
  .bind (.expect _) fun _ => .bind (.expect _) fun _ => .bind (.expect _) fun _ =>
    .bind (.read _) fun _ => .close _

/-! ### Members -/

theorem fieldDeclaration_ignores : Production.fieldDeclaration.IgnoresLayout :=
  .bind (.read _) fun _ => .bind (.read _) fun _ => .bind (.expect _) fun _ => .close _

theorem methodBody_ignores : Production.methodBody.IgnoresLayout :=
  .bind (.isAt _) fun _ => .ite (.read _) (.expect _)

theorem methodDeclaration_ignores : Production.methodDeclaration.IgnoresLayout :=
  .bind (.read _) fun _ => .bind (.expect _) fun _ => .bind (.read _) fun _ =>
    .bind dims_ignores fun _ => .bind (.readAfter _ _) fun _ => .bind methodBody_ignores fun _ =>
      .close _

theorem constructorDeclaration_ignores : Production.constructorDeclaration.IgnoresLayout :=
  .bind (.expect _) fun _ => .bind (.read _) fun _ => .bind (.readAfter _ _) fun _ =>
    .bind (.read _) fun _ => .close _

theorem elementDeclaration_ignores : Production.elementDeclaration.IgnoresLayout :=
  .bind (.read _) fun _ => .bind (.expect _) fun _ => .bind (.expect _) fun _ =>
    .bind (.expect _) fun _ => .bind dims_ignores fun _ => .bind (.readAfter _ _) fun _ =>
      .bind (.expect _) fun _ => .close _

theorem typedMember_ignores (setting : Setting) :
    (Production.typedMember setting).IgnoresLayout := by
  refine .ahead (fun a => by simp) fun a => .bind (.attempt _) fun width? => ?_
  cases width? with
  | none => exact fieldDeclaration_ignores
  | some width =>
    exact .ite fieldDeclaration_ignores (.ite elementDeclaration_ignores methodDeclaration_ignores)

theorem genericMember_ignores : (do
    Move.read .typeParameters
    let b ← Move.ahead
    if b.isAt .identifier && b.kindAt 1 == .lparen then Production.constructorDeclaration
    else
      Move.read .annotations
      Production.methodDeclaration : Move Unit).IgnoresLayout :=
  .bind (.read _) fun _ => .ahead (fun a => by simp) fun _ =>
    .ite constructorDeclaration_ignores (.bind (.read _) fun _ => methodDeclaration_ignores)

theorem memberBody_ignores (setting : Setting) :
    (Production.memberBody setting).IgnoresLayout := by
  refine .ahead (fun a => by simp) fun a => .ite classDeclaration_ignores <|
    .ite interfaceDeclaration_ignores <| .ite enumDeclaration_ignores <|
      .ite annotationTypeDeclaration_ignores <| .ite recordDeclaration_ignores <|
        .ite (.mismatch _) ?_
  split
  · exact genericMember_ignores
  · exact .ite constructorDeclaration_ignores <|
      .ite (.bind .take fun _ => .bind (.read _) fun _ => .close _) (typedMember_ignores setting)
  · exact methodDeclaration_ignores
  · exact typedMember_ignores setting

/-! ### Parameters and variables -/

theorem parameterAndComma_ignores (ofLambda : Bool) :
    (Production.parameterAndComma ofLambda).IgnoresLayout :=
  .ahead (fun a => by simp) fun _ => .bind (.read _) fun _ => .ahead (fun a => by simp) fun _ =>
    .ite trivial (.ite (.pure _) (.eat _))

theorem formalParameters_ignores (ofLambda : Bool) :
    (Production.formalParameters ofLambda).IgnoresLayout :=
  .bind (.expect _) fun _ =>
    .bind (.provided (fun a => by simp) (.loop (parameterAndComma_ignores ofLambda))) fun _ =>
      .bind (.expect _) fun _ => .close _

theorem formalParameter_ignores : Production.formalParameter.IgnoresLayout := by
  refine .bind (.read _) fun _ => .bind (.read _) fun _ => .bind (.read _) fun _ =>
    .ahead (fun a => by simp) fun a => .ite ?_ <| .ite (.mismatch _) <| .ite ?_ <| .ite ?_ ?_
  · exact .bind .take fun _ => .bind (.expect _) fun _ => .close _
  · exact .bind .take fun _ => .close _
  · exact .bind (.loop <| .ahead (fun a => by simp) fun _ =>
      .ite (.bind .takeTwo fun _ => .pure _) (.pure _)) fun _ =>
        .bind (.expect _) fun _ => .close _
  · exact .bind (.read _) fun _ => .close _

theorem variableDeclarators_ignores : Production.variableDeclarators.IgnoresLayout :=
  .bind (.separated _ _) fun _ => .close _

theorem variableDeclarator_ignores : Production.variableDeclarator.IgnoresLayout :=
  .bind (.read _) fun _ => .bind (.readAfter _ _) fun _ => .close _

theorem variableDeclaratorId_ignores : Production.variableDeclaratorId.IgnoresLayout :=
  .bind (.expect _) fun _ => .bind dims_ignores fun _ => .close _

theorem variableInitializer_ignores : Production.variableInitializer.IgnoresLayout :=
  .bind (.isAt _) fun _ => .ite (.read _) (.read _)

theorem arrayInitializer_ignores : Production.arrayInitializer.IgnoresLayout :=
  .bind .nest fun _ => .bind (.expect _) fun _ => .bind (.commasUpTo fun a => by simp) fun _ =>
    .bind (.expect _) fun _ => .close _

/-! ### Blocks -/

theorem block_ignores : Production.block.IgnoresLayout :=
  .bind (.expect _) fun _ => .bind (.readWhile isInBody_settled) fun _ =>
    .bind (.expect _) fun _ => .close _

theorem startsLocalType_ignores : Production.startsLocalType.IgnoresLayout :=
  .ahead (fun a => by simp) fun _ => .ite (.pure _) <|
    .ite (.bind (.attempt _) fun _ => .pure _) (.pure _)

theorem blockStatement_ignores : Production.blockStatement.IgnoresLayout :=
  .ahead (fun a => by simp) fun _ => .ite (.read _) <| .bind startsLocalType_ignores fun _ =>
    .ite (.bind (.read _) fun _ => .close _) <| .bind startsVariable_ignores fun _ =>
      .ite (.bind (.read _) fun _ => .bind (.expect _) fun _ => .close _) (.read _)

theorem localVariableDeclaration_ignores : Production.localVariableDeclaration.IgnoresLayout :=
  .bind (.read _) fun _ => .bind (.read _) fun _ => .bind (.read _) fun _ => .close _

theorem condition_ignores : Production.condition.IgnoresLayout :=
  .bind (.expect _) fun _ => .bind (.read _) fun _ => .expect _

theorem expressionStatement_ignores : Production.expressionStatement.IgnoresLayout :=
  .bind (.read _) fun _ => .bind (.expect _) fun _ => .close _

theorem wordAndExpression_ignores (kind : Phrase) :
    (Production.wordAndExpression kind).IgnoresLayout :=
  .bind .take fun _ => .bind (.read _) fun _ => .bind (.expect _) fun _ => .close _

theorem jump_ignores (kind : Phrase) : (Production.jump kind).IgnoresLayout :=
  .bind .take fun _ => .bind (.eat _) fun _ => .bind (.expect _) fun _ => .close _

/-! ### Loops and `try` -/

theorem startsForEach_ignores : Production.startsForEach.IgnoresLayout :=
  .ahead (fun a => by simp) fun _ => .bind modifiedTypeWidth_ignores fun _ => .pure _

theorem forStatement_ignores : Production.forStatement.IgnoresLayout := by
  refine .bind (.expect _) fun _ => .bind (.expect _) fun _ => .bind startsForEach_ignores
    fun _ => .ite ?_ ?_
  · exact .bind (.read _) fun _ => .bind (.read _) fun _ => .bind (.read _) fun _ =>
      .bind (.expect _) fun _ => .bind (.read _) fun _ => .bind (.expect _) fun _ =>
        .bind (.read _) fun _ => .close _
  · exact .bind (.provided (fun a => by simp) (.read _)) fun _ => .bind (.expect _) fun _ =>
      .bind (.provided (fun a => by simp) (.read _)) fun _ => .bind (.expect _) fun _ =>
        .bind (.provided (fun a => by simp) (.read _)) fun _ => .bind (.expect _) fun _ =>
          .bind (.read _) fun _ => .close _

theorem variablesOrExpressions_ignores : Production.variablesOrExpressions.IgnoresLayout :=
  .bind startsVariable_ignores fun _ => .ite (.read _) (.separated _ _)

theorem forInit_ignores : Production.forInit.IgnoresLayout :=
  .bind variablesOrExpressions_ignores fun _ => .close _

theorem forUpdate_ignores : Production.forUpdate.IgnoresLayout :=
  .bind (.separated _ _) fun _ => .close _

theorem tryStatement_ignores : Production.tryStatement.IgnoresLayout := by
  refine .bind (.expect _) fun _ => .bind (.isAt _) fun managed => ?_
  have hrest : (do
      Move.read .block
      Move.readWhile (·.isAt .catchKw) .catchClause
      Move.readAt .finallyKw .finallyClause
      if managed then Move.close .tryWithResourcesStatement
      else if (← Move.ahead).last == some .block then
        Move.mismatch "\x7b'catch', 'finally'\x7d"
      else Move.close .tryStatement : Move Unit).IgnoresLayout :=
    .bind (.read _) fun _ => .bind (.readWhile fun a => by simp) fun _ =>
      .bind (.readAt _ _) fun _ => .ite (.close _) <| .ahead (fun _ => rfl) fun _ =>
        .ite (.mismatch _) (.close _)
  exact .ite (.bind (.read _) fun _ => hrest) hrest

theorem finallyClause_ignores : Production.finallyClause.IgnoresLayout :=
  .bind (.expect _) fun _ => .bind (.read _) fun _ => .close _

theorem resourceSpecification_ignores : Production.resourceSpecification.IgnoresLayout :=
  .bind (.expect _) fun _ =>
    .bind (.loop <| .bind (.read _) fun _ => .bind (.eat _) fun _ =>
      .ite (.bind (.isAt _) fun _ => .pure _) (.pure _)) fun _ =>
        .bind (.expect _) fun _ => .close _

theorem variableOrName_ignores : Production.variableOrName.IgnoresLayout :=
  .bind startsVariable_ignores fun _ =>
    .ite (.bind (.read _) fun _ => .bind (.read _) fun _ => .read _) (.read _)

theorem resource_ignores : Production.resource.IgnoresLayout :=
  .bind variableOrName_ignores fun _ => .close _

theorem resourceVariable_ignores : Production.resourceVariable.IgnoresLayout :=
  .bind (.read _) fun _ => .bind (.expect _) fun _ => .bind (.read _) fun _ => .close _

theorem catchClause_ignores : Production.catchClause.IgnoresLayout :=
  .bind (.expect _) fun _ => .bind (.expect _) fun _ => .bind (.read _) fun _ =>
    .bind (.read _) fun _ => .bind (.expect _) fun _ => .bind (.expect _) fun _ =>
      .bind (.read _) fun _ => .close _

theorem catchType_ignores : Production.catchType.IgnoresLayout :=
  .bind (.separated _ _) fun _ => .close _

/-! ### Switch -/

@[simp] theorem startsLabel_settled (a : Ahead) :
    Production.startsLabel a.settled = Production.startsLabel a := by
  simp [Production.startsLabel]

theorem switchBlock_ignores : Production.switchBlock.IgnoresLayout :=
  .bind (.expect _) fun _ => .bind (.readWhile fun a => by simp) fun _ =>
    .bind (.expect _) fun _ => .close _

theorem ruleBody_ignores : Production.ruleBody.IgnoresLayout := by
  refine .ahead (fun a => by simp) fun a => ?_
  split
  · exact .read _
  · exact .read _
  · exact .read _

theorem switchEntry_ignores : Production.switchEntry.IgnoresLayout := by
  refine .bind (.provided (fun a => by simp) (.mismatch _)) fun _ => .bind (.read _) fun _ =>
    .bind (.eat _) fun _ => .ite (.bind ruleBody_ignores fun _ => .close _) ?_
  exact .bind (.expect _) fun _ =>
    .bind (.loop <| .ahead (fun a => by simp) fun _ =>
      .ite (.bind (.read _) fun _ => .bind (.expect _) fun _ => .pure _) (.pure _)) fun _ =>
        .bind (.readWhile fun a => by simp) fun _ => .close _

theorem bareLabel_ignores : Production.bareLabel.IgnoresLayout :=
  .bind (.eat _) fun _ => .ite (.bind (.expect _) fun _ => .separated _ _) (.pure _)

theorem switchLabel_ignores : Production.switchLabel.IgnoresLayout :=
  .bind bareLabel_ignores fun _ => .close _

theorem caseItem_ignores : Production.caseItem.IgnoresLayout :=
  .bind (.attempt _) fun _ => .ite
    (.bind (.read _) fun _ => .ahead (fun a => by simp) fun _ =>
      .ite (.bind .take fun _ => .bind (.read _) fun _ => .close _) (.pure _))
    (.read _)

theorem pattern_ignores : Production.pattern.IgnoresLayout :=
  .bind (.read _) fun _ => .bind (.read _) fun _ => .bind (.expect _) fun _ => .close _

/-! ### Statements -/

theorem statement_ignores : Production.statement.IgnoresLayout := by
  refine .bind .nest fun _ => .ahead (fun a => by simp) fun a => ?_
  split
  · exact .read _
  · exact .bind .take fun _ => .close _
  · exact .bind .take fun _ => .bind condition_ignores fun _ => .bind (.read _) fun _ =>
      .bind (.readAfter _ _) fun _ => .close _
  · exact .bind .take fun _ => .bind (.read _) fun _ => .bind (.readAfter _ _) fun _ =>
      .bind (.expect _) fun _ => .close _
  · exact .bind .take fun _ => .bind condition_ignores fun _ => .bind (.read _) fun _ => .close _
  · exact .bind .take fun _ => .bind condition_ignores fun _ => .bind (.read _) fun _ => .close _
  · exact .bind .take fun _ => .bind (.read _) fun _ => .bind (.expect _) fun _ =>
      .bind condition_ignores fun _ => .bind (.expect _) fun _ => .close _
  · exact forStatement_ignores
  · exact jump_ignores _
  · exact jump_ignores _
  · exact .bind .take fun _ => .bind (.provided (fun a => by simp) (.read _)) fun _ =>
      .bind (.expect _) fun _ => .close _
  · exact wordAndExpression_ignores _
  · exact .bind .take fun _ => .bind condition_ignores fun _ => .bind (.read _) fun _ => .close _
  · exact tryStatement_ignores
  · exact .ite (wordAndExpression_ignores _) <|
      .ite (.bind .takeTwo fun _ => .bind (.read _) fun _ => .close _) expressionStatement_ignores

theorem statementStart_ignores : Production.statementStart.IgnoresLayout :=
  .bind (.read _) fun _ => .bind finish_ignores fun _ => .close _

/-! ### Lambdas and operators -/

theorem expressionStart_ignores : Production.expressionStart.IgnoresLayout :=
  .bind (.read _) fun _ => .bind finish_ignores fun _ => .close _

theorem expression_ignores : Production.expression.IgnoresLayout :=
  .bind .nest fun _ => .ahead (fun a => by simp) fun _ => .ite (.read _) <|
    .bind (.read _) fun _ => .ahead (fun a => by simp) fun _ =>
      .ite (.bind .take fun _ => .bind (.read _) fun _ => .close _) (.pure _)

theorem lambda_ignores : Production.lambda.IgnoresLayout :=
  .bind (.read _) fun _ => .bind (.expect _) fun _ =>
    .bind (.bind (.isAt _) fun _ => .ite (.read _) (.read _)) fun _ => .close _

@[simp] theorem namesOnly_settled (a : Ahead) :
    Production.namesOnly a.settled = Production.namesOnly a := by
  simp [Production.namesOnly]

theorem lambdaParameters_ignores : Production.lambdaParameters.IgnoresLayout := by
  refine .bind (.ahead (fun a => by simp) fun _ => .ite .take <| .ite ?_ (.read _))
    fun _ => .close _
  exact .bind (.expect _) fun _ =>
    .bind (.loop <| .bind (.isAt _) fun _ => .ite (.pure _) (.bind (.expect _) fun _ => .eat _))
      fun _ => .expect _

theorem alternative_ignores : Production.alternative.IgnoresLayout :=
  .ahead (fun a => by simp) fun _ => .ite (.read _) (.bind .nest fun _ => .read _)

theorem ternary_ignores : Production.ternary.IgnoresLayout :=
  .bind (.read _) fun _ => .bind (.eat _) fun _ => .ite
    (.bind (.read _) fun _ => .bind (.expect _) fun _ => .bind alternative_ignores fun _ =>
      .close _)
    (.pure _)

theorem operation_ignores (layer : Layer) (op : TokenKind) (width : Nat) :
    (Production.operation layer op width).IgnoresLayout := by
  refine .bind .nest fun _ => .bind (.ite .take (.joined _ _)) fun _ => .ite ?_ ?_
  · exact .bind (.bind (.attempt _) fun _ => .ite (.read _) (.read _)) fun _ => .close _
  · refine .bind ?_ fun _ => .close _
    unfold Production.rightOperand
    split
    · exact .read _
    · exact .read _

/-- The one rule that asks what touches asks it of an operator. -/
theorem binary_ignores (loosest : Layer) : (Production.binary loosest).IgnoresLayout := by
  refine .bind (.read _) fun _ => .loop <| .ahead (fun a => by simp) fun a => ?_
  dsimp only
  split
  · exact .pure _
  · exact .ite (.pure _) (.bind (operation_ignores _ _ _) fun _ => .pure _)

theorem startsCast_ignores : Production.startsCast.IgnoresLayout := by
  refine .ahead (fun a => by simp) fun a => .bind (.attempt _) fun width? => ?_
  cases width? with
  | none => exact .pure _
  | some width => exact .ite (.pure _) (.pure _)

theorem castHead_ignores : Production.castHead.IgnoresLayout :=
  .bind (.expect _) fun _ => .bind (.separated _ _) fun _ => .expect _

theorem castOperand_ignores : Production.castOperand.IgnoresLayout :=
  .ahead (fun a => by simp) fun _ => .ite (.read _) (.read _)

theorem unary_ignores : Production.unary.IgnoresLayout := by
  have hprefixed : (do
      Move.take
      Move.read .unary
      Move.close .prefixed : Move Unit).IgnoresLayout :=
    .bind .take fun _ => .bind (.read _) fun _ => .close _
  refine .bind .nest fun _ => .ahead (fun a => by simp) fun a => ?_
  split
  · exact hprefixed
  · exact hprefixed
  · exact hprefixed
  · exact hprefixed
  · exact hprefixed
  · exact hprefixed
  · exact .bind startsCast_ignores fun _ => .ite
      (.bind (.read _) fun _ => .bind castOperand_ignores fun _ => .close _) (.read _)
  · exact .read _

/-! ### Selectors and creation -/

theorem methodReference_ignores : Production.methodReference.IgnoresLayout :=
  .bind (.expect _) fun _ => .bind (.readAt _ _) fun _ =>
    .bind (.ahead (fun a => by simp) fun _ => .ite .take (.mismatch _)) fun _ => .close _

theorem postfixed_ignores : Production.postfixed.IgnoresLayout := by
  refine .bind (.read _) fun _ => .bind (.loop <| .ahead (fun a => by simp) fun a => ?_) fun _ =>
    .loop <| .ahead (fun a => by simp) fun a => ?_
  · split
    · exact .bind .nest fun _ => .bind .take fun _ => .bind (.read _) fun _ =>
        .bind (.close _) fun _ => .pure _
    · exact .bind .nest fun _ => .bind .take fun _ => .bind (.read _) fun _ =>
        .bind (.expect _) fun _ => .bind (.close _) fun _ => .pure _
    · exact .bind .nest fun _ => .bind methodReference_ignores fun _ => .pure _
    · exact .pure _
  · exact .ite (.bind .nest fun _ => .bind .take fun _ => .bind (.close _) fun _ => .pure _)
      (.pure _)

theorem dimExpr_ignores : Production.dimExpr.IgnoresLayout :=
  .bind (.expect _) fun _ => .bind (.read _) fun _ => .bind (.expect _) fun _ => .close _

theorem constructed_ignores : Production.constructed.IgnoresLayout :=
  .bind (.read _) fun _ => .readAt _ _

theorem creator_ignores : Production.creator.IgnoresLayout := by
  refine .bind (.expect _) fun _ => .bind (.readAt _ _) fun _ => .bind (.read _) fun _ =>
    .ahead (fun a => by simp) fun a => .ite ?_ (.bind constructed_ignores fun _ => .close _)
  exact .bind (.readWhile fun a => by simp) fun _ => .ahead (fun _ => rfl) fun _ =>
    .bind dims_ignores fun _ => .ite (.close _) <|
      .bind (.provided (fun _ => rfl) (.mismatch _)) fun _ => .bind (.read _) fun _ => .close _

theorem innerCreator_ignores : Production.innerCreator.IgnoresLayout :=
  .bind (.expect _) fun _ => .bind (.readAt _ _) fun _ => .bind (.read _) fun _ =>
    .bind (.expect _) fun _ => .bind (.readAt _ _) fun _ => .bind constructed_ignores fun _ =>
      .close _

/-! ### Primaries -/

theorem single_ignores (kind : Phrase) : (Production.single kind).IgnoresLayout :=
  .bind .take fun _ => .close _

theorem selected_ignores : Production.selected.IgnoresLayout := by
  refine .ahead (fun a => by simp) fun a => ?_
  split
  · exact .ite (.read _) (single_ignores _)
  · exact .read _
  · exact single_ignores _
  · exact .read _
  · exact innerCreator_ignores
  · exact .mismatch _

theorem typeSelector_ignores : Production.typeSelector.IgnoresLayout :=
  .bind (.isAt _) fun _ => .ite methodReference_ignores <|
    .bind (.expect _) fun _ => .bind (.expect _) fun _ => .close _

theorem startsTypeSelector_ignores : Production.startsTypeSelector.IgnoresLayout := by
  refine .ahead (fun a => by simp) fun a => ?_
  split
  case h_6 => exact .pure _
  all_goals
    refine .bind (.attempt _) fun width? => ?_
    cases width? with
    | none => exact .pure _
    | some width => exact .pure _

theorem primary_ignores : Production.primary.IgnoresLayout := by
  refine .ahead (fun a => by simp) fun a => ?_
  split
  · exact .bind .take fun _ => .bind (.read _) fun _ => .bind (.expect _) fun _ => .close _
  · exact .ite (.read _) (single_ignores _)
  · exact .read _
  · exact creator_ignores
  · exact .bind .take fun _ => .bind condition_ignores fun _ => .bind (.read _) fun _ => .close _
  · exact .read _
  · exact .ite (.read _) <| .bind startsTypeSelector_ignores fun _ =>
      .ite (.bind (.read _) fun _ => typeSelector_ignores) (single_ignores _)
  · exact .ite (single_ignores _) <|
      .ite (.bind (.read _) fun _ => typeSelector_ignores) (.fail _)

theorem methodCall_ignores : Production.methodCall.IgnoresLayout :=
  .bind (.ahead (fun a => by simp) fun _ => .ite .take (.mismatch _)) fun _ =>
    .bind (.read _) fun _ => .close _

theorem arguments_ignores : Production.arguments.IgnoresLayout :=
  .bind (.expect _) fun _ => .bind (.provided (fun a => by simp) (.separated _ _)) fun _ =>
    .bind (.expect _) fun _ => .close _

theorem superAccess_ignores : Production.superAccess.IgnoresLayout := by
  refine .ahead (fun a => by simp) fun a => ?_
  split
  · exact .read _
  · exact .bind .takeTwo fun _ => .bind (.readAt _ _) fun _ => .bind (.expect _) fun _ =>
      .bind (.readAt _ _) fun _ => .close _
  · exact .bind (.expect _) fun _ => .close _

theorem callOrSuper_ignores : Production.callOrSuper.IgnoresLayout := by
  refine .ahead (fun a => by simp) fun a => ?_
  split
  · exact .read _
  · exact .read _
  · exact .read _
  · exact .mismatch _

theorem genericInvocation_ignores : Production.genericInvocation.IgnoresLayout :=
  .bind (.read _) fun _ => .bind callOrSuper_ignores fun _ => .close _

/-- **No rule sees the layout.** -/
theorem Rule.production_ignores : ∀ r : Rule, r.production.IgnoresLayout
  | .compilationUnit              => compilationUnit_ignores
  | .declarationStart             => declarationStart_ignores
  | .statementStart               => statementStart_ignores
  | .expressionStart              => expressionStart_ignores
  | .qualifiedName                => qualifiedName_ignores
  | .qualifiedNames               => qualifiedNames_ignores
  | .modifiers                    => modifiers_ignores
  | .annotations                  => annotations_ignores
  | .annotationUse                => annotationUse_ignores
  | .elementValuePair             => elementValuePair_ignores
  | .elementValue                 => elementValue_ignores
  | .type                         => type_ignores
  | .bareType                     => bareType_ignores
  | .resultType                   => resultType_ignores
  | .classType                    => classType_ignores
  | .coit                         => coit_ignores
  | .typeArguments                => typeArguments_ignores
  | .typeArgument                 => typeArgument_ignores
  | .dim                          => dim_ignores
  | .typeList                     => typeList_ignores
  | .typeParameters               => typeParameters_ignores
  | .typeParameter                => typeParameter_ignores
  | .typeBound                    => typeBound_ignores
  | .modifiedType                 => modifiedType_ignores
  | .packageDeclaration           => packageDeclaration_ignores
  | .importDeclaration            => importDeclaration_ignores
  | .moduleDeclaration            => moduleDeclaration_ignores
  | .moduleDirective              => moduleDirective_ignores
  | .classBodyDeclaration setting => classBodyDeclaration_ignores setting
  | .memberDeclaration setting    => memberDeclaration_ignores setting
  | .memberBody setting           => memberBody_ignores setting
  | .classBody setting            => classBody_ignores setting
  | .enumBody                     => enumBody_ignores
  | .enumConstant                 => enumConstant_ignores
  | .recordHeader                 => recordHeader_ignores
  | .recordComponent              => recordComponent_ignores
  | .formalParameters ofLambda    => formalParameters_ignores ofLambda
  | .formalParameter              => formalParameter_ignores
  | .variableDeclarators          => variableDeclarators_ignores
  | .variableDeclarator           => variableDeclarator_ignores
  | .variableDeclaratorId         => variableDeclaratorId_ignores
  | .variableInitializer          => variableInitializer_ignores
  | .arrayInitializer             => arrayInitializer_ignores
  | .block                        => block_ignores
  | .blockStatement               => blockStatement_ignores
  | .localVariableDeclaration     => localVariableDeclaration_ignores
  | .statement                    => statement_ignores
  | .expressionStatement          => expressionStatement_ignores
  | .forInit                      => forInit_ignores
  | .forUpdate                    => forUpdate_ignores
  | .finallyClause                => finallyClause_ignores
  | .resourceSpecification        => resourceSpecification_ignores
  | .resource                     => resource_ignores
  | .resourceVariable             => resourceVariable_ignores
  | .catchClause                  => catchClause_ignores
  | .catchType                    => catchType_ignores
  | .switchBlock                  => switchBlock_ignores
  | .switchEntry                  => switchEntry_ignores
  | .switchLabel                  => switchLabel_ignores
  | .caseItem                     => caseItem_ignores
  | .pattern                      => pattern_ignores
  | .expression                   => expression_ignores
  | .lambda                       => lambda_ignores
  | .lambdaParameters             => lambdaParameters_ignores
  | .ternary                      => ternary_ignores
  | .binary loosest               => binary_ignores loosest
  | .unary                        => unary_ignores
  | .castHead                     => castHead_ignores
  | .postfixed                    => postfixed_ignores
  | .primary                      => primary_ignores
  | .selected                     => selected_ignores
  | .methodCall                   => methodCall_ignores
  | .arguments                    => arguments_ignores
  | .superAccess                  => superAccess_ignores
  | .genericInvocation            => genericInvocation_ignores
  | .dimExpr                      => dimExpr_ignores

end JavaSource.Grammar
