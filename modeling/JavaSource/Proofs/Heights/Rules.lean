import JavaSource.Proofs.Heights.Climbing

/-!
# No rule builds beyond its ceiling

The lemmas follow the productions.  Each body starts from a bound that leaves room for the phrases
that are closed in it, and whatever it reads fits below that.
-/

namespace JavaSource.Grammar

open Move.Climbs

variable {source : Source} {scan : Scan} {limit floor bound n : Nat}

/-- A rule that starts so many phrases above what it takes a level for. -/
theorem Rule.Climbs.from {r : Rule} (start : Nat)
    (h : ∀ floor, r.production.Climbs source limit floor (room limit floor + start)
      (r.ceiling limit floor)) : r.Climbs source limit :=
  .of_bound (room limit · + start) h

/-! ### Names, modifiers and annotations -/

theorem qualifiedName_climbs : Rule.qualifiedName.Climbs source limit := .from 0 fun _ =>
  andThen expect <| andThen (loop <| ahead fun _ => ite (andThen takeTwo pure) pure) close

theorem qualifiedNames_climbs : Rule.qualifiedNames.Climbs source limit := .from 1 fun _ =>
  andThen (separated (fits rfl)) close

theorem modifiers_climbs : Rule.modifiers.Climbs source limit := by
  refine .from 2 fun _ => ahead fun _ => ite (andThen (loop ?_) close) (pure.mono (Nat.le_succ _))
  exact ahead fun _ => ite (andThen take pure) <| ite (andThen (read (fits rfl)) pure) pure

theorem annotations_climbs : Rule.annotations.Climbs source limit := .from 2 fun _ =>
  readWhile (fits rfl)

theorem annotationUse_climbs : Rule.annotationUse.Climbs source limit := by
  refine .from 1 fun _ => andThen expect <| andThen (read (fits rfl)) <| andThen (provided ?_) close
  exact andThen take <| andThen (ahead fun _ => ite (separated (fits rfl)) <|
    ite (read (fits rfl)) pure) expect

theorem elementValuePair_climbs : Rule.elementValuePair.Climbs source limit := .from 0 fun _ =>
  andThen expect <| andThen expect <| andThen (read (fits rfl)) close

theorem bareElementValue_climbs :
    Production.bareElementValue.Climbs source limit floor (room limit floor + 18)
      (room limit floor + 19) := by
  refine ahead fun _ => ?_
  split
  · exact (read (fits rfl)).mono (Nat.le_succ _)
  · exact andThen take <| andThen (commasUpTo (fits rfl)) <| andThen expect close
  · exact (read (fits rfl)).mono (Nat.le_succ _)

theorem elementValue_climbs : Rule.elementValue.Climbs source limit := .from 18 fun _ =>
  andThen bareElementValue_climbs (closeUncounted rfl)

/-! ### Types -/

theorem dims_climbs (h : Rule.dim.Fits limit floor bound) :
    Production.dims.Climbs source limit floor bound bound := by
  refine loop <| ahead fun _ => ite (andThen (read h) pure) <|
    ite (bind attempt fun width => ?_) pure
  cases width with
  | none => exact pure
  | some width => exact ite (andThen (read h) pure) pure

theorem dim_climbs : Rule.dim.Climbs source limit := .from 2 fun _ =>
  andThen (read (fits rfl)) <| andThen expect <| andThen expect close

/-- A type for which a level has been taken. -/
theorem typeBody_climbs (withDims : Bool) :
    (Production.typeBody withDims).Climbs source limit (floor + 1) (room limit floor + n)
      (room limit floor + n + 1) := by
  refine andThen (read fitsDeeper) <| andThen (ahead fun _ => ite take ?_) <|
    andThen (provided (dims_climbs fitsDeeper)) close
  exact ite (read fitsDeeper) mismatch

theorem type_climbs : Rule.type.Climbs source limit := .from 0 fun _ =>
  nest (typeBody_climbs true)

theorem bareType_climbs : Rule.bareType.Climbs source limit := .from 0 fun _ =>
  nest (typeBody_climbs false)

theorem resultType_climbs : Rule.resultType.Climbs source limit := .from 1 fun _ =>
  ifEaten close ((read (fits rfl)).mono (Nat.le_succ _))

theorem classType_climbs : Rule.classType.Climbs source limit := by
  refine .from 5 fun _ => andThen (read (fits rfl)) <| andThen (loop <| ahead fun _ => ?_) close
  exact ite (andThen take <| andThen (read (fits rfl)) pure) pure

theorem coit_climbs : Rule.coit.Climbs source limit := .from 4 fun _ =>
  andThen (read (fits rfl)) <| andThen expect <| andThen (readAt (fits rfl)) close

theorem typeArguments_climbs : Rule.typeArguments.Climbs source limit := .from 3 fun _ =>
  andThen expect <| andThen (provided (separated (fits rfl))) <| andThen expect close

theorem typeArgument_climbs : Rule.typeArgument.Climbs source limit := by
  refine .from 2 fun _ => andThen (read (fits rfl)) <| ifEaten (andThen (provided ?_) close) ?_
  · exact andThen take (read (fits rfl))
  · exact nest (typeBody_climbs true)

theorem typeList_climbs : Rule.typeList.Climbs source limit := .from 1 fun _ =>
  andThen (separated (fits rfl)) close

theorem typeParameters_climbs : Rule.typeParameters.Climbs source limit := .from 3 fun _ =>
  andThen expect <| andThen (separated (fits rfl)) <| andThen expect close

theorem typeParameter_climbs : Rule.typeParameter.Climbs source limit := .from 2 fun _ =>
  andThen (read (fits rfl)) <| andThen expect <| andThen (readAfter (fits rfl)) close

theorem typeBound_climbs : Rule.typeBound.Climbs source limit := .from 1 fun _ =>
  andThen (separated (fits rfl)) close

theorem modifiedType_climbs : Rule.modifiedType.Climbs source limit := .from 3 fun _ =>
  andThen (read (fits rfl)) (read (fits rfl))

theorem modifiedTypeWidth_climbs :
    Production.modifiedTypeWidth.Climbs source limit floor bound bound :=
  ahead fun _ => ite attempt pure

theorem startsVariable_climbs : Production.startsVariable.Climbs source limit floor bound bound :=
  ahead fun _ => bind modifiedTypeWidth_climbs fun _ => pure

/-! ### Compilation units and modules -/

theorem startsPackage_climbs : Production.startsPackage.Climbs source limit floor bound bound :=
  ahead fun _ => ite pure <| ite (bind attempt fun _ => pure) pure

theorem startsModule_climbs : Production.startsModule.Climbs source limit floor bound bound :=
  ahead fun _ => ite (bind attempt fun _ => pure) pure

theorem packageDeclaration_climbs : Rule.packageDeclaration.Climbs source limit := .from 2 fun _ =>
  andThen (read (fits rfl)) <| andThen expect <| andThen (read (fits rfl)) <| andThen expect close

theorem importDeclaration_climbs : Rule.importDeclaration.Climbs source limit := .from 1 fun _ =>
  andThen expect <| bind eat fun _ => andThen (read (fits rfl)) <|
    andThen (provided takeTwo) <| andThen expect close

theorem moduleDeclaration_climbs : Rule.moduleDeclaration.Climbs source limit := .from 3 fun _ =>
  andThen (read (fits rfl)) <| andThen (provided take) <| andThen expectWord <|
    andThen (read (fits rfl)) <| andThen expect <| andThen (readWhile (fits rfl)) <|
      andThen expect close

theorem nameAndTargets_climbs (word : String) :
    (Production.nameAndTargets word).Climbs source limit floor (room limit floor + 2)
      (room limit floor + 2) :=
  andThen (read (fits rfl)) <| provided (andThen take (read (fits rfl)))

theorem moduleDirective_climbs : Rule.moduleDirective.Climbs source limit := by
  refine .from 2 fun _ => ahead fun _ => ite ?_ <| ite ?_ <| ite ?_ <| ite ?_ <| ite ?_ mismatch
  · exact andThen take <| andThen (loop <| ahead fun _ => ite (andThen take pure) pure) <|
      andThen (read (fits rfl)) <| andThen expect close
  · exact andThen take <| andThen (nameAndTargets_climbs _) <| andThen expect close
  · exact andThen take <| andThen (nameAndTargets_climbs _) <| andThen expect close
  · exact andThen take <| andThen (read (fits rfl)) <| andThen expect close
  · exact andThen take <| andThen (read (fits rfl)) <| andThen expectWord <|
      andThen (read (fits rfl)) <| andThen expect close

theorem finish_climbs : Production.finish.Climbs source limit floor bound bound :=
  isAt fun _ => ite fail pure

theorem compilationUnit_climbs : Rule.compilationUnit.Climbs source limit := .from 12 fun _ =>
  andThen (bind startsPackage_climbs fun _ => ite (read (fits rfl)) pure) <|
    andThen (readWhile (fits rfl)) <| andThen (bind startsModule_climbs fun _ =>
      ite (read (fits rfl)) (readWhile (fits rfl))) <| andThen finish_climbs close

theorem declarationStart_climbs : Rule.declarationStart.Climbs source limit := by
  refine .from 12 fun _ => andThen ?_ <| andThen finish_climbs close
  refine bind startsPackage_climbs fun _ => ite (read (fits rfl)) <| isAt fun _ => ?_
  exact ite (read (fits rfl)) <| bind startsModule_climbs fun _ =>
    ite (read (fits rfl)) (read (fits rfl))

/-! ### Bodies -/

theorem classBody_climbs (setting : Setting) : (Rule.classBody setting).Climbs source limit :=
  .from 0 fun _ => nest <| andThen expect <| andThen (readWhile fitsDeeper) <| andThen expect close

theorem enumBody_climbs : Rule.enumBody.Climbs source limit := .from 19 fun _ =>
  andThen expect <| andThen (commasUpTo (fits rfl)) <|
    andThen (provided (andThen take (readWhile (fits rfl)))) <| andThen expect (closeUncounted rfl)

theorem enumConstant_climbs : Rule.enumConstant.Climbs source limit := .from 2 fun _ =>
  andThen (read (fits rfl)) <| andThen expect <| andThen (readAt (fits rfl)) <|
    andThen (readAt (fits rfl)) close

theorem classBodyDeclaration_climbs (setting : Setting) :
    (Rule.classBodyDeclaration setting).Climbs source limit := by
  refine .from 11 fun _ => ahead fun _ => ite ?_ <| ite ?_ <| ite ?_ ?_
  · exact andThen take close
  · exact andThen (read (fits rfl)) close
  · exact andThen take <| andThen (read (fits rfl)) close
  · exact (read (fits (by cases setting <;> rfl))).mono (Nat.le_succ _)

theorem memberDeclaration_climbs (setting : Setting) :
    (Rule.memberDeclaration setting).Climbs source limit := by
  cases setting with
  | outermost => exact .from 5 fun _ => andThen (read (fits rfl)) <| andThen (read (fits rfl)) close
  | _ => exact .from 10 fun _ => andThen (read (fits rfl)) <| andThen (read (fits rfl)) close

/-! ### Types and members -/

theorem permits_climbs : Production.permits.Climbs source limit floor (room limit floor + (n + 2))
    (room limit floor + (n + 2)) :=
  provided (andThen take (read (fits rfl)))

theorem recordHeader_climbs : Rule.recordHeader.Climbs source limit := .from 3 fun _ =>
  andThen expect <| andThen (provided (separated (fits rfl))) <| andThen expect close

theorem recordComponent_climbs : Rule.recordComponent.Climbs source limit := .from 2 fun _ =>
  andThen (read (fits rfl)) <| andThen (read (fits rfl)) <| bind eat fun _ => andThen expect close

/-- The types that may be declared outside every body. -/
theorem typeDeclaration_climbs {a : Ahead} {m : Move Unit}
    (h : m.Climbs source limit floor (room limit floor + (n + 4)) (room limit floor + (n + 5))) :
    (if a.isAt .classKw then Production.classDeclaration
      else if a.isAt .interfaceKw then Production.interfaceDeclaration
      else if a.isAt .enumKw then Production.enumDeclaration
      else if a.isAt .atSign && a.kindAt 1 == .interfaceKw then
        Production.annotationTypeDeclaration
      else if a.startsRecord then Production.recordDeclaration
      else m).Climbs source limit floor (room limit floor + (n + 4))
        (room limit floor + (n + 5)) := by
  refine ite ?_ <| ite ?_ <| ite ?_ <| ite ?_ <| ite ?_ h
  · exact andThen expect <| andThen expect <| andThen (readAt (fits rfl)) <|
      andThen (readAfter (fits rfl)) <| andThen (readAfter (fits rfl)) <|
        andThen permits_climbs <| andThen (read (fits rfl)) close
  · exact andThen expect <| andThen expect <| andThen (readAt (fits rfl)) <|
      andThen (readAfter (fits rfl)) <| andThen permits_climbs <| andThen (read (fits rfl)) close
  · exact andThen expect <| andThen expect <| andThen (readAfter (fits rfl)) <|
      andThen (read (fits rfl)) close
  · exact andThen expect <| andThen expect <| andThen expect <| andThen (read (fits rfl)) close
  · exact andThen expectWord <| andThen expect <| andThen (readAt (fits rfl)) <|
      andThen (read (fits rfl)) <| andThen (readAfter (fits rfl)) <| andThen (read (fits rfl)) close

theorem methodDeclaration_climbs : Production.methodDeclaration.Climbs source limit floor
    (room limit floor + 9) (room limit floor + 10) :=
  andThen (read (fits rfl)) <| andThen expect <| andThen (read (fits rfl)) <|
    andThen (dims_climbs (fits rfl)) <| andThen (readAfter (fits rfl)) <|
      andThen (isAt fun _ => ite (read (fits rfl)) expect) close

theorem constructorDeclaration_climbs : Production.constructorDeclaration.Climbs source limit floor
    (room limit floor + 9) (room limit floor + 10) :=
  andThen expect <| andThen (read (fits rfl)) <| andThen (readAfter (fits rfl)) <|
    andThen (read (fits rfl)) close

theorem fieldDeclaration_climbs : Production.fieldDeclaration.Climbs source limit floor
    (room limit floor + 9) (room limit floor + 10) :=
  andThen (read (fits rfl)) <| andThen (read (fits rfl)) <| andThen expect close

theorem elementDeclaration_climbs : Production.elementDeclaration.Climbs source limit floor
    (room limit floor + 9) (room limit floor + 10) :=
  andThen (read (fits rfl)) <| andThen expect <| andThen expect <| andThen expect <|
    andThen (dims_climbs (fits rfl)) <| andThen (readAfter (fits rfl)) <| andThen expect close

theorem typedMember_climbs (setting : Setting) :
    (Production.typedMember setting).Climbs source limit floor (room limit floor + 9)
      (room limit floor + 10) := by
  refine ahead fun _ => bind attempt fun width => ?_
  cases width with
  | none => exact fieldDeclaration_climbs
  | some width =>
    exact ite fieldDeclaration_climbs <| ite elementDeclaration_climbs methodDeclaration_climbs

/-- Members that may stand in a body only. -/
theorem innerMember_climbs (setting : Setting) (a : Ahead) :
    (match a.kind with
      | .lt => do
        Move.read .typeParameters
        let b ← Move.ahead
        if b.isAt .identifier && b.kindAt 1 == .lparen then Production.constructorDeclaration
        else
          Move.read .annotations
          Production.methodDeclaration
      | .identifier =>
        if a.kindAt 1 == .lparen then Production.constructorDeclaration
        else if a.kindAt 1 == .lbrace then do
          Move.take
          Move.read .block
          Move.close .compactConstructorDeclaration
        else Production.typedMember setting
      | .voidKw => Production.methodDeclaration
      | _ => Production.typedMember setting : Move Unit).Climbs source limit floor
        (room limit floor + 9) (room limit floor + 10) := by
  split
  · refine andThen (read (fits rfl)) <| ahead fun _ => ite constructorDeclaration_climbs ?_
    exact andThen (read (fits rfl)) methodDeclaration_climbs
  · refine ite constructorDeclaration_climbs <| ite ?_ (typedMember_climbs setting)
    exact andThen take <| andThen (read (fits rfl)) close
  · exact methodDeclaration_climbs
  · exact typedMember_climbs setting

theorem memberBody_climbs (setting : Setting) : (Rule.memberBody setting).Climbs source limit := by
  cases setting with
  | outermost => exact .from 4 fun _ => ahead fun _ => typeDeclaration_climbs (n := 0) mismatch
  | member | element | alone =>
    exact .from 9 fun _ => ahead fun a => typeDeclaration_climbs (innerMember_climbs _ a)

/-! ### Parameters and variables -/

theorem parameterAndComma_climbs (ofLambda : Bool) :
    (Production.parameterAndComma ofLambda).Climbs source limit floor (room limit floor + 5)
      (room limit floor + 5) :=
  ahead fun _ => andThen (read (fits rfl)) <| ahead fun _ => ite refuse <| ite pure eat

theorem formalParameters_climbs (ofLambda : Bool) :
    (Rule.formalParameters ofLambda).Climbs source limit := .from 5 fun _ =>
  andThen expect <| andThen (provided (loop (parameterAndComma_climbs ofLambda))) <|
    andThen expect close

theorem formalParameter_climbs : Rule.formalParameter.Climbs source limit := by
  refine .from 4 fun _ => andThen (read (fits rfl)) <| andThen (read (fits rfl)) <|
    andThen (read (fits rfl)) <| ahead fun _ => ite ?_ <| ite mismatch <| ite ?_ <| ite ?_ ?_
  · exact andThen take <| andThen expect close
  · exact andThen take close
  · exact andThen (loop <| ahead fun _ => ite (andThen takeTwo pure) pure) <| andThen expect close
  · exact andThen (read (fits rfl)) close

theorem variableDeclarators_climbs : Rule.variableDeclarators.Climbs source limit :=
  .from 5 fun _ => andThen (separated (fits rfl)) close

theorem variableDeclarator_climbs : Rule.variableDeclarator.Climbs source limit := .from 4 fun _ =>
  andThen (read (fits rfl)) <| andThen (readAfter (fits rfl)) close

theorem variableDeclaratorId_climbs : Rule.variableDeclaratorId.Climbs source limit :=
  .from 3 fun _ => andThen expect <| andThen (dims_climbs (fits rfl)) close

theorem variableInitializer_climbs : Rule.variableInitializer.Climbs source limit :=
  .from 1 fun _ => isAt fun _ => ite (read (fits rfl)) (read (fits rfl))

theorem arrayInitializer_climbs : Rule.arrayInitializer.Climbs source limit := .from 0 fun _ =>
  nest <| andThen expect <| andThen (commasUpTo fitsDeeper) <| andThen expect close

/-! ### Statements -/

theorem block_climbs : Rule.block.Climbs source limit := .from 8 fun _ =>
  andThen expect <| andThen (readWhile (fits rfl)) <| andThen expect close

theorem startsLocalType_climbs :
    Production.startsLocalType.Climbs source limit floor bound bound :=
  ahead fun _ => ite pure <| ite (bind attempt fun _ => pure) pure

theorem blockStatement_climbs : Rule.blockStatement.Climbs source limit := by
  refine .from 7 fun _ => ahead fun _ => ite ((read (fits rfl)).mono (Nat.le_succ _)) <|
    bind startsLocalType_climbs fun _ => ite (andThen (read (fits rfl)) close) <|
      bind startsVariable_climbs fun _ => ite ?_ ((read (fits rfl)).mono (Nat.le_succ _))
  exact andThen (read (fits rfl)) <| andThen expect close

theorem localVariableDeclaration_climbs : Rule.localVariableDeclaration.Climbs source limit :=
  .from 6 fun _ => andThen (read (fits rfl)) <| andThen (read (fits rfl)) <|
    andThen (read (fits rfl)) close

theorem condition_climbs (h : Rule.expression.Fits limit floor bound) :
    Production.condition.Climbs source limit floor bound bound :=
  andThen expect <| andThen (read h) expect

theorem expressionStatement_climbs : Rule.expressionStatement.Climbs source limit :=
  .from 1 fun _ => andThen (read (fits rfl)) <| andThen expect close

theorem forInit_climbs : Rule.forInit.Climbs source limit := by
  refine .from 7 fun _ => andThen (bind startsVariable_climbs fun _ => ?_) close
  exact ite (read (fits rfl)) (separated (fits rfl))

theorem forUpdate_climbs : Rule.forUpdate.Climbs source limit := .from 1 fun _ =>
  andThen (separated (fits rfl)) close

theorem finallyClause_climbs : Rule.finallyClause.Climbs source limit := .from 9 fun _ =>
  andThen expect <| andThen (read (fits rfl)) close

theorem resourceSpecification_climbs : Rule.resourceSpecification.Climbs source limit := by
  refine .from 6 fun _ => andThen expect <| andThen (loop ?_) <| andThen expect close
  exact andThen (read (fits rfl)) <| ifEaten (isAt fun _ => pure) pure

theorem resource_climbs : Rule.resource.Climbs source limit := by
  refine .from 5 fun _ => andThen (bind startsVariable_climbs fun _ => ?_) close
  exact ite (andThen (read (fits rfl)) <| andThen (read (fits rfl)) (read (fits rfl)))
    (read (fits rfl))

theorem resourceVariable_climbs : Rule.resourceVariable.Climbs source limit := .from 4 fun _ =>
  andThen (read (fits rfl)) <| andThen expect <| andThen (read (fits rfl)) close

theorem catchClause_climbs : Rule.catchClause.Climbs source limit := .from 9 fun _ =>
  andThen expect <| andThen expect <| andThen (read (fits rfl)) <| andThen (read (fits rfl)) <|
    andThen expect <| andThen expect <| andThen (read (fits rfl)) close

theorem catchType_climbs : Rule.catchType.Climbs source limit := .from 1 fun _ =>
  andThen (separated (fits rfl)) close

theorem switchBlock_climbs : Rule.switchBlock.Climbs source limit := .from 14 fun _ =>
  andThen expect <| andThen (readWhile (fits rfl)) <| andThen expect close

theorem ruleBody_climbs : Production.ruleBody.Climbs source limit floor (room limit floor + 13)
    (room limit floor + 13) := by
  refine ahead fun _ => ?_
  split <;> exact read (fits rfl)

theorem switchEntry_climbs : Rule.switchEntry.Climbs source limit := by
  refine .from 13 fun _ => andThen (provided mismatch) <| andThen (read (fits rfl)) <|
    ifEaten (andThen ruleBody_climbs close) <| andThen expect <| andThen (loop ?_) <|
      andThen (readWhile (fits rfl)) close
  exact ahead fun _ => ite (andThen (read (fits rfl)) <| andThen expect pure) pure

theorem switchLabel_climbs : Rule.switchLabel.Climbs source limit := by
  refine .from 12 fun _ => andThen (bind eat fun _ => ite ?_ pure) close
  exact andThen expect (separated (fits rfl))

theorem caseItem_climbs : Rule.caseItem.Climbs source limit := by
  refine .from 11 fun _ => bind attempt fun _ => ite ?_ ((read (fits rfl)).mono (Nat.le_succ _))
  refine andThen (read (fits rfl)) <| ahead fun _ => ite ?_ (pure.mono (Nat.le_succ _))
  exact andThen take <| andThen (read (fits rfl)) close

theorem pattern_climbs : Rule.pattern.Climbs source limit := .from 3 fun _ =>
  andThen (read (fits rfl)) <| andThen (read (fits rfl)) <| andThen expect close

/-! ### Statements for which a level has been taken -/

theorem wordAndExpression_climbs (kind : Phrase) :
    (Production.wordAndExpression kind).Climbs source limit (floor + 1) (room limit floor + n)
      (room limit floor + n + 1) :=
  andThen take <| andThen (read fitsDeeper) <| andThen expect close

theorem jump_climbs (kind : Phrase) :
    (Production.jump kind).Climbs source limit floor bound (bound + 1) :=
  andThen take <| bind eat fun _ => andThen expect close

theorem forStatement_climbs : Production.forStatement.Climbs source limit (floor + 1)
    (room limit floor + n) (room limit floor + n + 1) := by
  refine andThen expect <| andThen expect <| bind (ahead fun _ =>
    bind modifiedTypeWidth_climbs fun _ => pure) fun _ => ite ?_ ?_
  · exact andThen (read fitsDeeper) <| andThen (read fitsDeeper) <| andThen (read fitsDeeper) <|
      andThen expect <| andThen (read fitsDeeper) <| andThen expect <|
        andThen (read fitsDeeper) close
  · exact andThen (provided (read fitsDeeper)) <| andThen expect <|
      andThen (provided (read fitsDeeper)) <| andThen expect <|
        andThen (provided (read fitsDeeper)) <| andThen expect <| andThen (read fitsDeeper) close

theorem handlers_climbs (managed : Bool) : (do
    Move.read .block
    Move.readWhile (·.isAt .catchKw) .catchClause
    Move.readAt .finallyKw .finallyClause
    if managed then Move.close .tryWithResourcesStatement
    else if (← Move.ahead).last == some .block then Move.mismatch "\x7b'catch', 'finally'\x7d"
    else Move.close .tryStatement : Move Unit).Climbs source limit (floor + 1) (room limit floor + n)
      (room limit floor + n + 1) :=
  andThen (read fitsDeeper) <| andThen (readWhile fitsDeeper) <| andThen (readAt fitsDeeper) <|
    ite close <| ahead fun _ => ite mismatch close

theorem tryStatement_climbs : Production.tryStatement.Climbs source limit (floor + 1)
    (room limit floor + n) (room limit floor + n + 1) :=
  andThen expect <| isAt fun managed => ite (andThen (read fitsDeeper) (handlers_climbs managed))
    (handlers_climbs managed)

theorem statement_climbs : Rule.statement.Climbs source limit := by
  refine .from 0 fun _ => nest <| ahead fun _ => ?_
  split
  · exact (read fitsDeeper).mono (Nat.le_succ _)
  · exact andThen take close
  · exact andThen take <| andThen (condition_climbs fitsDeeper) <| andThen (read fitsDeeper) <|
      andThen (readAfter fitsDeeper) close
  · exact andThen take <| andThen (read fitsDeeper) <| andThen (readAfter fitsDeeper) <|
      andThen expect close
  · exact andThen take <| andThen (condition_climbs fitsDeeper) <| andThen (read fitsDeeper) close
  · exact andThen take <| andThen (condition_climbs fitsDeeper) <| andThen (read fitsDeeper) close
  · exact andThen take <| andThen (read fitsDeeper) <| andThen expect <|
      andThen (condition_climbs fitsDeeper) <| andThen expect close
  · exact forStatement_climbs
  · exact jump_climbs _
  · exact jump_climbs _
  · exact andThen take <| andThen (provided (read fitsDeeper)) <| andThen expect close
  · exact wordAndExpression_climbs _
  · exact andThen take <| andThen (condition_climbs fitsDeeper) <| andThen (read fitsDeeper) close
  · exact tryStatement_climbs
  · refine ite (wordAndExpression_climbs _) <| ite ?_ ?_
    · exact andThen takeTwo <| andThen (read fitsDeeper) close
    · exact andThen (read fitsDeeper) <| andThen expect close

theorem statementStart_climbs : Rule.statementStart.Climbs source limit := .from 8 fun _ =>
  andThen (read (fits rfl)) <| andThen finish_climbs close

/-! ### Expressions -/

theorem expressionStart_climbs : Rule.expressionStart.Climbs source limit := .from 1 fun _ =>
  andThen (read (fits rfl)) <| andThen finish_climbs close

theorem expression_climbs : Rule.expression.Climbs source limit := by
  refine .from 0 fun _ => nest <| ahead fun _ => ite ((read fitsDeeper).mono (Nat.le_succ _)) <|
    andThen (read fitsDeeper) <| ahead fun _ => ite ?_ (pure.mono (Nat.le_succ _))
  exact andThen take <| andThen (read fitsDeeper) close

theorem lambda_climbs : Rule.lambda.Climbs source limit := .from 9 fun _ =>
  andThen (read (fits rfl)) <| andThen expect <|
    andThen (isAt fun _ => ite (read (fits rfl)) (read (fits rfl))) close

theorem lambdaParameters_climbs : Rule.lambdaParameters.Climbs source limit := by
  refine .from 6 fun _ => andThen (ahead fun _ => ite take <| ite ?_ (read (fits rfl))) close
  refine andThen expect <| andThen (loop ?_) expect
  exact isAt fun _ => ite pure <| andThen expect eat

theorem ternary_climbs : Rule.ternary.Climbs source limit := by
  refine .from 10 fun _ => andThen (read (fits rfl)) <| ifEaten ?_ (pure.mono (Nat.le_succ _))
  refine andThen (read (fits rfl)) <| andThen expect <| andThen (ahead fun _ => ite ?_ ?_) close
  · exact read (fits rfl)
  · exact nest (read fitsDeeper)

theorem castHead_climbs : Rule.castHead.Climbs source limit := .from 1 fun _ =>
  andThen expect <| andThen (separated (fits rfl)) expect

theorem startsCast_climbs : Production.startsCast.Climbs source limit floor bound bound :=
  ahead fun _ => bind attempt fun width => by
    cases width with
    | none => exact pure
    | some width => exact ite pure pure

/-- An operand behind its level. -/
theorem unaryBody_climbs : (do
    match (← Move.ahead).kind with
    | .inc | .dec | .add | .sub | .tilde | .bang =>
      Move.take
      Move.read .unary
      Move.close .prefixed
    | .lparen =>
      if ← Production.startsCast then
        Move.read .castHead
        Production.castOperand
        Move.close .cast
      else Move.read .postfixed
    | _ => Move.read .postfixed).Climbs source limit floor (room limit floor + (limit + 16))
      (room limit floor + (limit + 16) + 1) := by
  have hfits {r : Rule} : r.Fits limit floor (room limit floor + (limit + 16)) :=
    fun _ => r.ceiling_le limit floor
  refine ahead fun a => ?_
  split
  case h_7 =>
    refine bind startsCast_climbs fun _ => ite ?_ ((read hfits).mono (Nat.le_succ _))
    exact andThen (read hfits) <| andThen (ahead fun _ => ite (read hfits) (read hfits)) close
  case h_8 => exact (read hfits).mono (Nat.le_succ _)
  all_goals exact andThen take <| andThen (read hfits) close

/-- An operand takes a level, and leaves room for a chain of operators. -/
theorem unary_climbs : Rule.unary.Climbs source limit := fun s hparts hdepth hlt => by
  have hlow : State.Low limit (s.depth + 1) (room limit (s.depth + 1) + (limit + 16))
      { s with depth := s.depth + 1 } :=
    ⟨Nat.le_refl _, hlt, fun t ht => absurd (hparts ▸ ht) List.not_mem_nil⟩
  have hroom := room_succ hdepth
  refine (unaryBody_climbs _ hlow).mono fun _ s' hs' t ht => (hs'.2.2 t ht).mono ?_
  simp only [Rule.ceiling]
  omega

theorem operatorToken_low {op : TokenKind} {width : Nat} {s : State}
    (hop : (scan.source.ahead s).operator = (op, width)) (hs : s.Low limit floor bound) :
    (Production.operatorToken op width).Ensures scan.source limit (heights limit)
      (fun _ s' => s'.Low limit floor bound) s := by
  unfold Production.operatorToken
  split
  · exact take s hs
  · rename_i hwidth
    have hwidth : width ≠ 1 := fun h => hwidth (beq_iff_eq.mpr h)
    intro t ht
    have hread := (Scan.split_joined hop hwidth ht).2.2.1
    exact ⟨Nat.lt_of_lt_of_eq hread scan.size_tokens.symm, hs.1, hs.2.1,
      List.forall_mem_cons.mpr ⟨.leaf, hs.2.2⟩⟩

theorem operation_linked {layer : Layer} {op : TokenKind} {width : Nat} {s : State}
    (hbound : room limit floor ≤ bound + limit)
    (hop : (scan.source.ahead s).operator = (op, width)) (hs : s.Linked limit floor bound) :
    (Production.operation layer op width).Ensures scan.source limit (heights limit)
      (fun _ s' => s'.Linked limit floor bound) s := by
  refine Move.Links.nestFrom hs fun bound' hle hlow => .bind ?_
  have hfits {r : Rule} : r.Fits limit (s.depth + 1) bound' := fitsLink hbound hs.1 hle
  refine (operatorToken_low (s := { s with depth := s.depth + 1 }) hop hlow).mono
    fun _ s' hs' => ite ?_ ?_ s' hs'
  · exact andThen (bind attempt fun _ => ite (read hfits) (read hfits)) close
  · refine andThen ?_ close
    unfold Production.rightOperand
    split <;> exact read hfits

theorem le_room (h : floor ≤ limit) : limit ≤ room limit floor := by
  have hroom := room_succ h
  omega

theorem binary_climbs (loosest : Layer) : (Rule.binary loosest).Climbs scan.source limit := by
  refine .of_bound (room limit · - limit) fun floor => andThen (read fun _ => Nat.le_refl _) ?_
  intro s hs
  have hbound : room limit floor - limit + limit = room limit floor :=
    Nat.sub_add_cancel (le_room (Nat.le_trans hs.1 hs.2.1))
  refine (Move.Links.climbs (.loop fun s₁ hs₁ => .ahead ?_)).mono (Nat.le_of_eq hbound) s hs
  split
  rename_i op width hop
  split
  · exact hs₁
  · split
    · exact hs₁
    · exact .bind ((operation_linked (Nat.le_of_eq hbound.symm) hop hs₁).mono fun _ _ h => h)

theorem methodReference_climbs (h : Rule.typeArguments.Fits limit floor bound) :
    Production.methodReference.Climbs source limit floor bound (bound + 1) :=
  andThen expect <| andThen (readAt h) <| andThen (ahead fun _ => ite take mismatch) close

theorem dimExpr_climbs : Rule.dimExpr.Climbs source limit := .from 1 fun _ =>
  andThen expect <| andThen (read (fits rfl)) <| andThen expect close

theorem constructed_climbs : Production.constructed.Climbs source limit floor
    (room limit floor + (n + 2)) (room limit floor + (n + 2)) :=
  andThen (read (fits rfl)) (readAt (fits rfl))

theorem creator_climbs : Production.creator.Climbs source limit floor (room limit floor + (n + 4))
    (room limit floor + (n + 5)) := by
  refine andThen expect <| andThen (readAt (fits rfl)) <| andThen (read (fits rfl)) <|
    ahead fun _ => ite ?_ (andThen constructed_climbs close)
  refine andThen (readWhile (fits rfl)) <| ahead fun _ => andThen (dims_climbs (fits rfl)) <|
    ite close <| andThen (provided mismatch) <| andThen (read (fits rfl)) close

theorem innerCreator_climbs : Production.innerCreator.Climbs source limit floor
    (room limit floor + (n + 4)) (room limit floor + (n + 5)) :=
  andThen expect <| andThen (readAt (fits rfl)) <| andThen (read (fits rfl)) <| andThen expect <|
    andThen (readAt (fits rfl)) <| andThen constructed_climbs close

theorem single_climbs {kind : Phrase} :
    (Production.single kind).Climbs source limit floor bound (bound + 1) :=
  andThen take close

theorem typeSelector_climbs (h : Rule.typeArguments.Fits limit floor bound) :
    Production.typeSelector.Climbs source limit floor bound (bound + 1) :=
  isAt fun _ => ite (methodReference_climbs h) <| andThen expect <| andThen expect close

theorem selected_climbs : Rule.selected.Climbs source limit := by
  refine .from 6 fun _ => ahead fun _ => ?_
  split
  · exact ite ((read (fits rfl)).mono (Nat.le_succ _)) single_climbs
  · exact (read (fits rfl)).mono (Nat.le_succ _)
  · exact single_climbs
  · exact (read (fits rfl)).mono (Nat.le_succ _)
  · exact innerCreator_climbs
  · exact mismatch

theorem startsTypeSelector_climbs :
    Production.startsTypeSelector.Climbs source limit floor bound bound := by
  refine ahead fun a => ?_
  split
  case h_6 => exact pure
  all_goals
    refine bind attempt fun width => ?_
    cases width with
    | none => exact pure
    | some width => exact pure

theorem primary_climbs : Rule.primary.Climbs source limit := by
  refine .from 15 fun _ => ahead fun _ => ?_
  split
  · exact andThen take <| andThen (read (fits rfl)) <| andThen expect close
  · exact ite ((read (fits rfl)).mono (Nat.le_succ _)) single_climbs
  · exact (read (fits rfl)).mono (Nat.le_succ _)
  · exact creator_climbs
  · exact andThen take <| andThen (condition_climbs (fits rfl)) <| andThen (read (fits rfl)) close
  · exact (read (fits rfl)).mono (Nat.le_succ _)
  · refine ite ((read (fits rfl)).mono (Nat.le_succ _)) <| bind startsTypeSelector_climbs fun _ =>
      ite (andThen (read (fits rfl)) (typeSelector_climbs (fits rfl))) single_climbs
  · refine ite single_climbs <| ite ?_ fail
    exact andThen (read (fits rfl)) (typeSelector_climbs (fits rfl))

/-- All selectors and signs behind a primary make one chain. -/
theorem postfixed_climbs : Rule.postfixed.Climbs source limit := by
  refine .from 16 fun floor => andThen (read (fits rfl)) ?_
  have hbound : room limit floor ≤ room limit floor + 16 + limit := by omega
  refine (Move.Links.climbs <|
    .andThen (.loop (.ahead fun _ => ?_)) (.loop (.ahead fun _ => ?_))).mono ?_
  · split
    · exact .nest fun _ _ hdepth hle => andThen take <|
        andThen (read (fitsLink hbound hdepth hle)) <| andThen close pure
    · exact .nest fun _ _ hdepth hle => andThen take <|
        andThen (read (fitsLink hbound hdepth hle)) <| andThen expect <| andThen close pure
    · exact .nest fun _ _ hdepth hle =>
        andThen (methodReference_climbs (fitsLink hbound hdepth hle)) pure
    · exact .pure
  · exact .ite (.nest fun _ _ _ _ => andThen take <| andThen close pure) .pure
  · simp only [Rule.ceiling]
    omega

theorem methodCall_climbs : Rule.methodCall.Climbs source limit := .from 2 fun _ =>
  andThen (ahead fun _ => ite take mismatch) <| andThen (read (fits rfl)) close

theorem arguments_climbs : Rule.arguments.Climbs source limit := .from 1 fun _ =>
  andThen expect <| andThen (provided (separated (fits rfl))) <| andThen expect close

theorem superAccess_climbs : Rule.superAccess.Climbs source limit := by
  refine .from 4 fun _ => ahead fun _ => ?_
  split
  · exact (read (fits rfl)).mono (Nat.le_succ _)
  · exact andThen takeTwo <| andThen (readAt (fits rfl)) <| andThen expect <|
      andThen (readAt (fits rfl)) close
  · exact andThen expect close

theorem genericInvocation_climbs : Rule.genericInvocation.Climbs source limit := by
  refine .from 5 fun _ => andThen (read (fits rfl)) <| andThen (ahead fun _ => ?_) close
  split
  · exact read (fits rfl)
  · exact read (fits rfl)
  · exact read (fits rfl)
  · exact mismatch

end JavaSource.Grammar
