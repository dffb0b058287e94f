import JavaSource.Proofs.Advancing.Types

/-!
# Rules for compilation units, types and members advance
-/

namespace JavaSource.Grammar

open Move.Goes

variable {source : Source} {bound : Nat} {S : Stage} {a : Ahead}

/-! ### Compilation units and modules -/

theorem startsPackage_goes (h : (S.isFed || Nat.blt 1 bound) = true) :
    Production.startsPackage.Goes source bound S fun _ => S := by
  refine decide fun a => ite (fun _ => decided) fun _ => ite (fun _ => ?_) fun _ => decided
  exact bind (attempt h) fun _ => decided

theorem startsModule_goes (h : (S.isFed || Nat.blt 1 bound) = true) :
    Production.startsModule.Goes source bound S fun _ => S := by
  refine decide fun a => ite (fun _ => ?_) fun _ => decided
  exact bind (attempt h) fun _ => decided

theorem packageDeclaration_steps : Rule.packageDeclaration.Steps source :=
  andThen (read rfl) <| andThen (expect (by decide)) <| readThen rfl rfl <|
    andThen (expect (by decide)) close

theorem importDeclaration_steps : Rule.importDeclaration.Steps source := by
  refine andThen (expect (by decide)) <| bind (eat (by decide)) fun _ => ?_
  refine readThen rfl (by cases ‹Bool› <;> rfl) <| andThen (provided fun a h => ?_) <|
    andThen (expect (by decide)) close
  obtain ⟨hdot, hstar⟩ := Bool.and_eq_true_iff.mp h
  exact takeTwo (ne_eof hdot (by decide)) (ne_eof hstar (by decide))

theorem moduleDeclaration_steps : Rule.moduleDeclaration.Steps source := by
  refine andThen (read rfl) <| andThen (provided fun a h => ?_) <| andThen expectWord <|
    readThen rfl rfl <| andThen (expect (by decide)) <| andThen (readWhile rfl rfl) <|
    andThen (expect (by decide)) close
  exact (take (word_ne_eof h)).mono fun _ => rfl

theorem nameAndTargets_goes {word : String} :
    (Production.nameAndTargets word).Goes source bound .fed fun _ => .fed :=
  readThen rfl rfl <| provided fun _ h => andThen (take (word_ne_eof h)) (read rfl)

theorem requiresModifiers_goes :
    Production.requiresModifiers.Goes source bound .fed fun _ => .fed := by
  refine loop <| ahead fun a => ite (fun h => andThen (take ?_) (pure rfl)) fun _ => pure rfl
  rcases (Bool.or_eq_true ..).mp h with h | h
  · exact ne_eof h (by decide)
  · exact word_ne_eof (Bool.and_eq_true_iff.mp h).1

theorem moduleDirective_steps : Rule.moduleDirective.Steps source := by
  refine ahead fun a => ite (fun h => ?_) fun _ => ite (fun h => ?_) fun _ => ite (fun h => ?_)
    fun _ => ite (fun h => ?_) fun _ => ite (fun h => ?_) fun _ => mismatch
  · exact andThen (take (word_ne_eof h)) <| andThen requiresModifiers_goes <|
      readThen rfl rfl <| andThen (expect (by decide)) close
  · exact andThen (take (word_ne_eof h)) <| andThen nameAndTargets_goes <|
      andThen (expect (by decide)) close
  · exact andThen (take (word_ne_eof h)) <| andThen nameAndTargets_goes <|
      andThen (expect (by decide)) close
  · exact andThen (take (word_ne_eof h)) <| readThen rfl rfl <|
      andThen (expect (by decide)) close
  · exact andThen (take (word_ne_eof h)) <| readThen rfl rfl <| andThen expectWord <|
      readThen rfl rfl <| andThen (expect (by decide)) close

theorem finish_goes : Production.finish.Goes source bound S fun _ => S :=
  decide fun _ => ite (fun _ => fail) fun _ => decided

theorem unitPackage_goes : Production.unitPackage.Goes source 14 .any fun _ => .any :=
  bind (startsPackage_goes rfl) fun _ =>
    ite (fun _ => (read rfl).mono fun _ => rfl) fun _ => pure rfl

theorem unitBody_goes : Production.unitBody.Goes source 14 .any fun _ => .any :=
  bind (startsModule_goes rfl) fun _ =>
    ite (fun _ => (read rfl).mono fun _ => rfl) fun _ => readWhile rfl rfl

theorem compilationUnit_steps : Rule.compilationUnit.Steps source :=
  andThen unitPackage_goes <| andThen (readWhile rfl rfl) <| andThen unitBody_goes <|
    andThen finish_goes close

theorem anyDeclaration_goes : Production.anyDeclaration.Goes source 14 .any fun _ => .fed := by
  refine bind (startsPackage_goes rfl) fun _ => ite (fun _ => read rfl) fun _ => ?_
  refine isAt fun _ => ite (fun _ => read rfl) fun _ => ?_
  exact bind (startsModule_goes rfl) fun _ => ite (fun _ => read rfl) fun _ => read rfl

theorem declarationStart_steps : Rule.declarationStart.Steps source :=
  andThen anyDeclaration_goes <| andThen finish_goes close

/-! ### Bodies -/

theorem classBody_steps (setting : Setting) : (Rule.classBody setting).Steps source :=
  andThen nest <| andThen (expect (by decide)) <| andThen (readWhile rfl rfl) <|
    andThen (expect (by decide)) close

theorem enumBody_steps : Rule.enumBody.Steps source := by
  refine andThen (expect (by decide)) <| andThen (commasUpTo rfl rfl) <|
    andThen (provided fun a h => ?_) <| andThen (expect (by decide)) close
  exact andThen (take (ne_eof h (by decide))) (readWhile rfl rfl)

theorem enumConstant_steps : Rule.enumConstant.Steps source :=
  andThen (read rfl) <| andThen (expect (by decide)) <| andThen (readAt rfl) <|
    andThen (readAt rfl) close

theorem classBodyDeclaration_steps (setting : Setting) :
    (Rule.classBodyDeclaration setting).Steps source := by
  refine ahead fun a => ite (fun h => ?_) fun _ => ite (fun _ => ?_) fun _ =>
    ite (fun h => ?_) fun _ => read rfl
  · exact andThen (take (ne_eof h (by decide))) close
  · exact readThen rfl rfl close
  · have hstatic := (Bool.and_eq_true_iff.mp (Bool.and_eq_true_iff.mp h).1).1
    exact andThen (take (ne_eof hstatic (by decide))) <| readThen rfl rfl close

theorem memberDeclaration_steps (setting : Setting) :
    (Rule.memberDeclaration setting).Steps source :=
  andThen (read rfl) <| readThen rfl rfl close

/-! ### Types -/

theorem permits_goes : Production.permits.Goes source bound .fed fun _ => .fed :=
  provided fun _ h => andThen (take (word_ne_eof h)) (read rfl)

theorem classDeclaration_goes : Production.classDeclaration.Goes source bound S fun _ => .fed :=
  andThen (expect (by decide)) <| andThen (expect (by decide)) <| andThen (readAt rfl) <|
    andThen (readAfter (by decide) rfl) <| andThen (readAfter (by decide) rfl) <|
    andThen permits_goes <| readThen rfl rfl close

theorem interfaceDeclaration_goes :
    Production.interfaceDeclaration.Goes source bound S fun _ => .fed :=
  andThen (expect (by decide)) <| andThen (expect (by decide)) <| andThen (readAt rfl) <|
    andThen (readAfter (by decide) rfl) <| andThen permits_goes <| readThen rfl rfl close

theorem enumDeclaration_goes : Production.enumDeclaration.Goes source bound S fun _ => .fed :=
  andThen (expect (by decide)) <| andThen (expect (by decide)) <|
    andThen (readAfter (by decide) rfl) <| readThen rfl rfl close

theorem recordDeclaration_goes : Production.recordDeclaration.Goes source bound S fun _ => .fed :=
  andThen expectWord <| andThen (expect (by decide)) <| andThen (readAt rfl) <|
    readThen rfl rfl <| andThen (readAfter (by decide) rfl) <| readThen rfl rfl close

theorem recordHeader_steps : Rule.recordHeader.Steps source :=
  andThen (expect (by decide)) <| andThen (provided fun _ _ => separated (by decide) rfl rfl) <|
    andThen (expect (by decide)) close

theorem recordComponent_steps : Rule.recordComponent.Steps source :=
  andThen (read rfl) <| readThen rfl rfl <| bind (eat (by decide)) fun _ =>
    andThen (expect (by decide)) close

theorem annotationTypeDeclaration_goes :
    Production.annotationTypeDeclaration.Goes source bound S fun _ => .fed :=
  andThen (expect (by decide)) <| andThen (expect (by decide)) <|
    andThen (expect (by decide)) <| readThen rfl rfl close

/-! ### Members -/

theorem fieldDeclaration_goes : Production.fieldDeclaration.Goes source 6 .any fun _ => .fed :=
  readThen rfl rfl <| readThen rfl rfl <| andThen (expect (by decide)) close

theorem throws_goes : Production.throws.Goes source bound .fed fun _ => .fed :=
  readAfter (by decide) rfl

theorem methodBody_goes : Production.methodBody.Goes source bound .fed fun _ => .fed :=
  isAt fun _ => ite (fun _ => read rfl) fun _ => expect (by decide)

theorem methodDeclaration_goes : Production.methodDeclaration.Goes source 6 .any fun _ => .fed :=
  readThen rfl rfl <| andThen (expect (by decide)) <| readThen rfl rfl <| andThen dims_goes <|
    andThen throws_goes <| andThen methodBody_goes close

theorem constructorDeclaration_goes :
    Production.constructorDeclaration.Goes source bound S fun _ => .fed :=
  andThen (expect (by decide)) <| readThen rfl rfl <| andThen throws_goes <|
    readThen rfl rfl close

theorem elementDeclaration_goes : Production.elementDeclaration.Goes source 6 .any fun _ => .fed :=
  readThen rfl rfl <| andThen (expect (by decide)) <| andThen (expect (by decide)) <|
    andThen (expect (by decide)) <| andThen dims_goes <|
    andThen (readAfter (by decide) rfl) <| andThen (expect (by decide)) close

theorem typedMember_goes (setting : Setting) :
    (Production.typedMember setting).Goes source 6 .any fun _ => .fed := by
  refine ahead fun a => bind (attempt rfl) fun width => ?_
  cases width with
  | none => exact anywhere fieldDeclaration_goes
  | some width =>
    refine anywhere <| ite (fun _ => fieldDeclaration_goes) fun _ => ?_
    exact ite (fun _ => elementDeclaration_goes) fun _ => methodDeclaration_goes

theorem memberBody_steps (setting : Setting) : (Rule.memberBody setting).Steps source := by
  refine ahead fun a => ite (fun _ => classDeclaration_goes) fun _ =>
    ite (fun _ => interfaceDeclaration_goes) fun _ => ite (fun _ => enumDeclaration_goes) fun _ =>
    ite (fun _ => annotationTypeDeclaration_goes) fun _ =>
    ite (fun _ => recordDeclaration_goes) fun _ => ite (fun _ => mismatch) fun _ => ?_
  split
  · refine readThen rfl rfl <| ahead fun b => ite (fun _ => constructorDeclaration_goes) fun _ => ?_
    exact andThen (read rfl) (anywhere methodDeclaration_goes)
  · rename_i hname
    refine ite (fun _ => constructorDeclaration_goes) fun _ => ite (fun _ => ?_) fun _ =>
      anywhere (typedMember_goes setting)
    exact andThen (take (hname ▸ by decide)) <| readThen rfl rfl close
  · exact anywhere methodDeclaration_goes
  · exact anywhere (typedMember_goes setting)

/-! ### Parameters and variables -/

theorem parameterAndComma_goes (ofLambda : Bool) :
    (Production.parameterAndComma ofLambda).Goes source 15 .any Stage.turn := by
  refine ahead fun a => readThen rfl rfl <| ahead fun b => ite (fun _ => refuse) fun _ =>
    ite (fun _ => pure rfl) fun _ => eatTurn (by decide)

theorem formalParameters_steps (ofLambda : Bool) : (Rule.formalParameters ofLambda).Steps source :=
  andThen (expect (by decide)) <|
    andThen (provided fun _ _ => unseen (loop (parameterAndComma_goes ofLambda))) <|
    andThen (expect (by decide)) close

theorem formalParameter_steps : Rule.formalParameter.Steps source := by
  refine andThen (read rfl) <| readThen rfl rfl <| andThen (read rfl) <| ahead fun a => ?_
  refine ite (fun h => ?_) fun _ => ite (fun _ => mismatch) fun _ => ite (fun h => ?_) fun _ =>
    ite (fun _ => ?_) fun _ => ?_
  · exact andThen (take (ne_eof h (by decide))) <| andThen (expect (by decide)) close
  · exact andThen (take (ne_eof h (by decide))) close
  · refine unseen <| andThen (loop ?_) <| andThen (expect (by decide)) close
    refine ahead fun b => ite (fun h => ?_) fun _ => pure rfl
    obtain ⟨hname, hdot⟩ := Bool.and_eq_true_iff.mp h
    exact andThen (takeTwo (ne_eof hname (by decide)) (ne_eof hdot (by decide))) (pure rfl)
  · exact readThen rfl rfl close

theorem variableDeclarators_steps : Rule.variableDeclarators.Steps source :=
  andThen (separated (by decide) rfl rfl) close

theorem variableDeclarator_steps : Rule.variableDeclarator.Steps source :=
  readThen rfl rfl <| andThen (readAfter (by decide) rfl) close

theorem variableDeclaratorId_steps : Rule.variableDeclaratorId.Steps source :=
  andThen (expect (by decide)) <| andThen dims_goes close

theorem variableInitializer_steps : Rule.variableInitializer.Steps source :=
  isAt fun _ => ite (fun _ => read rfl) fun _ => read rfl

theorem arrayInitializer_steps : Rule.arrayInitializer.Steps source :=
  andThen nest <| andThen (expect (by decide)) <| andThen (commasUpTo rfl rfl) <|
    andThen (expect (by decide)) close

end JavaSource.Grammar
