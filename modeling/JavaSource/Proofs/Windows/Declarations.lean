import JavaSource.Proofs.Windows.Types

/-!
# Declarations in a window
-/

namespace JavaSource.Grammar.Window

open Carries

variable {W : Window} {e : Entry} {n i : Nat} {setting : Setting}

/-! ### Compilation units and modules -/

theorem isAtModule_asks : W.Asks n Production.isAtModule := by
  refine .or (.isAtWordAnd fun hW i last hi => ?_) (.isAtWordAnd .kindAt)
  exact isWord_eq hW hi _

theorem startsPackage_carries :
    W.Carries e n i Production.startsPackage Production.startsPackage := by
  refine ahead fun hW _ last => ask .isAt (fun _ => pure) fun _ =>
    ask Asks.startsAnnotation (fun _ => attempt fun found hfound => ?_) fun _ => pure
  cases found with
  | none => exact pure
  | some width =>
    have heq : ((W.view i last).kindAt width == .packageKw) =
        ((W.swap.view i last).kindAt width == .packageKw) := beq_eq hW (hfound width rfl)
    simp only [Option.any_some, heq]
    exact pure

theorem startsModule_carries :
    W.Carries e n i Production.startsModule Production.startsModule := by
  refine ahead fun hW hi last => ask .isAt (fun _ => attempt fun found hfound => ?_) fun _ => ?_
  · cases found with
    | none => exact pure
    | some width =>
      simp only [Option.any_some, isAtModule_asks.skip last hW (hfound width rfl)]
      exact pure
  · rw [isAtModule_asks hW i last hi]
    exact pure

theorem packageDeclaration_carries :
    W.Carries e n i Production.packageDeclaration Production.packageDeclaration :=
  andThen read <| andThen expect <| andThen read <| andThen expect close

theorem importDeclaration_carries :
    W.Carries e n i Production.importDeclaration Production.importDeclaration :=
  andThen expect <| bind (c := 0) eat (fun _ => .none) fun _ _ _ => andThen read <|
    andThen (provided (.isAtAnd .kindAt) takeTwo) <| andThen expect close

theorem moduleDeclaration_carries :
    W.Carries e n i Production.moduleDeclaration Production.moduleDeclaration :=
  andThen read <| andThen (provided .isAtWord take) <| andThen expectWord <| andThen read <|
    andThen expect <|
    thenReads (readWhile (.not .isAt)) (.first .expect) <|
    andThen expect close

theorem nameAndTargets_carries {word : String} :
    W.Carries e 1 i (Production.nameAndTargets word) (Production.nameAndTargets word) :=
  andThen read <| provided .isAtWord (andThen take read)

theorem requiresModifiers_carries :
    W.Carries e n i Production.requiresModifiers Production.requiresModifiers :=
  loop <| aheadAsk (.or .isAt (.isAtWordAnd (.or .kindAt .kindAt))) (andThen take pure) pure

theorem moduleDirective_carries :
    W.Carries e 1 i Production.moduleDirective Production.moduleDirective := by
  refine ahead fun _ _ _ => ask .isAtWord (fun _ => ?_) fun _ => ask .isAtWord (fun _ => ?_)
    fun _ => ask .isAtWord (fun _ => ?_) fun _ => ask .isAtWord (fun _ => ?_) fun _ =>
    ask .isAtWord (fun _ => ?_) fun _ => mismatch
  · exact andThen take <| andThen requiresModifiers_carries <| andThen read <| andThen expect close
  · exact andThen take <| andThen nameAndTargets_carries <| andThen expect close
  · exact andThen take <| andThen nameAndTargets_carries <| andThen expect close
  · exact andThen take <| andThen read <| andThen expect close
  · exact andThen take <| andThen read <| andThen expectWord <| andThen read <|
      andThen expect close

theorem finish_carries : W.Carries e 1 i Production.finish Production.finish :=
  isAt fun _ => ite rfl (fun _ => fail) fun _ => pure

theorem unitPackage_carries : W.Carries e 1 i Production.unitPackage Production.unitPackage :=
  bind (c := 0) startsPackage_carries (fun _ => .none) fun _ _ _ =>
    ite rfl (fun _ => read) fun _ => pure

theorem unitBody_carries : W.Carries e 1 i Production.unitBody Production.unitBody :=
  bind (c := 0) startsModule_carries (fun _ => .none) fun _ _ _ =>
    ite rfl (fun _ => read) fun _ => readWhile (.not .isAt)

theorem compilationUnit_carries :
    W.Carries e 1 i Production.compilationUnit Production.compilationUnit :=
  andThen unitPackage_carries <| andThen (readWhile .isAt) <| andThen unitBody_carries <|
    andThen finish_carries close

theorem anyDeclaration_carries :
    W.Carries e 1 i Production.anyDeclaration Production.anyDeclaration :=
  bind (c := 0) startsPackage_carries (fun _ => .none) fun _ _ _ => ite rfl (fun _ => read)
    fun _ => isAt fun _ => ite rfl (fun _ => read) fun _ =>
    bind (c := 0) startsModule_carries (fun _ => .none) fun _ _ _ =>
    ite rfl (fun _ => read) fun _ => read

theorem declarationStart_carries :
    W.Carries e 1 i Production.declarationStart Production.declarationStart :=
  andThen anyDeclaration_carries <| andThen finish_carries close

/-! ### Bodies -/

theorem isInBody_asks : W.Asks (n + 1) Production.isInBody := .and (.not .isAt) (.not .isAt)

theorem classBody_carries :
    W.Carries e n i (Production.classBody setting) (Production.classBody setting) :=
  andThen nest <| andThen expect <|
    thenReads (readWhile isInBody_asks) (.first .expect) <|
    andThen expect close

theorem enumBody_carries : W.Carries e 1 i Production.enumBody Production.enumBody :=
  andThen expect <| andThen (commasUpTo (.or .isAt .isAt)) <|
    andThen (provided .isAt (andThen take (readWhile isInBody_asks))) <|
    andThen expect close

theorem enumConstant_carries :
    W.Carries e n i Production.enumConstant Production.enumConstant :=
  andThen read <| andThen expect <| andThen readAt <| andThen readAt close

theorem classBodyDeclaration_carries :
    W.Carries e 1 i (Production.classBodyDeclaration setting)
      (Production.classBodyDeclaration setting) := by
  refine ahead fun _ _ _ => ask .isAt (fun _ => andThen take close) fun _ =>
    ask (.and .isAt .const) (fun _ => andThen read close) fun _ =>
    ask (.and (.isAtAnd .kindAt) .const) (fun _ => ?_) fun _ => read
  exact andThen take <| andThen read close

theorem memberDeclaration_carries :
    W.Carries e 1 i (Production.memberDeclaration setting)
      (Production.memberDeclaration setting) :=
  andThen read <| andThen read close

/-! ### Types -/

theorem permits_carries : W.Carries e 1 i Production.permits Production.permits :=
  provided .isAtWord (andThen take read)

theorem classDeclaration_carries :
    W.Carries e 1 i Production.classDeclaration Production.classDeclaration :=
  andThen expect <| andThen expect <| andThen readAt <| andThen readAfter <| andThen readAfter <|
    andThen permits_carries <| andThen read close

theorem interfaceDeclaration_carries :
    W.Carries e 1 i Production.interfaceDeclaration Production.interfaceDeclaration :=
  andThen expect <| andThen expect <| andThen readAt <| andThen readAfter <|
    andThen permits_carries <| andThen read close

theorem enumDeclaration_carries :
    W.Carries e 1 i Production.enumDeclaration Production.enumDeclaration :=
  andThen expect <| andThen expect <| andThen readAfter <| andThen read close

theorem recordDeclaration_carries :
    W.Carries e 1 i Production.recordDeclaration Production.recordDeclaration :=
  andThen expectWord <| andThen expect <| andThen readAt <| andThen read <| andThen readAfter <|
    andThen read close

theorem recordHeader_carries :
    W.Carries e 1 i Production.recordHeader Production.recordHeader :=
  andThen expect <| andThen (provided (.not .isAt) separated) <| andThen expect close

theorem recordComponent_carries :
    W.Carries e n i Production.recordComponent Production.recordComponent :=
  andThen read <| andThen read <| bind (c := 0) eat (fun _ => .none) fun _ _ _ =>
    andThen expect close

theorem annotationTypeDeclaration_carries :
    W.Carries e n i Production.annotationTypeDeclaration
      Production.annotationTypeDeclaration :=
  andThen expect <| andThen expect <| andThen expect <| andThen read close

/-! ### Members -/

theorem fieldDeclaration_carries :
    W.Carries e 1 i Production.fieldDeclaration Production.fieldDeclaration :=
  andThen read <| andThen read <| andThen expect close

theorem throws_carries : W.Carries e 1 i Production.throws Production.throws := readAfter

theorem methodBody_carries : W.Carries e 1 i Production.methodBody Production.methodBody :=
  isAt fun _ => ite rfl (fun _ => read) fun _ => expect

theorem methodDeclaration_carries :
    W.Carries e 1 i Production.methodDeclaration Production.methodDeclaration :=
  andThen read <| andThen expect <| andThen read <| andThen dims_carries <|
    andThen throws_carries <| andThen methodBody_carries close

theorem constructorDeclaration_carries :
    W.Carries e 1 i Production.constructorDeclaration Production.constructorDeclaration :=
  andThen expect <| andThen read <| andThen throws_carries <| andThen read close

theorem elementDeclaration_carries :
    W.Carries e 1 i Production.elementDeclaration Production.elementDeclaration :=
  andThen read <| andThen expect <| andThen expect <| andThen expect <| andThen dims_carries <|
    andThen readAfter <| andThen expect close

theorem method_asks :
    W.Asks 0 fun b : Ahead => b.kind != .identifier || b.kindAt 1 != .lparen := by
  intro hW i last hi
  have hnot (b : Ahead) : (b.kind != .identifier || b.kindAt 1 != .lparen) =
      !(b.isAt .identifier && b.kindAt 1 == .lparen) := (Bool.not_and ..).symm
  simp only [hnot]
  exact Asks.not (.isAtAnd .kindAt) hW i last hi

/-- Whether the element of an annotation type is declared here, behind its type. -/
theorem element_eq (hW : W.Proper) (hi : i ≤ W.size) {last : Option Phrase}
    (hmethod : ((W.view i last).kind != .identifier || (W.view i last).kindAt 1 != .lparen) =
      false) :
    ((W.view i last).kindAt 2 == .rparen &&
        (setting == .element || (W.view i last).kindAt 3 == .defaultKw)) =
      ((W.swap.view i last).kindAt 2 == .rparen &&
        (setting == .element || (W.swap.view i last).kindAt 3 == .defaultKw)) := by
  obtain ⟨hname, hparen⟩ := Bool.or_eq_false_iff.mp hmethod
  have hlt : i < W.size := lt_of_eq (n := 0) hW hi (bne_eq_false_iff_eq.mp hname)
  have hlt' : i + 1 + 1 < W.size := lt_of_lparen hW hlt (bne_eq_false_iff_eq.mp hparen)
  have hclose : (W.view i last).kindAt 2 = (W.swap.view i last).kindAt 2 := kindAt_eq hlt'
  have hdefault : ((W.view i last).kindAt 3 == .defaultKw) =
      ((W.swap.view i last).kindAt 3 == .defaultKw) := beq_eq hW hlt'
  rw [hclose, hdefault]

theorem typedMember_carries :
    W.Carries e 1 i (Production.typedMember setting) (Production.typedMember setting) := by
  refine ahead fun hW _ last => attempt fun found hfound => ?_
  cases found with
  | none => exact fieldDeclaration_carries
  | some width =>
    have hi := hfound width rfl
    change W.Carries e 1 i
      (if ((W.view i last).skip width).kind != .identifier ||
          ((W.view i last).skip width).kindAt 1 != .lparen then _ else _)
      (if ((W.swap.view i last).skip width).kind != .identifier ||
          ((W.swap.view i last).skip width).kindAt 1 != .lparen then _ else _)
    simp only [skip_view]
    refine ite (method_asks hW _ last hi) (fun _ => fieldDeclaration_carries) fun hmethod =>
      ite (element_eq hW hi hmethod) (fun _ => elementDeclaration_carries)
        fun _ => methodDeclaration_carries

theorem memberBody_carries :
    W.Carries e 1 i (Production.memberBody setting) (Production.memberBody setting) := by
  refine ahead fun _ hi last =>
    ask .isAt (fun _ => classDeclaration_carries) fun _ =>
    ask .isAt (fun _ => interfaceDeclaration_carries) fun _ =>
    ask .isAt (fun _ => enumDeclaration_carries) fun _ =>
    ask (.isAtAnd .kindAt) (fun _ => annotationTypeDeclaration_carries) fun _ =>
    ask .startsRecord (fun _ => recordDeclaration_carries) fun _ =>
    ite rfl (fun _ => mismatch) fun _ => ?_
  have hkind : (W.swap.view i last).kind = (W.view i last).kind := (kindAt_eq (n := 0) hi).symm
  simp only [hkind]
  split
  · exact andThen read <| ahead fun _ _ _ => ask (.isAtAnd .kindAt)
      (fun _ => constructorDeclaration_carries) fun _ => andThen read methodDeclaration_carries
  · refine ask .kindAt (fun _ => constructorDeclaration_carries) fun _ =>
      ask .kindAt (fun _ => ?_) fun _ => typedMember_carries
    exact andThen take <| andThen read close
  · exact methodDeclaration_carries
  · exact typedMember_carries

/-! ### Parameters and variables -/

theorem parameterAndComma_carries {ofLambda : Bool} :
    W.Carries e (n + 1) i (Production.parameterAndComma ofLambda)
      (Production.parameterAndComma ofLambda) :=
  ahead fun _ _ _ => andThen read <| ahead fun _ _ _ => ite rfl (fun _ => refuse) fun _ =>
    ite rfl (fun _ => pure) fun _ => eat

theorem formalParameters_carries {ofLambda : Bool} :
    W.Carries e n i (Production.formalParameters ofLambda)
      (Production.formalParameters ofLambda) :=
  andThen expect <| thenReads
    (provided (.not .isAt) (loop parameterAndComma_carries))
    (.first .expect) <| andThen expect close

theorem formalParameter_carries :
    W.Carries e 1 i Production.formalParameter Production.formalParameter := by
  refine andThen read <| andThen read <| andThen read <| ahead fun _ _ _ =>
    ask .isAt (fun _ => andThen take <| andThen expect close) fun _ =>
    ite rfl (fun _ => mismatch) fun _ => ask .isAt (fun _ => andThen take close) fun _ =>
    ask (.isAtAnd .kindAt) (fun _ => ?_) fun _ => andThen read close
  exact andThen (loop <| aheadAsk (.isAtAnd .kindAt) (andThen takeTwo pure) pure) <|
    andThen expect close

theorem variableDeclarators_carries :
    W.Carries e 1 i Production.variableDeclarators Production.variableDeclarators :=
  andThen separated close

theorem variableDeclarator_carries :
    W.Carries e 1 i Production.variableDeclarator Production.variableDeclarator :=
  andThen read <| andThen readAfter close

theorem variableDeclaratorId_carries :
    W.Carries e n i Production.variableDeclaratorId Production.variableDeclaratorId :=
  andThen expect <| andThen dims_carries close

theorem variableInitializer_carries :
    W.Carries e 1 i Production.variableInitializer Production.variableInitializer :=
  isAt fun _ => ite rfl (fun _ => read) fun _ => read

theorem arrayInitializer_carries :
    W.Carries e n i Production.arrayInitializer Production.arrayInitializer :=
  andThen nest <| andThen expect <|
    thenReads (commasUpTo .isAt) (.first .expect) <|
    andThen expect close

end JavaSource.Grammar.Window
