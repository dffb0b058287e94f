import JavaSource.Grammar.Production
import JavaSource.Proofs.Advancing

/-!
# Rules for names, annotations and types advance
-/

namespace JavaSource.Grammar

open Move.Goes

variable {source : Source} {bound : Nat} {S : Stage} {a : Ahead}

/-! ### Names, modifiers and annotations -/

theorem qualifiedName_steps : Rule.qualifiedName.Steps source := by
  refine andThen (expect (by decide)) <| andThen (loop ?_) close
  refine ahead fun a => ite (fun h => ?_) fun _ => pure rfl
  obtain ⟨hdot, hname⟩ := Bool.and_eq_true_iff.mp h
  exact andThen (takeTwo (ne_eof hdot (by decide)) (ne_eof hname (by decide))) (pure rfl)

theorem qualifiedNames_steps : Rule.qualifiedNames.Steps source :=
  andThen (separated (by decide) rfl rfl) close

theorem modifierWord_ne_eof (h : a.isAtModifierWord = true) : a.kind ≠ .eof := by
  rcases (Bool.or_eq_true ..).mp h with h | h
  · intro heof
    rw [heof] at h
    cases h
  · exact word_ne_eof (Bool.and_eq_true_iff.mp h).1

theorem modifiers_steps : Rule.modifiers.Steps source := by
  refine ahead fun a => ite (fun _ => ?_) fun _ => pure rfl
  refine andThen (loop (ahead fun b => ?_)) close
  refine ite (fun h => andThen (take (modifierWord_ne_eof h)) (pure rfl)) fun _ => ?_
  exact ite (fun _ => readThen rfl rfl (pure rfl)) fun _ => pure rfl

theorem annotations_steps : Rule.annotations.Steps source := readWhile rfl rfl

theorem annotationElements_goes :
    Production.annotationElements.Goes source bound .fed fun _ => .fed := by
  refine ahead fun a => ite (fun _ => separated (by decide) rfl rfl) fun _ => ?_
  exact ite (fun _ => read rfl) fun _ => pure rfl

theorem annotationUse_steps : Rule.annotationUse.Steps source := by
  refine andThen (expect (by decide)) <| readThen rfl rfl <| andThen (provided fun a h => ?_) close
  refine andThen (take (ne_eof h (by decide))) ?_
  exact andThen annotationElements_goes (expect (by decide))

theorem elementValuePair_steps : Rule.elementValuePair.Steps source :=
  andThen (expect (by decide)) <| andThen (expect (by decide)) <| readThen rfl rfl close

theorem bareElementValue_goes :
    Production.bareElementValue.Goes source 11 .any fun _ => .fed := by
  refine ahead fun a => ?_
  split
  · exact read rfl
  · rename_i hkind
    refine andThen (take (hkind ▸ by decide)) <| andThen (commasUpTo rfl rfl) ?_
    exact andThen (expect (by decide)) close
  · exact read rfl

theorem elementValue_steps : Rule.elementValue.Steps source :=
  andThen bareElementValue_goes close

/-! ### Types -/

theorem dims_goes : Production.dims.Goes source bound .fed fun _ => .fed := by
  refine loop (ahead fun a => ite (fun _ => readThen rfl rfl (pure rfl)) fun _ => ?_)
  refine ite (fun _ => ?_) fun _ => pure rfl
  refine bind (attempt rfl) fun width => ?_
  split
  · exact ite (fun _ => readThen rfl rfl (pure rfl)) fun _ => pure rfl
  · exact pure rfl

theorem dim_steps : Rule.dim.Steps source :=
  andThen (read rfl) <| andThen (expect (by decide)) <| andThen (expect (by decide)) close

theorem primitive_ne_eof (h : a.kind.isPrimitiveType = true) : a.kind ≠ .eof := by
  intro heof
  rw [heof] at h
  cases h

theorem baseType_goes : Production.baseType.Goes source 4 .any fun _ => .fed := by
  refine ahead fun a => ite (fun h => take (primitive_ne_eof h)) fun _ => ?_
  exact ite (fun _ => read rfl) fun _ => mismatch

theorem typeBody_goes (withDims : Bool) :
    (Production.typeBody withDims).Goes source 4 .any fun _ => .fed :=
  andThen (read rfl) <| andThen baseType_goes <|
    andThen (provided fun _ _ => unseen dims_goes) close

theorem type_steps : Rule.type.Steps source := andThen nest (typeBody_goes true)

theorem bareType_steps : Rule.bareType.Steps source := andThen nest (typeBody_goes false)

theorem resultType_steps : Rule.resultType.Steps source :=
  ifEaten (by decide) close (read rfl)

theorem classType_steps : Rule.classType.Steps source := by
  refine readThen rfl rfl <| andThen (loop ?_) close
  refine ahead fun a => ite (fun h => ?_) fun _ => pure rfl
  refine andThen (take (ne_eof (Bool.and_eq_true_iff.mp h).1 (by decide))) ?_
  exact readThen rfl rfl (pure rfl)

theorem coit_steps : Rule.coit.Steps source :=
  andThen (read rfl) <| andThen (expect (by decide)) <| andThen (readAt rfl) close

theorem typeArguments_steps : Rule.typeArguments.Steps source := by
  refine andThen (expect (by decide)) <| andThen (provided fun a _ => ?_) ?_
  · exact separated (by decide) rfl rfl
  · exact andThen (expect (by decide)) close

theorem typeArgument_steps : Rule.typeArgument.Steps source := by
  refine andThen (read rfl) <| ifEaten (by decide) (andThen (provided fun a h => ?_) close) ?_
  · exact andThen (take (either_ne_eof h (by decide) (by decide))) (read rfl)
  · exact andThen nest (typeBody_goes true)

theorem typeList_steps : Rule.typeList.Steps source :=
  andThen (separated (by decide) rfl rfl) close

theorem typeParameters_steps : Rule.typeParameters.Steps source :=
  andThen (expect (by decide)) <| andThen (separated (by decide) rfl rfl) <|
    andThen (expect (by decide)) close

theorem typeParameter_steps : Rule.typeParameter.Steps source :=
  andThen (read rfl) <| andThen (expect (by decide)) <| andThen (readAfter (by decide) rfl) close

theorem typeBound_steps : Rule.typeBound.Steps source :=
  andThen (separated (by decide) rfl rfl) close

theorem modifiedType_steps : Rule.modifiedType.Steps source := andThen (read rfl) (read rfl)

/-! ### Decisions -/

theorem modifiedTypeWidth_goes (h : (S.isFed || Nat.blt 5 bound) = true) :
    Production.modifiedTypeWidth.Goes source bound S fun _ => S :=
  decide fun _ => ite (fun _ => attempt h) fun _ => decided

theorem startsVariable_goes (h : (S.isFed || Nat.blt 5 bound) = true) :
    Production.startsVariable.Goes source bound S fun _ => S :=
  decide fun _ => bind (modifiedTypeWidth_goes h) fun _ => decided

end JavaSource.Grammar
