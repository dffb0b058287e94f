import JavaSource.Proofs.Windows.Moves

/-!
# Names and types in a window
-/

namespace JavaSource.Grammar.Window

open Carries

variable {W : Window} {e : Entry} {n i : Nat}

/-! ### Names, modifiers and annotations -/

theorem qualifiedName_carries :
    W.Carries e n i Production.qualifiedName Production.qualifiedName :=
  andThen expect <| andThen (loop <| aheadAsk (.isAtAnd .kindAt) (andThen takeTwo pure) pure) close

theorem qualifiedNames_carries :
    W.Carries e n i Production.qualifiedNames Production.qualifiedNames :=
  andThen separated close

theorem modifiers_carries : W.Carries e n i Production.modifiers Production.modifiers :=
  aheadAsk .startsModifier (andThen (loop <| ahead fun _ _ _ =>
    ask .isAtModifierWord (fun _ => andThen take pure) fun _ =>
      ask Asks.startsAnnotation (fun _ => andThen read pure) fun _ => pure) close) pure

theorem annotations_carries : W.Carries e n i Production.annotations Production.annotations :=
  readWhile Asks.startsAnnotation

theorem annotationElements_carries :
    W.Carries e 1 i Production.annotationElements Production.annotationElements :=
  ahead fun _ _ _ => ask (.isAtAnd .kindAt) (fun _ => separated) fun _ =>
    ask (.not .isAt) (fun _ => read) fun _ => pure

theorem annotationUse_carries :
    W.Carries e n i Production.annotationUse Production.annotationUse :=
  andThen expect <| andThen read <| andThen (provided .isAt <| andThen take <|
    thenReads (annotationElements_carries.mono (Nat.le_add_left ..)) .expect expect) close

theorem elementValuePair_carries :
    W.Carries e 1 i Production.elementValuePair Production.elementValuePair :=
  andThen expect <| andThen expect <| andThen read close

theorem bareElementValue_carries :
    W.Carries e 1 i Production.bareElementValue Production.bareElementValue := by
  refine ahead fun _ hi last => ?_
  have hkind : (W.swap.view i last).kind = (W.view i last).kind := (kindAt_eq (n := 0) hi).symm
  simp only [hkind]
  split
  · exact read
  · exact andThen take <| andThen (commasUpTo .isAt) <| andThen expect close
  · exact read

theorem elementValue_carries :
    W.Carries e 1 i Production.elementValue Production.elementValue :=
  andThen bareElementValue_carries close

/-! ### Types -/

theorem dims_carries : W.Carries e n i Production.dims Production.dims := by
  refine loop <| ahead fun hW _ last => ask .startsDim (fun _ => andThen read pure) fun _ =>
    ask .isAt (fun _ => attempt fun found hfound => ?_) fun _ => pure
  cases found with
  | none => exact pure
  | some width =>
    exact ite (Asks.startsDim.skip last hW (hfound width rfl)) (fun _ => andThen read pure)
      fun _ => pure

theorem dim_carries : W.Carries e n i Production.dim Production.dim :=
  andThen read <| andThen expect <| andThen expect close

theorem baseType_carries : W.Carries e n i Production.baseType Production.baseType :=
  ahead fun _ _ _ => ask (.test TokenKind.isPrimitiveType rfl) (fun _ => take) fun _ =>
    ask .isAt (fun _ => read) fun _ => mismatch

theorem typeBody_carries {withDims : Bool} :
    W.Carries e n i (Production.typeBody withDims) (Production.typeBody withDims) :=
  andThen read <| andThen baseType_carries <|
    andThen (provided .const dims_carries) close

theorem type_carries : W.Carries e n i Production.type Production.type :=
  andThen nest typeBody_carries

theorem bareType_carries : W.Carries e n i Production.bareType Production.bareType :=
  andThen nest typeBody_carries

theorem resultType_carries : W.Carries e n i Production.resultType Production.resultType :=
  ifEaten close read

theorem classType_carries : W.Carries e n i Production.classType Production.classType :=
  andThen read <| andThen (loop <| aheadAsk (.isAtAnd (.or .kindAt .kindAt))
    (andThen take <| andThen read pure) pure) close

theorem coit_carries : W.Carries e n i Production.coit Production.coit :=
  andThen read <| andThen expect <| andThen readAt close

theorem typeArguments_carries :
    W.Carries e n i Production.typeArguments Production.typeArguments :=
  andThen expect <| andThen (provided (.not .isAt) separated) <| andThen expect close

theorem typeArgument_carries :
    W.Carries e n i Production.typeArgument Production.typeArgument :=
  andThen read <| ifEaten
    (andThen (provided (.or .isAt .isAt) (andThen take read)) close)
    (andThen nest typeBody_carries)

theorem typeList_carries : W.Carries e n i Production.typeList Production.typeList :=
  andThen separated close

theorem typeParameters_carries :
    W.Carries e n i Production.typeParameters Production.typeParameters :=
  andThen expect <| thenReads separated (.first .expect) <| andThen expect close

theorem typeParameter_carries :
    W.Carries e 1 i Production.typeParameter Production.typeParameter :=
  andThen read <| andThen expect <| andThen readAfter close

theorem typeBound_carries : W.Carries e n i Production.typeBound Production.typeBound :=
  andThen separated close

theorem modifiedType_carries :
    W.Carries e n i Production.modifiedType Production.modifiedType :=
  andThen read read

/-- How far modifiers and a type reach is the same. -/
theorem modifiedTypeWidth_carries {α : Type} {f f' : Option Nat → Move α}
    (h : ∀ found, (∀ width, found = some width → ∃ parts,
        Rule.modifiedType.Takes W.source (W.start + i) parts (W.start + (i + width))) →
      W.Carries e n i (f found) (f' found)) :
    W.Carries e n i (Production.modifiedTypeWidth >>= f) (Production.modifiedTypeWidth >>= f') := by
  refine ahead fun hW hi last => ?_
  have hmay : (W.swap.view i last).mayStartType = (W.view i last).mayStartType :=
    (Asks.mayStartType hW i last hi).symm
  change W.Carries e n i
    ((if (W.view i last).mayStartType then Move.attempt .modifiedType else Pure.pure none) >>= f)
    ((if (W.swap.view i last).mayStartType then Move.attempt .modifiedType else Pure.pure none)
      >>= f')
  rw [hmay]
  cases (W.view i last).mayStartType with
  | true => exact attemptTakes h
  | false => exact h none nofun

theorem startsVariable_carries :
    W.Carries e n i Production.startsVariable Production.startsVariable := by
  refine ahead fun hW hi last => modifiedTypeWidth_carries fun found htakes => ?_
  cases found with
  | none => exact pure
  | some width =>
    obtain ⟨_, htakes⟩ := htakes width rfl
    have hle : i + width ≤ W.size :=
      probe_le .modifiedType hW (Nat.le_of_add_right_le hi) htakes
    have heq : ((W.view i last).kindAt width == .identifier) =
        ((W.swap.view i last).kindAt width == .identifier) := beq_eq hW hle
    simp only [Option.any_some, heq]
    exact pure

end JavaSource.Grammar.Window
