import JavaSource.Proofs.Adds

/-!
# Rules for names, annotations and types

Each rule adds the shape that the table gives it.
-/

namespace JavaSource.Grammar

open Shape Phrase

variable {scan : Scan} {limit : Nat} {s : State}

/-! ### Names, modifiers and annotations -/

theorem qualifiedName_keeps : Keeps scan limit .qualifiedName := .of_shape fun s hs => by
  refine (Adds.refl s).step (.expect _) fun h => ?_
  refine h.step (.loop fun s => ?_) fun h => h.close hs .refl fun _ h => h
  show (if ((scan.source.ahead s).isAt .dot && (scan.source.ahead s).kindAt 1 == .identifier)
    = true then _ else _ : Move Bool).Ensures ..
  split
  · exact .bind ((takeTwo_ensures ‹_›).mono fun _ _ h => h.mono .present)
  · exact (Adds.refl s).mono .absent

theorem qualifiedNames_keeps : Keeps scan limit .qualifiedNames := .of_shape fun s hs => by
  exact (Adds.refl s).step (.separated _) fun h => h.close hs .refl fun _ h => h

theorem mem_modifierWords {k : TokenKind} (h : Ahead.isModifierWord k) : k ∈ modifierWords := by
  cases k <;> first | decide | cases h

/-- A word that modifies. -/
theorem take_modifierWord (h : (scan.source.ahead s).isAtModifierWord) :
    Move.take.Ensures scan.source limit (contract scan)
      (fun _ s' => Adds scan s modifier s' ∧ s'.read = s.read + 1) s := by
  rcases (Bool.or_eq_true ..).mp h with h | h
  · exact (take_oneOf (mem_modifierWords h)).mono fun _ _ h => ⟨h.1.mono .left, h.2⟩
  · exact (take_word ((Bool.and_eq_true ..).mp h).1).mono fun _ _ h =>
      ⟨h.1.mono (Within.left.trans .right), h.2⟩

theorem modifiers_keeps : Keeps scan limit .modifiers := fun s hs _ => by
  show (if (scan.source.ahead s).startsModifier then _ else _ : Move Unit).Ensures ..
  split
  · rename_i hstarts
    refine .bind (.loopWhile (fun s₁ => s₁ = s ∨ Adds scan s (several modifier) s₁) (.inl rfl)
      fun s₁ hs₁ => ?_)
    have hmore {s₂ : State} (h : Adds scan s₁ modifier s₂) : Adds scan s (several modifier) s₂ := by
      rcases hs₁ with rfl | hs₁
      · exact h.mono .one_several
      · exact (hs₁.trans h).mono .several_again
    show (if (scan.source.ahead s₁).isAtModifierWord then _ else _ : Move Bool).Ensures ..
    split
    · exact .bind ((take_modifierWord ‹_›).mono fun _ s₂ h =>
        ⟨Nat.lt_of_lt_of_eq (Nat.lt_succ_self _) h.2.symm, .inr (hmore h.1)⟩)
    · rename_i hword
      split
      · exact .bind ((Adding.ensures .read s₁).mono fun _ s₂ h =>
          ⟨h.lt rfl, .inr (hmore (h.mono (.trans .right .right)))⟩)
      · rename_i hannotation
        rw [Bool.not_eq_true] at hword hannotation
        rcases hs₁ with rfl | hs₁
        · rw [Ahead.startsModifier, hword, hannotation] at hstarts
          cases hstarts
        · exact hs₁.close hs .refl fun hread h =>
            ⟨h.mono .present, (sees_congr hread fun _ _ => rfl).trans hannotation⟩
  · rename_i hstarts
    rw [Bool.not_eq_true, Ahead.startsModifier, Bool.or_eq_false_iff] at hstarts
    exact ⟨(Adds.refl s).mono .absent, hstarts.2⟩

theorem annotations_keeps : Keeps scan limit .annotations := fun s _ _ => by
  cases hstarts : Ahead.startsAnnotation (scan.source.ahead s) with
  | true =>
    exact (Adding.ensures .readWhile s).mono fun _ _ h =>
      ⟨h, fun hfalse => nomatch hfalse.symm.trans hstarts⟩
  | false =>
    refine .loopWhile (· = s) rfl fun s₁ hs₁ => ?_
    subst hs₁
    show (if Ahead.startsAnnotation (scan.source.ahead s₁) then _ else _ : Move Bool).Ensures ..
    rw [hstarts]
    exact ⟨(Adds.refl s₁).mono .none_many, fun _ => ⟨rfl, rfl⟩⟩

theorem annotationElements_adds : Adding scan limit Production.annotationElements
    ((separated .comma (phr .elementValuePair)).alt (opt (phr .elementValue))) := 
  .ahead fun _ => .ite (.mono (.separated _) .left)
    (.ite (.mono .read (.trans .present .right)) (.mono (.pure _) (.trans .absent .right)))

theorem annotationUse_keeps : Keeps scan limit .annotationUse := .of_shape fun s hs => by
  refine (Adds.refl s).step (.expect _) fun h => ?_
  refine h.step .read fun h => ?_
  refine h.step (.provided fun s hparen => ?_) fun h => h.close hs .refl fun _ h => h
  refine .bind ((take_tok hparen).mono fun _ _ h => ?_)
  exact h.1.step annotationElements_adds fun h => h.last (.expect _) fun h => h

theorem elementValuePair_keeps : Keeps scan limit .elementValuePair := .of_shape fun s hs => by
  refine (Adds.refl s).step (.expect _) fun h => ?_
  refine h.step (.expect _) fun h => ?_
  exact h.step .read fun h => h.close hs .refl fun _ h => h

theorem bareElementValue_ensures (hs : s.parts = []) :
    Production.bareElementValue.Ensures scan.source limit (contract scan)
      (fun _ s' => Adds scan s Phrase.elementValue.shape s') s := by
  refine .ahead ?_
  split
  · exact readAs_ensures (.phrases (by decide))
  · rename_i hkind
    refine .bind ((take_tok (beq_iff_eq.mpr hkind)).mono fun _ _ h => ?_)
    refine h.1.step .commasUpTo fun h => ?_
    exact h.step (.expect _) fun h => h.close hs .refl fun _ h => h.mono (.phrases (by decide))
  · exact readAs_ensures (.phrases (by decide))

theorem elementValue_keeps : Keeps scan limit .elementValue := .of_shape fun s hs => by
  exact .bind ((bareElementValue_ensures hs).mono fun _ _ h => h.close hs .refl fun _ h => h)

/-! ### Types -/

theorem dims_adds : Adding scan limit Production.dims Phrase.dims :=
  .loop (.ahead fun _ => .ite (.mono (.andReturn .read) .present) (.ite (.attempt fun width => by
    cases width with
    | none => exact .mono (.pure _) .absent
    | some width => exact .ite (.mono (.andReturn .read) .present) (.mono (.pure _) .absent))
    (.mono (.pure _) .absent)))

theorem dim_keeps : Keeps scan limit .dim := .of_shape fun s hs => by
  refine (Adds.refl s).step .read fun h => ?_
  refine h.step (.expect _) fun h => ?_
  exact h.step (.expect _) fun h => h.close hs .refl fun _ h => h

theorem mem_primitives {k : TokenKind} (h : k.isPrimitiveType) : k ∈ primitives := by
  cases k <;> first | decide | cases h

theorem baseType_adds : Adding scan limit Production.baseType
    ((oneOf (.voidKw :: primitives)).alt (phr .classType)) := fun s => by
  refine .ahead ?_
  split
  · exact (take_oneOf (List.mem_cons_of_mem _ (mem_primitives ‹_›))).mono fun _ _ h =>
      h.1.mono .left
  · split
    · exact readAs_ensures .right
    · exact Adding.mismatch _ s

/-- A type behind its annotations: without any it is plain. -/
theorem Adds.closeType {withDims : Bool} {s₀ : State} {as : Shape} {i : Item}
    (h : Adds scan s₀ as s) (hs₀ : s₀.parts = []) (has : Within as Phrase.annotations)
    (hi : ∀ new start stop,
      ((as.andThen ((oneOf (.voidKw :: primitives)).alt (phr .classType))).andThen
        (opt Phrase.dims)).Holds new → i.fits (.node .type new start stop)) :
    (do Production.baseType
        Move.provided (fun _ => withDims) Production.dims
        Move.close .type).Ensures scan.source limit (contract scan)
      (fun _ s' => Adds scan s₀ (one i) s') s := by
  refine h.step baseType_adds fun h => ?_
  refine h.step (.optional dims_adds) fun h => ?_
  exact h.closeAs hs₀ (.andThen (.andThen has .refl) (.alt .none_many .refl)) hi fun _ h => h

theorem typeBody_ensures (withDims : Bool) (hs : s.parts = []) :
    (Production.typeBody withDims).Ensures scan.source limit (contract scan)
      (fun _ s' => Adds scan s (phr .type) s') s :=
  (Adds.refl s).step .read fun h => h.closeType hs .refl fun _ _ _ _ => rfl

theorem typeBody_plain (withDims : Bool) (hs : s.parts = [])
    (hstarts : Ahead.startsAnnotation (scan.source.ahead s) = false) :
    (Production.typeBody withDims).Ensures scan.source limit (contract scan)
      (fun _ s' => Adds scan s plainType s') s := by
  refine .bind ((read_annotations hstarts).mono fun _ s₁ ⟨hparts, hread⟩ => ?_)
  have h : Adds scan s nothing s₁ := (Adds.refl s).congr rfl rfl hparts hread
  exact h.closeType hs .none_many fun _ _ _ hholds => hholds.fits_only (by decide) _ _

theorem type_keeps : Keeps scan limit .type := fun s hs _ => by
  refine .nest ?_
  cases hstarts : Ahead.startsAnnotation (scan.source.ahead s) with
  | true =>
    refine (typeBody_ensures (s := { s with depth := s.depth + 1 }) true hs).mono fun _ _ h => ?_
    exact ⟨h.congr rfl rfl rfl rfl, fun hfalse => nomatch hfalse.symm.trans hstarts⟩
  | false =>
    refine (typeBody_plain (s := { s with depth := s.depth + 1 }) true hs hstarts).mono ?_
    intro _ s' h
    have h : Adds scan s plainType s' := h.congr rfl rfl rfl rfl
    exact ⟨h.mono (.only_phrases (by decide)), fun _ => h⟩

theorem bareType_keeps : Keeps scan limit .bareType := .of_shape fun s hs => by
  exact .nest ((typeBody_ensures (s := { s with depth := s.depth + 1 }) false hs).mono
    fun _ _ h => h.congr rfl rfl rfl rfl)

theorem voidType_within : Within (tok .voidKw) Phrase.type.shape :=
  .trans (.tokens (by decide)) <| .trans .left <| .trans (.prepend .many_nil) (.append .many_nil)

theorem resultType_keeps : Keeps scan limit .resultType := .of_shape fun s hs => by
  refine .bind ((eat_ensures .voidKw).mono fun eaten s₁ h => ?_)
  cases eaten with
  | true => exact Adds.close h hs voidType_within fun _ h => h
  | false =>
    obtain rfl : s₁ = s := h
    exact readAs_ensures .refl

theorem classType_keeps : Keeps scan limit .classType := .of_shape fun s hs => by
  refine (Adds.refl s).step .read fun h => ?_
  refine h.step (.loop fun s => ?_) fun h => h.close hs .refl fun _ h => h
  refine .ahead ?_
  split
  · rename_i hmore
    refine .bind ((take_tok ((Bool.and_eq_true ..).mp hmore).1).mono fun _ _ h => ?_)
    exact h.1.step .read fun h => h.mono .present
  · exact (Adds.refl s).mono .absent

theorem coit_keeps : Keeps scan limit .coit := .of_shape fun s hs => by
  refine (Adds.refl s).step .read fun h => ?_
  refine h.step (.expect _) fun h => ?_
  exact h.step (.readAt _) fun h => h.close hs .refl fun _ h => h

theorem typeArguments_keeps : Keeps scan limit .typeArguments := .of_shape fun s hs => by
  refine (Adds.refl s).step (.expect _) fun h => ?_
  refine h.step (.optional (.separated _)) fun h => ?_
  exact h.step (.expect _) fun h => h.close hs .refl fun _ h => h

theorem wildcardBound_adds : Adding scan limit
    (Move.provided (fun a => a.isAt .extendsKw || a.isAt .superKw) do
      Move.take
      Move.read .type)
    (opt ((oneOf [.extendsKw, .superKw]).andThen (phr .type))) := .provided fun s hbound => by
  have hkind : (scan.source.ahead s).kind ∈ [.extendsKw, .superKw] := by
    rcases (Bool.or_eq_true ..).mp hbound with h | h <;> simp [beq_iff_eq.mp h]
  refine .bind ((take_oneOf hkind).mono fun _ _ h => ?_)
  exact h.1.last .read fun h => h

theorem typeArgument_keeps : Keeps scan limit .typeArgument := .of_shape fun s hs => by
  refine (Adds.refl s).step .read fun h => ?_
  rename_i s₁
  refine .bind ((eat_ensures .question).mono fun eaten s₂ h' => ?_)
  cases eaten with
  | true =>
    refine (h.trans h').step wildcardBound_adds fun h => ?_
    exact h.close hs .refl fun _ h => h.mono (.phrases (by decide))
  | false =>
    obtain rfl : s₂ = s₁ := h'
    refine .nest (Adds.step (h.congr rfl rfl rfl rfl) .read fun h => ?_)
    exact (h.closeType (i := .phrase [.type]) hs .many_many fun _ _ _ _ => rfl).mono
      fun _ _ h => h.mono (.phrases (by decide))

theorem typeList_keeps : Keeps scan limit .typeList := .of_shape fun s hs =>
  (Adds.refl s).step (.separated _) fun h => h.close hs .refl fun _ h => h

theorem typeParameters_keeps : Keeps scan limit .typeParameters := .of_shape fun s hs => by
  refine (Adds.refl s).step (.expect _) fun h => ?_
  refine h.step (.separated _) fun h => ?_
  exact h.step (.expect _) fun h => h.close hs .refl fun _ h => h

theorem typeParameter_keeps : Keeps scan limit .typeParameter := .of_shape fun s hs => by
  refine (Adds.refl s).step .read fun h => ?_
  refine h.step (.expect _) fun h => ?_
  exact h.step (.readAfter _) fun h => h.close hs .refl fun _ h => h

theorem typeBound_keeps : Keeps scan limit .typeBound := .of_shape fun s hs =>
  (Adds.refl s).step (.separated _) fun h => h.close hs .refl fun _ h => h

theorem modifiedType_keeps : Keeps scan limit .modifiedType := .of_shape fun s _ =>
  (Adds.refl s).step .read fun h => h.last .read fun h => h

/-! ### Decisions -/

theorem modifiedTypeWidth_adds : Adding scan limit Production.modifiedTypeWidth nothing :=
  .ahead fun _ => .ite .tried (.pure _)

theorem startsVariable_adds : Adding scan limit Production.startsVariable nothing :=
  .ahead fun _ => .bind modifiedTypeWidth_adds fun _ => .pure _

end JavaSource.Grammar
