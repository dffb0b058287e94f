import JavaSource.Proofs.Rules.Types

/-!
# Rules for declarations

Each rule adds the shape that the table gives it.  A member is read where no annotation stands, so
the type of a field or of an element has none of its own.
-/

namespace JavaSource.Grammar

open Shape Phrase

variable {scan : Scan} {limit : Nat} {s : State}

/-! ### Compilation units and modules -/

theorem startsPackage_adds : Adding scan limit Production.startsPackage nothing :=
  .ahead fun _ => .ite (.pure _) (.ite (.attempt fun _ => .pure _) (.pure _))

theorem startsModule_adds : Adding scan limit Production.startsModule nothing :=
  .ahead fun _ => .ite (.attempt fun _ => .pure _) (.pure _)

theorem packageDeclaration_keeps : Keeps scan limit .packageDeclaration := .of_shape fun s hs => by
  refine (Adds.refl s).step .read fun h => ?_
  refine h.step (.expect _) fun h => ?_
  refine h.step .read fun h => ?_
  exact h.step (.expect _) fun h => h.close hs .refl fun _ h => h

theorem importDeclaration_keeps : Keeps scan limit .importDeclaration := .of_shape fun s hs => by
  refine (Adds.refl s).step (.expect _) fun h => ?_
  refine h.step (.eat _) fun h => ?_
  refine h.step .read fun h => ?_
  refine h.step (.provided fun s hdot => takeTwo_ensures hdot) fun h => ?_
  exact h.step (.expect _) fun h => h.close hs .refl fun _ h => h

theorem moduleDeclaration_keeps : Keeps scan limit .moduleDeclaration := .of_shape fun s hs => by
  refine (Adds.refl s).step .read fun h => ?_
  refine h.step (.provided fun s hopen => (take_word hopen).mono fun _ _ h => h.1) fun h => ?_
  refine h.step (.expectWord _) fun h => ?_
  refine h.step .read fun h => ?_
  refine h.step (.expect _) fun h => ?_
  refine h.step .readWhile fun h => ?_
  exact h.step (.expect _) fun h => h.close hs .refl fun _ h => h

theorem nameAndTargets_adds (text : String) : Adding scan limit (Production.nameAndTargets text)
    ((phr .qualifiedName).andThen (behindWord text (phr .qualifiedNameList))) :=
  .bind .read fun _ => .providedAtWord .read

theorem requiresModifiers_adds : Adding scan limit Production.requiresModifiers
    (many ((tok .staticKw).alt (word "transitive"))) := .loop fun s => by
  refine .ahead ?_
  split
  · rename_i hmore
    rcases (Bool.or_eq_true ..).mp hmore with hstatic | hword
    · exact .bind ((take_tok hstatic).mono fun _ _ h => h.1.mono (.trans .left .present))
    · exact .bind ((take_word ((Bool.and_eq_true ..).mp hword).1).mono fun _ _ h =>
        h.1.mono (.trans .right .present))
  · exact (Adds.refl s).mono .absent

/-- A line of a module that ends in a semicolon. -/
theorem Adds.closeDirective {s₀ : State} {row : Shape} {kind : Phrase} (h : Adds scan s₀ row s)
    (hs₀ : s₀.parts = []) (hrow : Within (row.andThen (tok .semi)) kind.shape)
    (hkind : kind ∈ directives) :
    (do Move.expect .semi
        Move.close kind).Ensures scan.source limit (contract scan)
      (fun _ s' => Adds scan s₀ (anyOf directives) s') s :=
  h.step (.expect _) fun h => h.close hs₀ hrow fun _ h =>
    h.mono (.phrases (List.cons_subset.mpr ⟨hkind, List.nil_subset _⟩))

theorem moduleDirective_keeps : Keeps scan limit .moduleDirective := .of_shape fun s hs => by
  refine .ahead ?_
  split
  · refine .bind ((take_word ‹_›).mono fun _ _ h => ?_)
    refine h.1.step requiresModifiers_adds fun h => ?_
    exact h.step .read fun h => h.closeDirective hs .refl (by decide)
  split
  · refine .bind ((take_word ‹_›).mono fun _ _ h => ?_)
    exact h.1.step (nameAndTargets_adds _) fun h =>
      h.closeDirective hs (.andThen .assoc' .refl) (by decide)
  split
  · refine .bind ((take_word ‹_›).mono fun _ _ h => ?_)
    exact h.1.step (nameAndTargets_adds _) fun h =>
      h.closeDirective hs (.andThen .assoc' .refl) (by decide)
  split
  · refine .bind ((take_word ‹_›).mono fun _ _ h => ?_)
    exact h.1.step .read fun h => h.closeDirective hs .refl (by decide)
  split
  · refine .bind ((take_word ‹_›).mono fun _ _ h => ?_)
    refine h.1.step .read fun h => ?_
    refine h.step (.expectWord _) fun h => ?_
    exact h.step .read fun h => h.closeDirective hs .refl (by decide)
  · exact Adding.mismatch _ s

theorem finish_ensures : Production.finish.Ensures scan.source limit (contract scan)
    (fun _ s' => s' = s ∧ (scan.source.ahead s).kind = .eof) s := by
  show (if (!(scan.source.ahead s).isAt .eof) = true then _ else _ : Move Unit).Ensures ..
  split
  · trivial
  · rename_i hkind
    exact ⟨rfl, by simpa [Ahead.isAt] using hkind⟩

/-- A phrase that a source ends with. -/
theorem Adds.closeWhole {s₀ : State} {row : Shape} {kind : Phrase} (h : Adds scan s₀ row s)
    (hs₀ : s₀.parts = []) (hrow : Within row kind.shape) :
    (do Production.finish
        Move.close kind).Ensures scan.source limit (contract scan)
      (fun _ s' => Adds scan s₀ (phr kind) s' ∧ (scan.source.ahead s').kind = TokenKind.eof) s := by
  refine .bind (finish_ensures.mono fun _ s₁ ⟨hs₁, hkind⟩ => ?_)
  subst hs₁
  exact h.close hs₀ hrow fun hread h => ⟨h, (sees_congr hread fun _ _ => rfl).trans hkind⟩

theorem unitPackage_adds : Adding scan limit Production.unitPackage
    (opt (phr .packageDeclaration)) :=
  .after startsPackage_adds fun _ => .ite (.readAs .present) (.mono (.pure _) .absent)

theorem unitBody_adds : Adding scan limit Production.unitBody
    ((phr .moduleDeclaration).alt (many decl)) :=
  .after startsModule_adds fun _ => .ite (.readAs .left) (.mono .readWhile .right)

theorem compilationUnit_keeps : Keeps scan limit .compilationUnit := fun s hs _ => by
  refine (Adds.refl s).step unitPackage_adds fun h => ?_
  refine h.step .readWhile fun h => ?_
  exact h.step unitBody_adds fun h => h.closeWhole hs .refl

theorem anyDeclaration_adds : Adding scan limit Production.anyDeclaration
    Phrase.declarationStart.shape :=
  .after startsPackage_adds fun _ => .ite (.readAs (.phrases (by decide))) <|
    .isAt fun _ => .ite (.readAs (.phrases (by decide))) <|
      .after startsModule_adds fun _ => .ite (.readAs (.phrases (by decide)))
        (.readAs (.phrases (by decide)))

theorem declarationStart_keeps : Keeps scan limit .declarationStart := fun s hs _ =>
  (Adds.refl s).step anyDeclaration_adds fun h => h.closeWhole hs .refl

/-! ### Bodies -/

theorem classBody_keeps (setting : Setting) : Keeps scan limit (.classBody setting) :=
  .of_shape fun s hs => by
    refine (Adds.refl s).nest fun h => ?_
    refine h.step (.expect _) fun h => ?_
    refine h.step .readWhile fun h => ?_
    exact h.step (.expect _) fun h => h.close hs .refl fun _ h => h

theorem enumBody_keeps : Keeps scan limit .enumBody := .of_shape fun s hs => by
  refine (Adds.refl s).step (.expect _) fun h => ?_
  refine h.step .commasUpTo fun h => ?_
  refine h.step (.providedAt .readWhile) fun h => ?_
  exact h.step (.expect _) fun h => h.close hs .refl fun _ h => h

theorem enumConstant_keeps : Keeps scan limit .enumConstant := .of_shape fun s hs => by
  refine (Adds.refl s).step .read fun h => ?_
  refine h.step (.expect _) fun h => ?_
  refine h.step (.readAt _) fun h => ?_
  exact h.step (.readAt _) fun h => h.close hs .refl fun _ h => h

theorem classBodyDeclaration_keeps (setting : Setting) :
    Keeps scan limit (.classBodyDeclaration setting) := .of_shape fun s hs => by
  refine .ahead ?_
  split
  · exact .bind ((take_tok ‹_›).mono fun _ _ h =>
      h.1.close hs .refl fun _ h => h.mono (.phrases (by decide)))
  split
  · exact (Adds.refl s).step .read fun h => h.close hs (.prepend .none) fun _ h =>
      h.mono (.phrases (by decide))
  split
  · rename_i hstatic
    refine .bind ((take_tok ((Bool.and_eq_true ..).mp ((Bool.and_eq_true ..).mp hstatic).1).1).mono
      fun _ _ h => ?_)
    exact h.1.step .read fun h => h.close hs (.andThen .present .refl) fun _ h =>
      h.mono (.phrases (by decide))
  · cases setting with
    | outermost => exact readAs_ensures (.only_phrases (by decide))
    | member | element | alone => exact readAs_ensures (.phrases (by decide))

theorem memberDeclaration_keeps (setting : Setting) :
    Keeps scan limit (.memberDeclaration setting) := .of_shape fun s hs => by
  refine .bind (read_modifiers.mono fun _ s₁ ⟨h, hstarts⟩ => ?_)
  have hbody : (Move.read (.memberBody setting)).Ensures scan.source limit (contract scan)
      (fun _ s₂ => Adds scan s ((opt (phr .modifiers)).andThen (Rule.memberBody setting).shape) s₂)
      s₁ :=
    read_ensures ((sees_congr rfl fun _ _ => rfl).trans hstarts) fun _ h' _ => h.trans h'.lift
  refine .bind (hbody.mono fun _ s₂ h => ?_)
  cases setting with
  | outermost =>
    exact h.closeAs hs (.andThen .refl (.phrases (by decide)))
      (fun _ _ _ hholds => hholds.fits_only (by decide) _ _) fun _ h => h
  | member | element | alone => exact h.close hs .refl fun _ h => h

/-! ### Types -/

theorem permits_adds : Adding scan limit Production.permits
    (behindWord "permits" (phr .typeList)) := .providedAtWord .read

theorem classDeclaration_adds (hs : s.parts = []) :
    Production.classDeclaration.Ensures scan.source limit (contract scan)
      (fun _ s' => Adds scan s (phr .classDeclaration) s') s := by
  refine (Adds.refl s).step (.expect _) fun h => ?_
  refine h.step (.expect _) fun h => ?_
  refine h.step (.readAt _) fun h => ?_
  refine h.step (.readAfter _) fun h => ?_
  refine h.step (.readAfter _) fun h => ?_
  refine h.step permits_adds fun h => ?_
  exact h.step .read fun h => h.close hs .refl fun _ h => h

theorem interfaceDeclaration_adds (hs : s.parts = []) :
    Production.interfaceDeclaration.Ensures scan.source limit (contract scan)
      (fun _ s' => Adds scan s (phr .interfaceDeclaration) s') s := by
  refine (Adds.refl s).step (.expect _) fun h => ?_
  refine h.step (.expect _) fun h => ?_
  refine h.step (.readAt _) fun h => ?_
  refine h.step (.readAfter _) fun h => ?_
  refine h.step permits_adds fun h => ?_
  exact h.step .read fun h => h.close hs .refl fun _ h => h

theorem enumDeclaration_adds (hs : s.parts = []) :
    Production.enumDeclaration.Ensures scan.source limit (contract scan)
      (fun _ s' => Adds scan s (phr .enumDeclaration) s') s := by
  refine (Adds.refl s).step (.expect _) fun h => ?_
  refine h.step (.expect _) fun h => ?_
  refine h.step (.readAfter _) fun h => ?_
  exact h.step .read fun h => h.close hs .refl fun _ h => h

theorem recordDeclaration_adds (hs : s.parts = []) :
    Production.recordDeclaration.Ensures scan.source limit (contract scan)
      (fun _ s' => Adds scan s (phr .recordDeclaration) s') s := by
  refine (Adds.refl s).step (.expectWord _) fun h => ?_
  refine h.step (.expect _) fun h => ?_
  refine h.step (.readAt _) fun h => ?_
  refine h.step .read fun h => ?_
  refine h.step (.readAfter _) fun h => ?_
  exact h.step .read fun h => h.close hs .refl fun _ h => h

theorem recordHeader_keeps : Keeps scan limit .recordHeader := .of_shape fun s hs => by
  refine (Adds.refl s).step (.expect _) fun h => ?_
  refine h.step (.optional (.separated _)) fun h => ?_
  exact h.step (.expect _) fun h => h.close hs .refl fun _ h => h

theorem recordComponent_keeps : Keeps scan limit .recordComponent := .of_shape fun s hs => by
  refine (Adds.refl s).step .read fun h => ?_
  refine h.step .read fun h => ?_
  refine h.step (.eat _) fun h => ?_
  exact h.step (.expect _) fun h => h.close hs .refl fun _ h => h

theorem annotationTypeDeclaration_adds (hs : s.parts = []) :
    Production.annotationTypeDeclaration.Ensures scan.source limit (contract scan)
      (fun _ s' => Adds scan s (phr .annotationTypeDeclaration) s') s := by
  refine (Adds.refl s).step (.expect _) fun h => ?_
  refine h.step (.expect _) fun h => ?_
  refine h.step (.expect _) fun h => ?_
  exact h.step .read fun h => h.close hs .refl fun _ h => h

/-! ### Members -/

theorem throws_adds : Adding scan limit Production.throws
    (behind .throwsKw (phr .qualifiedNameList)) := .readAfter _

theorem methodBody_adds : Adding scan limit Production.methodBody
    ((phr .block).alt (tok .semi)) :=
  .isAt fun _ => .ite (.readAs .left) (.mono (.expect _) .right)

theorem fieldDeclaration_adds (hs : s.parts = [])
    (hstarts : Ahead.startsAnnotation (scan.source.ahead s) = false) :
    Production.fieldDeclaration.Ensures scan.source limit (contract scan)
      (fun _ s' => Adds scan s (phr .fieldDeclaration) s') s := by
  refine .bind ((read_type hstarts).mono fun _ _ h => ?_)
  refine h.step .read fun h => ?_
  exact h.step (.expect _) fun h => h.close hs .refl fun _ h => h

/-- A method, behind type parameters and annotations or not. -/
theorem methodDeclaration_adds {s₀ : State} {row : Shape} (h : Adds scan s₀ row s)
    (hs₀ : s₀.parts = [])
    (hrow : Within row ((opt (phr .typeParameters)).andThen Phrase.annotations)) :
    Production.methodDeclaration.Ensures scan.source limit (contract scan)
      (fun _ s' => Adds scan s₀ (phr .methodDeclaration) s') s := by
  refine (h.mono hrow).step .read fun h => ?_
  refine h.step (.expect _) fun h => ?_
  refine h.step .read fun h => ?_
  refine h.step dims_adds fun h => ?_
  refine h.step throws_adds fun h => ?_
  exact h.step methodBody_adds fun h => h.close hs₀ .refl fun _ h => h

/-- A constructor, behind type parameters or not. -/
theorem constructorDeclaration_adds {s₀ : State} {row : Shape} (h : Adds scan s₀ row s)
    (hs₀ : s₀.parts = []) (hrow : Within row (opt (phr .typeParameters))) :
    Production.constructorDeclaration.Ensures scan.source limit (contract scan)
      (fun _ s' => Adds scan s₀ (phr .constructorDeclaration) s') s := by
  refine (h.mono hrow).step (.expect _) fun h => ?_
  refine h.step .read fun h => ?_
  refine h.step throws_adds fun h => ?_
  exact h.step .read fun h => h.close hs₀ .refl fun _ h => h

theorem elementDeclaration_adds (hs : s.parts = [])
    (hstarts : Ahead.startsAnnotation (scan.source.ahead s) = false) :
    Production.elementDeclaration.Ensures scan.source limit (contract scan)
      (fun _ s' => Adds scan s (phr .annotationMethodDeclaration) s') s := by
  refine .bind ((read_type hstarts).mono fun _ _ h => ?_)
  refine h.step (.expect _) fun h => ?_
  refine h.step (.expect _) fun h => ?_
  refine h.step (.expect _) fun h => ?_
  refine h.step dims_adds fun h => ?_
  refine h.step (.readAfter _) fun h => ?_
  exact h.step (.expect _) fun h => h.close hs .refl fun _ h => h

theorem typedMember_adds (setting : Setting) (hs : s.parts = [])
    (hstarts : Ahead.startsAnnotation (scan.source.ahead s) = false) :
    (Production.typedMember setting).Ensures scan.source limit (contract scan)
      (fun _ s' => Adds scan s (anyOf members) s') s := by
  refine .ahead fun width memo => ?_
  have hfield : Production.fieldDeclaration.Ensures scan.source limit (contract scan)
      (fun _ s' => Adds scan s (anyOf members) s') { s with memo } :=
    (fieldDeclaration_adds (s := { s with memo }) hs hstarts).mono fun _ _ h =>
      (h.congr rfl rfl rfl rfl).mono (.phrases (by decide))
  cases width with
  | none => exact hfield
  | some width =>
    show (if _ then _ else _ : Move Unit).Ensures ..
    split
    · exact hfield
    split
    · exact (elementDeclaration_adds (s := { s with memo }) hs hstarts).mono fun _ _ h =>
        (h.congr rfl rfl rfl rfl).mono (.phrases (by decide))
    · have hnone : Adds scan s nothing { s with memo } := (Adds.refl s).congr rfl rfl rfl rfl
      exact (methodDeclaration_adds hnone hs (.trans .none_many (.prepend .none))).mono
        fun _ _ h => h.mono (.phrases (by decide))

theorem compactConstructor_adds (hs : s.parts = [])
    (hkind : (scan.source.ahead s).isAt .identifier) :
    (do Move.take
        Move.read .block
        Move.close .compactConstructorDeclaration).Ensures scan.source limit (contract scan)
      (fun _ s' => Adds scan s (anyOf members) s') s := by
  refine .bind ((take_tok hkind).mono fun _ _ h => ?_)
  exact h.1.step .read fun h => h.close hs .refl fun _ h => h.mono (.phrases (by decide))

/-- A method or a constructor behind its type parameters. -/
theorem genericMember_adds (hs : s.parts = []) :
    (do Move.read .typeParameters
        let b ← Move.ahead
        if b.isAt .identifier && b.kindAt 1 == TokenKind.lparen then
          Production.constructorDeclaration
        else
          Move.read .annotations
          Production.methodDeclaration).Ensures scan.source limit (contract scan)
      (fun _ s' => Adds scan s (anyOf members) s') s := by
  refine (Adds.refl s).step .read fun h => ?_
  refine .ahead ?_
  split
  · exact (constructorDeclaration_adds h hs .present).mono fun _ _ h =>
      h.mono (.phrases (by decide))
  · exact h.step .read fun h =>
      (methodDeclaration_adds h hs (.andThen .present .refl)).mono fun _ _ h =>
        h.mono (.phrases (by decide))

theorem memberBody_keeps (setting : Setting) : Keeps scan limit (.memberBody setting) :=
  fun s hs hstarts => by
    have htype {kind : Phrase} (hkind : kind ∈ typeDeclarations) :
        Within (phr kind) (Rule.memberBody setting).shape := by
      cases setting with
      | outermost => exact .phrases (List.cons_subset.mpr ⟨hkind, List.nil_subset _⟩)
      | member | element | alone =>
        exact .phrases (List.cons_subset.mpr ⟨List.mem_append_left _ hkind, List.nil_subset _⟩)
    refine .ahead ?_
    split
    · exact (classDeclaration_adds hs).mono fun _ _ h => ⟨h.mono (htype (by decide)), trivial⟩
    split
    · exact (interfaceDeclaration_adds hs).mono fun _ _ h => ⟨h.mono (htype (by decide)), trivial⟩
    split
    · exact (enumDeclaration_adds hs).mono fun _ _ h => ⟨h.mono (htype (by decide)), trivial⟩
    split
    · exact (annotationTypeDeclaration_adds hs).mono fun _ _ h =>
        ⟨h.mono (htype (by decide)), trivial⟩
    split
    · exact (recordDeclaration_adds hs).mono fun _ _ h => ⟨h.mono (htype (by decide)), trivial⟩
    split
    · exact trivial
    have hmember {s' : State} (h : Adds scan s (anyOf members) s') :
        Adds scan s (Rule.memberBody setting).shape s' ∧
          (Rule.memberBody setting).Gives scan s s' := by
      cases setting with
      | outermost => exact absurd rfl ‹_›
      | member | element | alone => exact ⟨h, trivial⟩
    split
    · exact (genericMember_adds hs).mono fun _ _ h => hmember h
    · rename_i hkind
      split
      · exact (constructorDeclaration_adds (.refl s) hs .absent).mono fun _ _ h =>
          hmember (h.mono (.phrases (by decide)))
      split
      · exact (compactConstructor_adds hs (beq_iff_eq.mpr hkind)).mono fun _ _ h => hmember h
      · exact (typedMember_adds setting hs hstarts).mono fun _ _ h => hmember h
    · exact (methodDeclaration_adds (.refl s) hs (.trans .none_many (.prepend .none))).mono
        fun _ _ h => hmember (h.mono (.phrases (by decide)))
    · exact (typedMember_adds setting hs hstarts).mono fun _ _ h => hmember h

/-! ### Parameters and variables -/

/-- What the parameters of a method or of a lambda are. -/
def parameterKinds (ofLambda : Bool) : List Phrase := if ofLambda then lambdaParams else parameters

theorem mem_parameterKinds {ofLambda : Bool} {kind : Phrase} (h : kind ∈ parameters)
    (h' : ¬(ofLambda && some kind == some .receiverParameter) = true) :
    kind ∈ parameterKinds ofLambda := by
  cases ofLambda with
  | false => exact h
  | true =>
    rcases List.mem_cons.mp h with rfl | h
    · decide
    rcases List.mem_cons.mp h with rfl | h
    · decide
    · obtain rfl := List.mem_singleton.mp h
      exact absurd (by decide) h'

theorem parameterAndComma_adds (ofLambda : Bool) :
    Adding scan limit (Production.parameterAndComma ofLambda)
      (opt ((anyOf (parameterKinds ofLambda)).seq (opt (tok .comma)))) := fun s => by
  refine .ahead (Adds.step (.refl s) .read fun h => .ahead ?_)
  dsimp only
  split
  · trivial
  rename_i s₁ hlast
  have h : Adds scan s (anyOf (parameterKinds ofLambda)) s₁ := h.monoLast fun ts hts hlast' => by
    obtain ⟨t, rfl, ht⟩ := hts
    refine ⟨t, rfl, ?_⟩
    cases t with
    | leaf t => cases ht
    | node kind ps start stop =>
      rw [← hlast' _ rfl] at hlast
      exact List.contains_iff_mem.mpr (mem_parameterKinds (List.contains_iff_mem.mp ht) hlast)
  split
  · exact (h.mono (.append .none)).mono .present
  · exact h.last (.eat _) fun h => h.mono .present

theorem formalParameters_keeps (ofLambda : Bool) :
    Keeps scan limit (.formalParameters ofLambda) := .of_shape fun s hs => by
  refine (Adds.refl s).step (.expect _) fun h => ?_
  refine h.step (.optional (.loop (parameterAndComma_adds ofLambda))) fun h => ?_
  refine h.step (.expect _) fun h => ?_
  cases ofLambda with
  | false => exact h.close hs .refl fun _ h => h
  | true =>
    refine h.closeAs hs ?_ (fun _ _ _ hholds => hholds.fits_only (by decide) _ _) fun _ h => h
    exact .andThen (.andThen .refl (.alt .absent (.trans (.many (.seq (.phrases (by decide)) .refl))
      .present))) .refl

theorem receiver_adds : Adding scan limit
    (Move.loop do
      let b ← Move.ahead
      if b.isAt .identifier && b.kindAt 1 == .dot then
        Move.takeTwo
        return true
      else return false)
    (many ((tok .identifier).andThen (tok .dot))) := .loop fun s => by
  refine .ahead ?_
  split
  · exact .bind ((takeTwo_ensures ‹_›).mono fun _ _ h => h.mono .present)
  · exact (Adds.refl s).mono .absent

theorem formalParameter_keeps : Keeps scan limit .formalParameter := .of_shape fun s hs => by
  refine (Adds.refl s).step .read fun h => ?_
  refine h.step .read fun h => ?_
  refine h.step .read fun h => ?_
  refine .ahead ?_
  split
  · refine .bind ((take_tok ‹_›).mono fun _ _ h' => ?_)
    refine (h.trans h'.1).step (.expect _) fun h => ?_
    exact h.close hs .refl fun _ h => h.mono (.phrases (by decide))
  split
  · trivial
  -- The last phrase is no annotation, so there are none behind the type.
  rename_i hlast
  have h := h.monoLast fun ts hts hlast' =>
    hts.of_seq_many_phr (fun h => hlast (beq_iff_eq.mpr h)) hlast'
  split
  · refine .bind ((take_tok ‹_›).mono fun _ _ h' => ?_)
    exact ((h.mono (.append .many_nil)).trans h'.1).close hs .refl fun _ h =>
      h.mono (.phrases (by decide))
  split
  · refine h.step receiver_adds fun h => ?_
    refine h.step (.expect _) fun h => ?_
    exact h.close hs .refl fun _ h => h.mono (.phrases (by decide))
  · exact h.step .read fun h => h.close hs .refl fun _ h => h.mono (.phrases (by decide))

theorem variableDeclarators_keeps : Keeps scan limit .variableDeclarators :=
  .of_shape fun s hs => by
    exact (Adds.refl s).step (.separated _) fun h => h.close hs .refl fun _ h => h

theorem variableDeclarator_keeps : Keeps scan limit .variableDeclarator :=
  .of_shape fun s hs => by
    refine (Adds.refl s).step .read fun h => ?_
    exact h.step (.readAfter _) fun h => h.close hs .refl fun _ h => h

theorem variableDeclaratorId_keeps : Keeps scan limit .variableDeclaratorId :=
  .of_shape fun s hs => by
    refine (Adds.refl s).step (.expect _) fun h => ?_
    exact h.step dims_adds fun h => h.close hs .refl fun _ h => h

theorem variableInitializer_keeps : Keeps scan limit .variableInitializer :=
  .of_shape fun s _ => by
    refine .isAt ?_
    split
    · exact readAs_ensures (.phrases (by decide))
    · exact readAs_ensures (.phrases (by decide))

theorem arrayInitializer_keeps : Keeps scan limit .arrayInitializer := .of_shape fun s hs => by
  refine (Adds.refl s).nest fun h => ?_
  refine h.step (.expect _) fun h => ?_
  refine h.step .commasUpTo fun h => ?_
  exact h.step (.expect _) fun h => h.close hs .refl fun _ h => h

end JavaSource.Grammar
