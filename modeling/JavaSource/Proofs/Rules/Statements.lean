import JavaSource.Proofs.Rules.Declarations

/-!
# Rules for statements

Each rule adds the shape that the table gives it.  What a `try` was built of last tells whether it
has a handler; and a group of a switch block has no statements only where the block ends.
-/

namespace JavaSource.Grammar

open Shape Phrase

variable {scan : Scan} {limit : Nat} {s : State}

/-! ### Blocks -/

theorem block_keeps : Keeps scan limit .block := .of_shape fun s hs => by
  refine (Adds.refl s).step (.expect _) fun h => ?_
  refine h.step .readWhile fun h => ?_
  exact h.step (.expect _) fun h => h.close hs .refl fun _ h => h

theorem startsLocalType_adds : Adding scan limit Production.startsLocalType nothing :=
  .ahead fun _ => .ite (.pure _) (.ite (.attempt fun _ => .pure _) (.pure _))

theorem blockStatement_keeps : Keeps scan limit .blockStatement := .of_shape fun s hs => by
  refine .ahead ?_
  split
  · exact readAs_ensures .refl
  refine (Adds.refl s).skip startsLocalType_adds fun h => ?_
  split
  · exact h.step .read fun h => h.close hs .refl fun _ h => h.mono (.phrases (by decide))
  refine h.skip startsVariable_adds fun h => ?_
  split
  · refine h.step .read fun h => ?_
    exact h.step (.expect _) fun h => h.close hs .refl fun _ h => h.mono (.phrases (by decide))
  · exact h.last .read fun h => h

theorem localVariableDeclaration_keeps : Keeps scan limit .localVariableDeclaration :=
  .of_shape fun s hs => by
    refine (Adds.refl s).step .read fun h => ?_
    refine h.step .read fun h => ?_
    exact h.step .read fun h => h.close hs .refl fun _ h => h

theorem expressionStatement_adds (hs : s.parts = []) :
    Production.expressionStatement.Ensures scan.source limit (contract scan)
      (fun _ s' => Adds scan s (phr .expressionStatement) s') s := by
  refine (Adds.refl s).step .read fun h => ?_
  exact h.step (.expect _) fun h => h.close hs .refl fun _ h => h

theorem expressionStatement_keeps : Keeps scan limit .expressionStatement :=
  .of_shape fun _ hs => expressionStatement_adds hs

/-! ### Loops -/

theorem startsForEach_adds : Adding scan limit Production.startsForEach nothing :=
  .ahead fun _ => .after modifiedTypeWidth_adds fun _ => .pure _

theorem variablesOrExpressions_adds : Adding scan limit Production.variablesOrExpressions
    ((phr .localVariableDeclaration).alt (separated .comma expr)) :=
  .after startsVariable_adds fun _ => .ite (.readAs .left) (.mono (.separated _) .right)

theorem forInit_keeps : Keeps scan limit .forInit := .of_shape fun s hs =>
  (Adds.refl s).step variablesOrExpressions_adds fun h => h.close hs .refl fun _ h => h

theorem forUpdate_keeps : Keeps scan limit .forUpdate := .of_shape fun s hs =>
  (Adds.refl s).step (.separated _) fun h => h.close hs .refl fun _ h => h

theorem forStatement_adds (hs : s.parts = []) :
    Production.forStatement.Ensures scan.source limit (contract scan)
      (fun _ s' => Adds scan s stmt s') s := by
  refine (Adds.refl s).step (.expect _) fun h => ?_
  refine h.step (.expect _) fun h => ?_
  refine h.skip startsForEach_adds fun h => ?_
  split
  · refine h.step .read fun h => ?_
    refine h.step .read fun h => ?_
    refine h.step .read fun h => ?_
    refine h.step (.expect _) fun h => ?_
    refine h.step .read fun h => ?_
    refine h.step (.expect _) fun h => ?_
    exact h.step .read fun h => h.close hs .refl fun _ h => h.mono (.phrases (by decide))
  · refine h.step (.optional .read) fun h => ?_
    refine h.step (.expect _) fun h => ?_
    refine h.step (.optional .read) fun h => ?_
    refine h.step (.expect _) fun h => ?_
    refine h.step (.optional .read) fun h => ?_
    refine h.step (.expect _) fun h => ?_
    exact h.step .read fun h => h.close hs .refl fun _ h => h.mono (.phrases (by decide))

/-! ### Try -/

/-- Behind a block that is not the last thing built there is a handler. -/
theorem handled_holds {head : Shape} {ts : List Tree}
    (h : (((head.seq (phr .block)).seq (many (phr .catchClause))).seq
      (opt (phr .finallyClause))).Holds ts)
    (hlast : ∀ t, ts.getLast? = some t → t.phrase? ≠ some .block) :
    ((head.seq (phr .block)).seq (((several (phr .catchClause)).seq (opt (phr .finallyClause))).alt
      (phr .finallyClause))).Holds ts := by
  obtain ⟨us, vs, rfl, hus, hvs⟩ := h
  rcases hus.seq_many_phr with hus | ⟨-, hus⟩
  · rcases hvs with rfl | hvs
    · rw [List.append_nil] at hlast
      obtain ⟨t, ht, hphrase⟩ := hus.getLast_phr
      exact absurd hphrase (hlast t ht)
    · exact ⟨us, vs, rfl, hus, .inr hvs⟩
  · exact Within.seq .refl .left _ (Within.assoc _ ⟨us, vs, rfl, hus, hvs⟩)

theorem tryStatement_adds (hs : s.parts = []) :
    Production.tryStatement.Ensures scan.source limit (contract scan)
      (fun _ s' => Adds scan s stmt s') s := by
  refine (Adds.refl s).step (.expect _) fun h => .isAt ?_
  split
  · refine h.step .read fun h => ?_
    refine h.step .read fun h => ?_
    refine h.step .readWhile fun h => ?_
    refine h.step (.readAt _) fun h => ?_
    exact h.close hs .refl fun _ h => h.mono (.phrases (by decide))
  · refine h.step .read fun h => ?_
    refine h.step .readWhile fun h => ?_
    refine h.step (.readAt _) fun h => ?_
    refine .ahead ?_
    split
    · trivial
    rename_i hlast
    have h := h.monoLast fun ts hts hlast' => handled_holds hts fun t ht hphrase =>
      hlast (beq_iff_eq.mpr ((hlast' t ht).symm.trans hphrase))
    exact h.close hs .refl fun _ h => h.mono (.phrases (by decide))

theorem finallyClause_keeps : Keeps scan limit .finallyClause := .of_shape fun s hs => by
  refine (Adds.refl s).step (.expect _) fun h => ?_
  exact h.step .read fun h => h.close hs .refl fun _ h => h

theorem resourceAndSemi_adds : Adding scan limit
    (do Move.read .resource
        if ← Move.eat .semi then return !(← Move.isAt .rparen) else return false)
    ((phr .resource).andThen (opt (tok .semi))) := .bind .read fun _ s => by
  refine .bind ((Adding.eat .semi s).mono fun eaten _ h => ?_)
  cases eaten with
  | true => exact h
  | false => exact h

theorem resourceSpecification_keeps : Keeps scan limit .resourceSpecification :=
  .of_shape fun s hs => by
    refine (Adds.refl s).step (.expect _) fun h => ?_
    refine h.step (.loopSeveral resourceAndSemi_adds rfl) fun h => ?_
    exact h.step (.expect _) fun h => h.close hs .refl fun _ h => h

theorem variableOrName_adds : Adding scan limit Production.variableOrName
    ((all [opt (phr .modifiers), phr .type, phr .variableDeclarator]).alt (phr .qualifiedName)) :=
  .after startsVariable_adds fun _ => .ite
    (.mono (.bind .read fun _ => .bind .read fun _ => .read) (.trans .assoc' .left))
    (.readAs .right)

theorem resource_keeps : Keeps scan limit .resource := .of_shape fun s hs =>
  (Adds.refl s).step variableOrName_adds fun h => h.close hs .refl fun _ h => h

theorem resourceVariable_keeps : Keeps scan limit .resourceVariable := .of_shape fun s hs => by
  refine (Adds.refl s).step .read fun h => ?_
  refine h.step (.expect _) fun h => ?_
  refine h.step .read fun h => ?_
  exact h.close hs (.trans .assoc (.seq .refl (.trans (.seq .refl (.phrases (by decide)))
    .present))) fun _ h => h

theorem catchClause_keeps : Keeps scan limit .catchClause := .of_shape fun s hs => by
  refine (Adds.refl s).step (.expect _) fun h => ?_
  refine h.step (.expect _) fun h => ?_
  refine h.step .read fun h => ?_
  refine h.step .read fun h => ?_
  refine h.step (.expect _) fun h => ?_
  refine h.step (.expect _) fun h => ?_
  exact h.step .read fun h => h.close hs .refl fun _ h => h

theorem catchType_keeps : Keeps scan limit .catchType := .of_shape fun s hs =>
  (Adds.refl s).step (.separated _) fun h => h.close hs .refl fun _ h => h

/-! ### Switch -/

theorem expectLabel_ensures : Production.expectLabel.Ensures scan.source limit (contract scan)
    (fun _ s' => s' = s ∧ Production.startsLabel (scan.source.ahead s)) s := by
  show (if (!Production.startsLabel (scan.source.ahead s)) = true then _ else _ :
    Move Unit).Ensures ..
  split
  · trivial
  · rename_i hlabel
    exact ⟨rfl, by simpa using hlabel⟩

theorem not_startsLabel {a : Ahead} (h : Production.isInBody a = false) :
    Production.startsLabel a = false := by
  cases hlabel : Production.startsLabel a with
  | false => rfl
  | true =>
    rcases (Bool.or_eq_true ..).mp hlabel with hkind | hkind <;>
      simp [Production.isInBody, Ahead.isAt, beq_iff_eq.mp hkind] at h

/-- Only the last group of a block has no statements: behind it no label starts. -/
theorem switchEntries_adds : Adding scan limit
    (Move.readWhile (!·.isAt .rbrace) .switchEntry)
    ((many ((phr .switchRule).alt fullGroup)).seq (opt emptyGroup)) := fun s => by
  refine .loop (fun s₁ => Adds scan s (many ((phr .switchRule).alt fullGroup)) s₁ ∨
    Adds scan s ((many ((phr .switchRule).alt fullGroup)).seq emptyGroup) s₁ ∧
      Production.isInBody (scan.source.ahead s₁) = false) (.inl ((Adds.refl s).mono .none_many))
    (fun s₁ hs₁ => ?_) fun s₁ hs₁ => ?_
  · show (if (!(scan.source.ahead s₁).isAt .rbrace) = true then _ else _ : Move Bool).Ensures ..
    split
    · refine .bind (read_ensures trivial fun s₂ _ hgives => ?_)
      obtain ⟨hlabel, hentry⟩ := hgives
      rcases hs₁ with hs₁ | ⟨-, hbody⟩
      · rcases hentry with hentry | ⟨hentry, hbody⟩
        · exact .inl ((hs₁.trans hentry.lift).mono .many_again)
        · exact .inr ⟨hs₁.trans hentry.lift, (sees_congr rfl fun _ _ => rfl).trans hbody⟩
      · exact absurd (hlabel.symm.trans ((not_startsLabel hbody :))) nofun
    · exact hs₁
  · rcases hs₁ with hs₁ | ⟨hs₁, -⟩
    · exact hs₁.mono (.append .none)
    · exact hs₁.mono (.seq .refl .present)

theorem switchBlock_keeps : Keeps scan limit .switchBlock := .of_shape fun s hs => by
  refine (Adds.refl s).step (.expect _) fun h => ?_
  refine h.step switchEntries_adds fun h => ?_
  exact h.step (.expect _) fun h => h.close hs (.seq .assoc' .refl) fun _ h => h

theorem ruleBody_adds : Adding scan limit Production.ruleBody stmt := fun s => by
  refine .ahead ?_
  split
  · exact readAs_ensures (.phrases (by decide))
  · exact readAs_ensures .refl
  · exact readAs_ensures (.phrases (by decide))

theorem moreLabels_ensures :
    (Move.loop do
      if Production.startsLabel (← Move.ahead) then
        Move.read .switchLabel
        Move.expect .colon
        return true
      else return false).Ensures scan.source limit (contract scan)
      (fun _ s' => Adds scan s (many ((phr .switchLabel).andThen (tok .colon))) s' ∧
        Production.startsLabel (scan.source.ahead s') = false) s := by
  refine .loopWhile (fun s₁ => Adds scan s (many ((phr .switchLabel).andThen (tok .colon))) s₁)
    ((Adds.refl s).mono .none_many) fun s₁ hs₁ => ?_
  show (if Production.startsLabel (scan.source.ahead s₁) = true then _ else _ :
    Move Bool).Ensures ..
  split
  · refine (Adds.refl s₁).step .read fun h => ?_
    exact h.step (.expect _) fun h => ⟨h.lt rfl, (hs₁.trans h).mono .many_again⟩
  · exact ⟨hs₁, Bool.eq_false_iff.mpr ‹_›⟩

/-- Where statements are missing the body has come to its end. -/
theorem groupBody_ensures (hlabel : Production.startsLabel (scan.source.ahead s) = false) :
    (Move.readWhile (fun a => Production.isInBody a && !Production.startsLabel a)
        .blockStatement).Ensures scan.source limit (contract scan)
      (fun _ s' => Adds scan s (several stmt) s' ∨
        s' = s ∧ Production.isInBody (scan.source.ahead s) = false) s := by
  refine .loopWhile (fun s₁ => s₁ = s ∨ Adds scan s (several stmt) s₁) (.inl rfl) fun s₁ hs₁ => ?_
  show (if (Production.isInBody (scan.source.ahead s₁) &&
    !Production.startsLabel (scan.source.ahead s₁)) = true then _ else _ : Move Bool).Ensures ..
  split
  · refine .bind ((Adding.ensures .read s₁).mono fun _ s₂ h => ⟨h.lt rfl, .inr ?_⟩)
    rcases hs₁ with rfl | hs₁
    · exact h.mono .one_several
    · exact (hs₁.trans h).mono .several_again
  · rename_i hmore
    rcases hs₁ with rfl | hs₁
    · rw [hlabel, Bool.not_false, Bool.and_true, Bool.not_eq_true] at hmore
      exact .inr ⟨rfl, hmore⟩
    · exact .inl hs₁

theorem switchEntry_keeps : Keeps scan limit .switchEntry := fun s hs _ => by
  refine .bind (expectLabel_ensures.mono fun _ s₁ ⟨hs₁, hlabel⟩ => ?_)
  subst hs₁
  refine (Adds.refl s₁).step .read fun {_ s₂} h => ?_
  refine .bind ((eat_ensures .arrow).mono fun eaten s₃ h' => ?_)
  cases eaten with
  | true =>
    refine (h.trans h').step ruleBody_adds fun h => ?_
    exact h.close hs .refl fun _ h =>
      ⟨h.mono (.phrases (by decide)), hlabel, .inl (h.mono .left)⟩
  | false =>
    obtain rfl : s₃ = s₂ := h'
    refine h.step (.expect _) fun h => ?_
    refine .bind (moreLabels_ensures.mono fun _ s₄ ⟨h', hlabels⟩ => ?_)
    refine .bind ((groupBody_ensures hlabels).mono fun _ s₅ h'' => ?_)
    rcases h'' with h'' | ⟨rfl, hbody⟩
    · refine ((h.trans h').trans h'').closeAs (i := .holding .switchGroup statements) hs
        (.andThen .refl .several_many) (fun _ _ _ hholds => hholds.fits_holding rfl _ _) ?_
      intro s' _ h
      exact ⟨h.mono (.holding_phrases (by decide)), hlabel, .inl (h.mono .right)⟩
    · refine (h.trans h').closeAs (i := .only .switchGroup [.switchLabel]) hs
        (.append .many_nil) (fun _ _ _ hholds => hholds.fits_only (by decide) _ _) ?_
      intro s' hread h
      exact ⟨h.mono (.only_phrases (by decide)), hlabel,
        .inr ⟨h, (sees_congr hread fun _ _ => rfl).trans hbody⟩⟩

theorem bareLabel_adds : Adding scan limit Production.bareLabel Phrase.switchLabel.shape :=
  fun s => by
    refine .bind ((eat_ensures .defaultKw).mono fun eaten s₁ h => ?_)
    cases eaten with
    | true => exact Adds.mono h .left
    | false =>
      obtain rfl : s₁ = s := h
      refine (Adds.refl s₁).step (.expect _) fun h => ?_
      exact h.last (.separated _) fun h => h.mono .right

theorem switchLabel_keeps : Keeps scan limit .switchLabel := .of_shape fun s hs =>
  (Adds.refl s).step bareLabel_adds fun h => h.close hs .refl fun _ h => h

theorem caseItem_keeps : Keeps scan limit .caseItem := .of_shape fun s hs => by
  refine (Adds.refl s).skip .tried fun h => ?_
  split
  · refine h.step .read fun h => .ahead ?_
    split
    · rename_i hguard
      rcases (Bool.or_eq_true ..).mp hguard with hguard | hguard
      · refine h.stepWord hguard fun h => h.step .read fun h => ?_
        exact h.close hs (.andThen (.andThen .refl .left) operand_within_expr) fun _ h =>
          h.mono (.phrases (by decide))
      · refine h.stepTok (beq_iff_eq.mp hguard) fun h => h.step .read fun h => ?_
        exact h.close hs (.andThen (.andThen .refl .right) operand_within_expr) fun _ h =>
          h.mono (.phrases (by decide))
    · exact h.mono (.phrases (by decide))
  · exact h.last .read fun h => h.mono (.phrases (by decide))

theorem pattern_keeps : Keeps scan limit .pattern := .of_shape fun s hs => by
  refine (Adds.refl s).step .read fun h => ?_
  refine h.step .read fun h => ?_
  exact h.step (.expect _) fun h => h.close hs .refl fun _ h => h

/-! ### Any statement -/

/-- A statement that starts with a token, as a phrase of its own. -/
theorem Adds.closeStatement {s₀ : State} {row : Shape} {kind : Phrase} (h : Adds scan s₀ row s)
    (hs₀ : s₀.parts = []) (hrow : Within row kind.shape) (hkind : kind ∈ statements) :
    (Move.close kind).Ensures scan.source limit (contract scan)
      (fun _ s' => Adds scan s₀ stmt s') s :=
  h.close hs₀ hrow fun _ h => h.mono (.phrases (List.cons_subset.mpr ⟨hkind, List.nil_subset _⟩))

/-- Moves behind a condition. -/
theorem Adds.stepCondition {s₀ : State} {row : Shape} {f : Unit → Move Unit}
    {Q : Unit → State → Prop} (h : Adds scan s₀ row s)
    (hnext : ∀ {s'}, Adds scan s₀ (((row.andThen (tok .lparen)).andThen expr).andThen
      (tok .rparen)) s' → (f ()).Ensures scan.source limit (contract scan) Q s') :
    (Production.condition >>= f).Ensures scan.source limit (contract scan) Q s :=
  .bind (h.step (.expect _) fun h => h.step .read fun h => h.last (.expect _) fun h => hnext h)

theorem Adds.closeJump {s₀ : State} {row : Shape} {kind : Phrase} {word : TokenKind}
    (h : Adds scan s₀ row s) (hword : (scan.source.ahead s).kind = word) (hs₀ : s₀.parts = [])
    (hrow : Within (((row.andThen (tok word)).andThen (opt (tok .identifier))).andThen (tok .semi))
      kind.shape) (hkind : kind ∈ statements) :
    (Production.jump kind).Ensures scan.source limit (contract scan)
      (fun _ s' => Adds scan s₀ stmt s') s :=
  h.stepTok hword fun h => h.step (.eat _) fun h => h.step (.expect _) fun h =>
    h.closeStatement hs₀ hrow hkind

theorem statement_keeps : Keeps scan limit .statement := .of_shape fun s hs => by
  refine .nest ?_
  have h : Adds scan s nothing { s with depth := s.depth + 1 } :=
    (Adds.refl s).congr rfl rfl rfl rfl
  have hs₁ : ({ s with depth := s.depth + 1 } : State).parts = [] := hs
  generalize ({ s with depth := s.depth + 1 } : State) = s₁ at h hs₁
  refine .ahead ?_
  split
  · exact h.last (.readAs (.phrases (by decide))) fun h => h
  · exact h.stepTok ‹_› fun h => h.closeStatement hs .refl (by decide)
  · refine h.stepTok ‹_› fun h => h.stepCondition fun h => ?_
    refine h.step .read fun h => ?_
    exact h.step (.readAfter _) fun h => h.closeStatement hs .refl (by decide)
  · refine h.stepTok ‹_› fun h => ?_
    refine h.step .read fun h => ?_
    refine h.step (.readAfter _) fun h => ?_
    exact h.step (.expect _) fun h => h.closeStatement hs .refl (by decide)
  · refine h.stepTok ‹_› fun h => h.stepCondition fun h => ?_
    exact h.step .read fun h => h.closeStatement hs .refl (by decide)
  · refine h.stepTok ‹_› fun h => h.stepCondition fun h => ?_
    exact h.step .read fun h => h.closeStatement hs .refl (by decide)
  · refine h.stepTok ‹_› fun h => ?_
    refine h.step .read fun h => ?_
    refine h.step (.expect _) fun h => h.stepCondition fun h => ?_
    exact h.step (.expect _) fun h => h.closeStatement hs .refl (by decide)
  · exact (forStatement_adds hs₁).mono fun _ _ h' => h.trans h'
  · exact h.closeJump ‹_› hs .refl (by decide)
  · exact h.closeJump ‹_› hs .refl (by decide)
  · refine h.stepTok ‹_› fun h => ?_
    refine h.step (.optional .read) fun h => ?_
    exact h.step (.expect _) fun h => h.closeStatement hs .refl (by decide)
  · refine h.stepTok ‹_› fun h => ?_
    refine h.step .read fun h => ?_
    exact h.step (.expect _) fun h => h.closeStatement hs .refl (by decide)
  · refine h.stepTok ‹_› fun h => h.stepCondition fun h => ?_
    exact h.step .read fun h => h.closeStatement hs .refl (by decide)
  · exact (tryStatement_adds hs₁).mono fun _ _ h' => h.trans h'
  · split
    · rename_i hyield
      refine h.stepWord ((Bool.and_eq_true ..).mp hyield).1 fun h => ?_
      refine h.step .read fun h => ?_
      exact h.step (.expect _) fun h => h.closeStatement hs .refl (by decide)
    split
    · refine .bind ((takeTwo_ensures ‹_›).mono fun _ _ h' => ?_)
      refine (h.trans h').step .read fun h => ?_
      exact h.closeStatement hs .refl (by decide)
    · exact (expressionStatement_adds hs₁).mono fun _ _ h' =>
        (h.trans h').mono (.phrases (by decide))

theorem statementStart_keeps : Keeps scan limit .statementStart := fun s hs _ =>
  (Adds.refl s).step .read fun h => h.closeWhole hs .refl

end JavaSource.Grammar
