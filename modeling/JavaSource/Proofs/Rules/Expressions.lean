import JavaSource.Proofs.Rules.Statements

/-!
# Rules for expressions

Each rule adds the shape that the table gives it.  A chain of operators or of selectors is one
operand before each step and one after it, so a loop over such steps is entered with an operand and
keeps it.  The operator that comes next is never tighter than the operand so far (`IsLeft`).
-/

namespace JavaSource.Grammar

open Shape Phrase

variable {scan : Scan} {limit : Nat} {s s₀ : State} {row : Shape}

/-- An expression of one kind, as one of some kinds. -/
theorem Adds.closeAny {kind : Phrase} {kinds : List Phrase} (h : Adds scan s₀ row s)
    (hs₀ : s₀.parts = []) (hrow : Within row kind.shape) (hkind : kind ∈ kinds) :
    (Move.close kind).Ensures scan.source limit (contract scan)
      (fun _ s' => Adds scan s₀ (anyOf kinds) s') s :=
  h.close hs₀ hrow fun _ h => h.mono (.phrases (List.cons_subset.mpr ⟨hkind, List.nil_subset _⟩))

theorem mem_assignments {k : TokenKind} (h : k.isAssignment) : k ∈ assignments := by
  cases k <;> first | decide | cases h

theorem expression_keeps : Keeps scan limit .expression := .of_shape fun s hs => by
  refine (Adds.refl s).nest fun h => .ahead ?_
  split
  · exact h.last (.readAs (.phrases (by decide))) fun h => h
  · refine h.step .read fun h => .ahead ?_
    split
    · refine .bind ((take_oneOf (mem_assignments ‹_›)).mono fun _ _ h' => ?_)
      refine (h.trans h'.1).step .read fun h => ?_
      exact h.closeAny hs .refl (by decide)
    · exact Adds.mono h operand_within_expr

theorem expressionStart_keeps : Keeps scan limit .expressionStart := fun s hs _ =>
  (Adds.refl s).step .read fun h => h.closeWhole hs .refl

/-! ### Lambdas -/

theorem lambdaBody_adds : Adding scan limit Production.lambdaBody (anyOf (.block :: expressions)) :=
  .isAt fun _ => .ite (.readAs (.phrases (by decide))) (.readAs (.phrases (by decide)))

theorem lambda_keeps : Keeps scan limit .lambda := .of_shape fun s hs => by
  refine (Adds.refl s).step .read fun h => ?_
  refine h.step (.expect _) fun h => ?_
  exact h.step lambdaBody_adds fun h => h.closeAny hs .refl (by decide)

theorem names_adds : Adding scan limit
    (Move.loop do
      if ← Move.isAt .rparen then return false
      else
        Move.expect .identifier
        Move.eat .comma)
    (listed .comma (tok .identifier)) := .loop fun s => by
  refine .isAt ?_
  split
  · exact (Adds.refl s).mono .absent
  · refine (Adds.refl s).step (.expect _) fun h => ?_
    exact h.last (.eat _) fun h => h.mono .present

theorem namesOrParameters_adds : Adding scan limit Production.namesOrParameters
    Phrase.lambdaParameters.shape := fun s => by
  refine .ahead ?_
  split
  · exact (take_tok ‹_›).mono fun _ _ h => h.1.mono .left
  split
  · refine (Adds.refl s).step (.expect _) fun h => ?_
    refine h.step names_adds fun h => ?_
    exact h.last (.expect _) fun h => h.mono (.trans .left .right)
  · exact readAs_ensures (.trans .right .right)

theorem lambdaParameters_keeps : Keeps scan limit .lambdaParameters := .of_shape fun s hs =>
  (Adds.refl s).step namesOrParameters_adds fun h => h.close hs .refl fun _ h => h

/-! ### Operators -/

theorem alternative_adds : Adding scan limit Production.alternative (operand .ternary) :=
  .ahead fun _ => .ite (.readAs (.phrases (by decide))) (.nest .read)

theorem ternary_keeps : Keeps scan limit .ternary := .of_shape fun s hs => by
  refine (Adds.refl s).step .read fun {_ s₁} h => ?_
  refine .bind ((eat_ensures .question).mono fun eaten s₂ h' => ?_)
  cases eaten with
  | true =>
    refine (h.trans h').step .read fun h => ?_
    refine h.step (.expect _) fun h => ?_
    exact h.step alternative_adds fun h => h.closeAny hs .refl (by decide)
  | false =>
    obtain rfl : s₂ = s₁ := h'
    exact Adds.mono h (operand_within (by decide))

theorem level_phrase (layer : Layer) : layer.phrase.level.rank = layer.rank + 2 := by
  cases layer <;> rfl

theorem rank_le_multiplicative (layer : Layer) : layer.rank ≤ Layer.multiplicative.rank := by
  cases layer <;> decide

/-- The layer of the operator that comes next. -/
def nextLayer? (scan : Scan) (s : State) : Option Layer :=
  Layer.ofOperator (scan.source.ahead s).operator.1

theorem nextLayer?_congr (h : s'.read = s.read) : nextLayer? scan s' = nextLayer? scan s :=
  sees_congr (f := fun a => Layer.ofOperator a.operator.1) h fun _ _ => rfl

/-- Behind the right operand of an operator no tighter operator stands. -/
theorem rightOperand_ensures (layer : Layer) :
    (Production.rightOperand layer).Ensures scan.source limit (contract scan)
      (fun _ s' => Adds scan s (operand layer.phrase.level.next) s' ∧
        ∀ next, nextLayer? scan s' = some next → next.rank ≤ layer.rank) s := by
  cases layer with
  | multiplicative => exact read_ensures trivial fun _ h _ =>
      ⟨h.lift.mono (operand_within (by decide)), fun next _ => rank_le_multiplicative next⟩
  | _ => exact read_ensures trivial fun _ h hnext =>
      ⟨h.lift, fun next h' => Nat.le_of_lt_succ (hnext next h')⟩

/-- An operator of one symbol is that symbol. -/
theorem kind_of_operator {a : Ahead} {op : TokenKind} (h : a.operator = (op, 1)) :
    a.kind = op := by
  unfold Ahead.operator at h
  split at h
  · exact (Prod.mk.inj h).1
  · rename_i hkind
    split at h
    · rw [Bool.not_eq_true, bne_eq_false_iff_eq] at hkind
      exact hkind.trans (Prod.mk.inj h).1
    split at h
    · cases h
    · cases h

theorem operatorToken_ensures {op : TokenKind} {width : Nat}
    (hop : (scan.source.ahead s).operator = (op, width)) :
    (Production.operatorToken op width).Ensures scan.source limit (contract scan)
      (fun _ s' => Adds scan s (tok op) s') s := by
  unfold Production.operatorToken
  split
  · obtain rfl : width = 1 := beq_iff_eq.mp ‹_›
    exact (take_tok (beq_iff_eq.mpr (kind_of_operator hop))).mono fun _ _ h => h.1
  · rename_i hwidth
    have hwidth : width ≠ 1 := fun h => hwidth (beq_iff_eq.mpr h)
    intro t ht
    have hread := (Scan.split_joined hop hwidth ht).2.2.1
    exact ⟨Nat.lt_of_lt_of_eq hread scan.size_tokens.symm, .joined hop hwidth ht⟩

/-- What a layer builds has the operator between two operands. -/
theorem layer_shape {op : TokenKind} {layer : Layer} (h : Layer.ofOperator op = some layer)
    (hop : op ≠ .instanceOfKw) :
    Within (all [operand layer.phrase.level, tok op, operand layer.phrase.level.next])
      layer.phrase.shape := by
  cases op <;> first
    | cases h
      done
    | exact absurd rfl hop
    | cases h
      exact .seq (.seq .refl (.tokens (by decide))) .refl

theorem patternOrType_adds : Adding scan limit Production.patternOrType
    (anyOf [.pattern, .type]) :=
  .attempt fun _ => .ite (.readAs (.phrases (by decide))) (.readAs (.phrases (by decide)))

theorem operand_needs (l : Level) :
    (operand l).needs fun i => !i.kinds.contains .compilationUnit := by
  cases l <;> decide

theorem layer_mem (layer : Layer) : layer.phrase ∈ operands layer.phrase.level := by
  cases layer <;> decide

/-- From one state to another a left operand has come up: it is not too loose to be a part of the
loosest layer, nor to be the left operand of the operator that comes next. -/
def IsLeft (scan : Scan) (loosest : Layer) (s₀ s : State) : Prop :=
  ∃ level, Adds scan s₀ (operand level) s ∧ loosest.phrase.level.rank ≤ level.rank ∧
    ∀ next, nextLayer? scan s = some next → next.phrase.level.rank ≤ level.rank

/-- Any operator may follow an operand that is tight enough. -/
theorem IsLeft.of_tight {loosest : Layer} {level : Level} (h : Adds scan s₀ (operand level) s)
    (hlevel : Level.multiplicative.rank ≤ level.rank) : IsLeft scan loosest s₀ s := by
  have hle (layer : Layer) : layer.phrase.level.rank ≤ level.rank := by
    have hlayer := rank_le_multiplicative layer
    rw [level_phrase]
    exact Nat.le_trans (Nat.add_le_add_right hlayer 2) hlevel
  exact ⟨level, h, hle loosest, fun next _ => hle next⟩

theorem operation_ensures {loosest layer : Layer} {op : TokenKind} {width : Nat}
    (h : Adds scan s₀ (operand layer.phrase.level) s) (hs₀ : s₀.parts = [])
    (hop : (scan.source.ahead s).operator = (op, width))
    (hlayer : Layer.ofOperator op = some layer) (hloosest : loosest.rank ≤ layer.rank) :
    (Production.operation layer op width).Ensures scan.source limit (contract scan)
      (fun _ s' => s.read < s'.read ∧ IsLeft scan loosest s₀ s') s := by
  refine .nest (.bind ((operatorToken_ensures (s := { s with depth := s.depth + 1 }) hop).mono
    fun _ s₁ h₁ => ?_))
  have hlt : s.read < s₁.read := h₁.lt rfl
  have h : Adds scan s₀ ((operand layer.phrase.level).seq (tok op)) s₁ :=
    h.trans (h₁.congr rfl rfl rfl rfl)
  split
  · obtain rfl := beq_iff_eq.mp ‹_›
    refine .bind ((patternOrType_adds s₁).mono fun _ s₂ h₂ => ?_)
    refine ((h.trans h₂).mono (.seq (.seq operand_within_expr .refl) .refl)).close hs₀ .refl
      fun hread h => ⟨hread ▸ Nat.lt_trans hlt (h₂.lt rfl), ?_⟩
    have hoperand : Adds scan s₀ (operand .multiplicative) _ := h.mono (.phrases (by decide))
    exact .of_tight hoperand (Nat.le_refl _)
  · rename_i hne
    refine .bind ((rightOperand_ensures layer).mono fun _ s₂ ⟨h₂, hnext⟩ => ?_)
    refine (h.trans h₂).close hs₀ (layer_shape hlayer fun he => hne (beq_iff_eq.mpr he))
      fun hread h => ⟨hread ▸ Nat.lt_trans hlt (h₂.lt (operand_needs _)), ?_⟩
    refine ⟨layer.phrase.level, h.mono (.phrases ?_), ?_, fun next h' => ?_⟩
    · exact List.cons_subset.mpr ⟨layer_mem layer, List.nil_subset _⟩
    · rw [level_phrase, level_phrase]
      exact Nat.add_le_add_right hloosest 2
    · rw [level_phrase, level_phrase]
      exact Nat.add_le_add_right (hnext next (nextLayer?_congr hread ▸ h')) 2

theorem binary_keeps (loosest : Layer) : Keeps scan limit (.binary loosest) := fun s hs _ => by
  refine (Adds.refl s).step .read fun h => ?_
  refine .loopWhile (IsLeft scan loosest s) (.of_tight h (by decide))
    fun s₁ ⟨level, h, hloosest, hnext⟩ => .ahead ?_
  have hadds : Adds scan s (operand loosest.phrase.level) s₁ := h.mono (operand_within hloosest)
  split
  rename_i op width hop
  have hlayer : nextLayer? scan s₁ = Layer.ofOperator op := by rw [nextLayer?, hop]
  split
  · rename_i hnone
    exact ⟨hadds, fun next h' => nomatch hnone.symm.trans (hlayer.symm.trans h')⟩
  · rename_i layer hsome
    have hlayer := hlayer.trans hsome
    split
    · rename_i hlt
      exact ⟨hadds, fun next h' => Option.some.inj (hlayer.symm.trans h') ▸ hlt⟩
    · rename_i hge
      exact .bind (operation_ensures (h.mono (operand_within (hnext layer hlayer))) hs hop hsome
        (Nat.not_lt.mp hge))

theorem startsCast_adds : Adding scan limit Production.startsCast nothing :=
  .ahead fun _ => .attempt fun width => by
    cases width with
    | none => exact .pure _
    | some width => exact .ite (.pure _) (.pure _)

theorem castHead_keeps : Keeps scan limit .castHead := .of_shape fun s _ => by
  refine (Adds.refl s).step (.expect _) fun h => ?_
  refine h.step (.separated _) fun h => ?_
  exact h.last (.expect _) fun h => h

theorem castOperand_adds : Adding scan limit Production.castOperand expr :=
  .ahead fun _ => .ite (.readAs (.phrases (by decide))) (.readAs operand_within_expr)

theorem prefixed_ensures (h : Adds scan s₀ nothing s) (hs₀ : s₀.parts = [])
    (hkind : (scan.source.ahead s).kind ∈ [.inc, .dec, .add, .sub, .tilde, .bang]) :
    (do Move.take
        Move.read .unary
        Move.close .prefixed).Ensures scan.source limit (contract scan)
      (fun _ s' => Adds scan s₀ (operand .unary) s') s := by
  refine .bind ((take_oneOf hkind).mono fun _ _ h' => ?_)
  exact (h.trans h'.1).step .read fun h => h.closeAny hs₀ .refl (by decide)

theorem unary_keeps : Keeps scan limit .unary := .of_shape fun s hs => by
  refine (Adds.refl s).nest fun h => .ahead ?_
  split
  iterate 6 exact prefixed_ensures h hs (by simp [*])
  · refine h.skip startsCast_adds fun h => ?_
    split
    · refine h.step .read fun h => ?_
      exact h.step castOperand_adds fun h => h.closeAny hs .refl (by decide)
    · exact h.last .read fun h => Adds.mono h (operand_within (by decide))
  · exact h.last .read fun h => Adds.mono h (operand_within (by decide))

/-! ### Selectors -/

theorem nameOrNew_adds : Adding scan limit Production.nameOrNew
    ((tok .newKw).alt (tok .identifier)) := fun s => by
  refine .ahead ?_
  split
  · rename_i hkind
    rcases (Bool.or_eq_true ..).mp hkind with hkind | hkind
    · exact (take_tok hkind).mono fun _ _ h => h.1.mono .left
    · exact (take_tok hkind).mono fun _ _ h => h.1.mono .right
  · trivial

theorem methodReference_ensures (h : Adds scan s₀ row s) (hs₀ : s₀.parts = [])
    (hrow : Within row (anyOf (.type :: expressions))) :
    Production.methodReference.Ensures scan.source limit (contract scan)
      (fun _ s' => Adds scan s₀ (operand .primary) s') s := by
  refine (h.mono hrow).step (.expect _) fun h => ?_
  refine h.step (.readAt _) fun h => ?_
  exact h.step nameOrNew_adds fun h => h.closeAny hs₀ .refl (by decide)

theorem selectors_ensures (hs₀ : s₀.parts = []) (h : Adds scan s₀ (operand .primary) s) :
    (Move.loop do
      match (← Move.ahead).kind with
      | .dot =>
        Move.nest
        Move.take
        Move.read .selected
        Move.close .memberAccess
        return true
      | .lbrack =>
        Move.nest
        Move.take
        Move.read .expression
        Move.expect .rbrack
        Move.close .arrayAccess
        return true
      | .colonColon =>
        Move.nest
        Production.methodReference
        return true
      | _ => return false).Ensures scan.source limit (contract scan)
      (fun _ s' => Adds scan s₀ (operand .primary) s') s := by
  refine .loop (fun s₁ => Adds scan s₀ (operand .primary) s₁) h (fun s₁ h => .ahead ?_) fun _ h => h
  split
  · refine h.nestTok ‹_› fun h => ?_
    exact h.step .read fun h => .bind (h.closeAny hs₀ .refl (by decide))
  · refine h.nestTok ‹_› fun h => ?_
    refine h.step .read fun h => ?_
    exact h.step (.expect _) fun h => .bind (h.closeAny hs₀ .refl (by decide))
  · exact h.nest fun h => .bind (methodReference_ensures h hs₀ (.phrases (by decide)))
  · exact h

theorem postfixed_keeps : Keeps scan limit .postfixed := .of_shape fun s hs => by
  refine (Adds.refl s).step .read fun h => ?_
  refine .bind ((selectors_ensures hs h).mono fun _ s₁ h => ?_)
  refine .loop (fun s₂ => Adds scan s (operand .post) s₂) (h.mono (operand_within (by decide)))
    (fun s₂ h => .ahead ?_) fun _ h => h
  split
  · rename_i hkind
    have hmem : (scan.source.ahead s₂).kind ∈ [.inc, .dec] := by
      rcases (Bool.or_eq_true ..).mp hkind with h | h <;> simp [beq_iff_eq.mp h]
    refine .nest (.bind ((take_oneOf (s := { s₂ with depth := s₂.depth + 1 }) hmem).mono
      fun _ s₃ h' => .bind ?_))
    have h : Adds scan s ((operand .post).seq (oneOf [.inc, .dec])) s₃ :=
      h.trans (h'.1.congr rfl rfl rfl rfl)
    exact h.closeAny hs .refl (by decide)
  · exact h

/-! ### Creation -/

theorem dimExpr_keeps : Keeps scan limit .dimExpr := .of_shape fun s hs => by
  refine (Adds.refl s).step (.expect _) fun h => ?_
  refine h.step .read fun h => ?_
  exact h.step (.expect _) fun h => h.close hs .refl fun _ h => h

theorem constructed_adds : Adding scan limit Production.constructed
    ((phr .arguments).andThen (opt (phr .classBody))) := .bind .read fun _ => .readAt _

/-- Where the last phrase is of a kind that may be missing, it is not missing. -/
theorem sized_holds {a : Shape} {kind kind' : Phrase} {last : Option Phrase} {ts : List Tree}
    (h : ((a.seq (phr kind)).seq (many (phr kind'))).Holds ts) (hlast : last = some kind')
    (hts : ∀ t, ts.getLast? = some t → t.phrase? = last)
    (hne : kind ≠ kind') :
    ((a.seq (phr kind)).seq (several (phr kind'))).Holds ts := by
  rcases h.seq_many_phr with h | ⟨-, h⟩
  · obtain ⟨t, ht, hphrase⟩ := h.getLast_phr
    rw [hts t ht, hlast] at hphrase
    exact absurd (Option.some.inj hphrase).symm hne
  · exact h

theorem expectDims_ensures : Production.expectDims.Ensures scan.source limit (contract scan)
    (fun _ s' => s' = s ∧ (scan.source.ahead s).last = some .dim) s := by
  show (if ((scan.source.ahead s).last != some .dim) = true then _ else _ : Move Unit).Ensures ..
  split
  · trivial
  · rename_i hlast
    exact ⟨rfl, by simpa using hlast⟩

theorem creator_ensures (hs : s.parts = []) :
    Production.creator.Ensures scan.source limit (contract scan)
      (fun _ s' => Adds scan s (operand .primary) s') s := by
  refine (Adds.refl s).step (.expect _) fun h => ?_
  refine h.step (.readAt _) fun h => ?_
  refine h.step .read fun h => .ahead ?_
  split
  · refine h.step .readWhile fun {_ s₁} h => .ahead ?_
    by_cases hsized : (scan.source.ahead s₁).last = some .dimExpr
    · have h := h.monoLast fun ts hts hlast => sized_holds hts hsized hlast (by decide)
      refine h.step dims_adds fun h => ?_
      split
      · exact h.closeAny hs (.trans .assoc (.seq .refl .left)) (by decide)
      · exact absurd (beq_iff_eq.mpr hsized) ‹_›
    · have h := h.monoLast fun ts hts hlast => hts.of_seq_many_phr hsized hlast
      refine h.step dims_adds fun h => ?_
      split
      · exact absurd (beq_iff_eq.mp ‹_›) hsized
      · refine .bind (expectDims_ensures.mono fun _ s₂ ⟨hs₂, hdims⟩ => ?_)
        subst hs₂
        have h := h.monoLast fun ts hts hlast => sized_holds hts hdims hlast (by decide)
        exact h.step .read fun h => h.closeAny hs (.trans .assoc (.seq .refl .right)) (by decide)
  · exact h.step constructed_adds fun h => h.closeAny hs .assoc' (by decide)

theorem innerCreator_ensures (hs : s.parts = []) :
    Production.innerCreator.Ensures scan.source limit (contract scan)
      (fun _ s' => Adds scan s (operand .primary) s') s := by
  refine (Adds.refl s).step (.expect _) fun h => ?_
  refine h.step (.readAt _) fun h => ?_
  refine h.step .read fun h => ?_
  refine h.step (.expect _) fun h => ?_
  refine h.step (.readAt _) fun h => ?_
  exact h.step constructed_adds fun h => h.closeAny hs .assoc' (by decide)

/-! ### Primaries -/

theorem Adds.closeSingle {kind : Phrase} {word : TokenKind} (h : Adds scan s₀ nothing s)
    (hword : (scan.source.ahead s).kind = word) (hs₀ : s₀.parts = [])
    (hrow : Within (tok word) kind.shape) (hkind : kind ∈ operands .primary) :
    (Production.single kind).Ensures scan.source limit (contract scan)
      (fun _ s' => Adds scan s₀ (operand .primary) s') s :=
  h.stepTok hword fun h => h.closeAny hs₀ hrow hkind

theorem selected_keeps : Keeps scan limit .selected := .of_shape fun s hs => by
  refine .ahead ?_
  split
  · split
    · exact readAs_ensures (.phrases (by decide))
    · exact (Adds.refl s).closeSingle ‹_› hs .refl (by decide)
  · exact readAs_ensures (.phrases (by decide))
  · exact (Adds.refl s).closeSingle ‹_› hs .refl (by decide)
  · exact read_ensures ‹_› fun _ h _ => h.lift.mono (.phrases (by decide))
  · exact innerCreator_ensures hs
  · trivial

theorem typeSelector_ensures (h : Adds scan s₀ (phr .type) s) (hs₀ : s₀.parts = []) :
    Production.typeSelector.Ensures scan.source limit (contract scan)
      (fun _ s' => Adds scan s₀ (operand .primary) s') s := by
  refine .isAt ?_
  split
  · exact methodReference_ensures h hs₀ (.phrases (by decide))
  · refine h.step (.expect _) fun h => ?_
    exact h.step (.expect _) fun h => h.closeAny hs₀ .refl (by decide)

/-- The decision only probes. -/
theorem startsTypeSelector_ensures :
    Production.startsTypeSelector.Ensures scan.source limit (contract scan)
      (fun _ s' => ∃ memo, s' = { s with memo }) s := by
  refine .ahead ?_
  split
  iterate 5
    refine fun width memo => ?_
    cases width with
    | none => exact ⟨memo, rfl⟩
    | some width => exact ⟨memo, rfl⟩
  · exact ⟨s.memo, rfl⟩

theorem mem_literals {k : TokenKind} (h : k.isLiteral) : k ∈ literals := by
  cases k <;> first | decide | cases h

theorem primary_keeps : Keeps scan limit .primary := .of_shape fun s hs => by
  refine .ahead ?_
  split
  · refine (Adds.refl s).stepTok ‹_› fun h => ?_
    refine h.step .read fun h => ?_
    exact h.step (.expect _) fun h => h.closeAny hs .refl (by decide)
  · split
    · exact readAs_ensures (.phrases (by decide))
    · exact (Adds.refl s).closeSingle ‹_› hs .refl (by decide)
  · exact read_ensures ‹_› fun _ h _ => h.lift.mono (.phrases (by decide))
  · exact creator_ensures hs
  · refine (Adds.refl s).stepTok ‹_› fun h => h.stepCondition fun h => ?_
    exact h.step .read fun h => h.closeAny hs .refl (by decide)
  · exact readAs_ensures (.phrases (by decide))
  · split
    · exact readAs_ensures (.phrases (by decide))
    refine .bind (startsTypeSelector_ensures.mono fun _ s₁ ⟨memo, hs₁⟩ => ?_)
    have h : Adds scan s nothing s₁ := (Adds.refl s).congr rfl rfl (hs₁ ▸ rfl) (hs₁ ▸ rfl)
    split
    · exact h.step .read fun h => typeSelector_ensures h hs
    · subst hs₁
      exact h.closeSingle ‹_› hs .refl (by decide)
  · split
    · refine .bind ((take_oneOf (mem_literals ‹_›)).mono fun _ _ h => ?_)
      exact h.1.closeAny hs .refl (by decide)
    split
    · exact (Adds.refl s).step .read fun h => typeSelector_ensures h hs
    · trivial

theorem callee_adds : Adding scan limit Production.callee
    (oneOf [.identifier, .thisKw, .superKw]) := fun s => by
  refine .ahead ?_
  split
  · rename_i hkind
    have hmem : (scan.source.ahead s).kind ∈ [.identifier, .thisKw, .superKw] := by
      rcases (Bool.or_eq_true ..).mp hkind with h | h
      · rcases (Bool.or_eq_true ..).mp h with h | h <;> simp [beq_iff_eq.mp h]
      · simp [beq_iff_eq.mp h]
    exact (take_oneOf hmem).mono fun _ _ h => h.1
  · trivial

theorem methodCall_keeps : Keeps scan limit .methodCall := .of_shape fun s hs => by
  refine (Adds.refl s).step callee_adds fun h => ?_
  exact h.step .read fun h => h.close hs .refl fun _ h => h

theorem arguments_keeps : Keeps scan limit .arguments := .of_shape fun s hs => by
  refine (Adds.refl s).step (.expect _) fun h => ?_
  refine h.step (.optional (.separated _)) fun h => ?_
  exact h.step (.expect _) fun h => h.close hs .refl fun _ h => h

theorem superAccess_keeps : Keeps scan limit .superAccess := fun s hs hsuper => by
  refine .ahead ?_
  split
  · exact read_ensures trivial fun _ h _ => ⟨h.lift.mono (.phrases (by decide)), trivial⟩
  · rename_i hdot
    have htwo : ((scan.source.ahead s).isAt .superKw &&
        (scan.source.ahead s).kindAt 1 == .dot) = true :=
      (Bool.and_eq_true ..).mpr ⟨beq_iff_eq.mpr hsuper, beq_iff_eq.mpr hdot⟩
    refine .bind ((takeTwo_ensures htwo).mono fun _ _ h => ?_)
    refine h.step (.readAt _) fun h => ?_
    refine h.step (.expect _) fun h => ?_
    exact h.step (.readAt _) fun h => h.close hs .refl fun _ h =>
      ⟨h.mono (.phrases (by decide)), trivial⟩
  · refine (Adds.refl s).step (.expect _) fun h => ?_
    exact h.close hs .refl fun _ h => ⟨h.mono (.phrases (by decide)), trivial⟩

theorem callOrSuper_adds : Adding scan limit Production.callOrSuper
    (anyOf [.methodCall, .superAccess, .superWord]) := fun s => by
  refine .ahead ?_
  split
  · exact readAs_ensures (.phrases (by decide))
  · exact readAs_ensures (.phrases (by decide))
  · exact read_ensures ‹_› fun _ h _ => h.lift
  · trivial

theorem genericInvocation_keeps : Keeps scan limit .genericInvocation := .of_shape fun s hs => by
  refine (Adds.refl s).step .read fun h => ?_
  exact h.step callOrSuper_adds fun h => h.close hs .refl fun _ h => h

end JavaSource.Grammar
