import JavaSource.Proofs.Matching.Exchange
import JavaSource.Proofs.Types.Matched

/-!
# What an expression starts with

The first symbol of an expression tells it from most other things (`starts_expression`).  A name
does not, but if what stands behind it goes on with no expression, the name is the whole of it
(`NameAlone.expression`).
-/

namespace JavaSource.Grammar

variable {ss rest : List Symbol} {parts ps : List Tree} {source : Source} {i j : Nat}

/-! ### First symbols -/

/-- The kinds of symbols that an expression starts with, unless it is a lambda. -/
def startsExpression (kind : TokenKind) : Bool := Ahead.startsUnary kind || kind == .lt

/-- What a rule takes starts as an expression does. -/
def Rule.Starts (source : Source) (r : Rule) : Prop :=
  ∀ i parts j, source.Clear i → r.Takes source i parts j →
    startsExpression (source.view ⟨i, []⟩).kind = true

/-- So does what has such a rule read first. -/
theorem Rule.Starts.of_read {r : Rule} {α : Type} {f : Unit → Move α} {e : Entry} {a : α}
    {s : Stand} (hr : r.Starts source) (hclear : source.Clear i)
    (h : (Move.read r >>= f).Leads source e ⟨i, ps⟩ a s) :
    startsExpression (source.view ⟨i, []⟩).kind = true := by
  obtain ⟨_, _, ⟨parts, k, -, htakes, -, -⟩, -⟩ := Move.leads_bind.mp h
  exact hr i parts k hclear htakes

section

variable (hwhole : source.Whole)

include hwhole

theorem primary_starts : Rule.primary.Starts source := by
  intro i parts j hclear h
  obtain ⟨_, _, ⟨rfl, -⟩, h⟩ := Move.leads_bind.mp ((Rule.takes_iff hwhole hclear).mp h)
  split at h
  case h_8 =>
    rename_i hkind
    generalize (source.view ⟨i, []⟩).kind = kind at h ⊢
    split at h
    · rename_i hliteral
      simp [startsExpression, Ahead.startsUnary, Ahead.startsUnsigned, hliteral]
    · split at h
      · rename_i htype
        rcases (Bool.or_eq_true ..).mp htype with htype | htype
        · simp [startsExpression, Ahead.startsUnary, Ahead.startsUnsigned, htype]
        · rw [beq_iff_eq.mp htype]
          rfl
      · exact h.elim
  all_goals
    rename_i hkind
    rw [hkind]
    rfl

theorem postfixed_starts : Rule.postfixed.Starts source := fun _ _ _ hclear h =>
  (primary_starts hwhole).of_read hclear ((Rule.takes_iff hwhole hclear).mp h)

theorem unary_starts : Rule.unary.Starts source := by
  intro i parts j hclear h
  obtain ⟨_, _, ⟨-, rfl⟩, h⟩ := Move.leads_bind.mp ((Rule.takes_iff hwhole hclear).mp h)
  obtain ⟨_, _, ⟨rfl, rfl⟩, h⟩ := Move.leads_bind.mp h
  split at h
  case h_8 =>
    obtain ⟨parts, k, -, htakes, -, -⟩ := h
    exact postfixed_starts hwhole i parts k hclear htakes
  all_goals
    rename_i hkind
    rw [hkind]
    rfl

theorem binary_starts (loosest : Layer) : (Rule.binary loosest).Starts source :=
  fun _ _ _ hclear h => (unary_starts hwhole).of_read hclear ((Rule.takes_iff hwhole hclear).mp h)

theorem ternary_starts : Rule.ternary.Starts source := fun _ _ _ hclear h =>
  (binary_starts hwhole _).of_read hclear ((Rule.takes_iff hwhole hclear).mp h)

/-- **An expression starts with one of a few symbols.** -/
theorem expression_starts : Rule.expression.Starts source := by
  intro i parts j hclear h
  obtain ⟨_, _, ⟨-, rfl⟩, h⟩ := Move.leads_bind.mp ((Rule.takes_iff hwhole hclear).mp h)
  obtain ⟨_, _, ⟨rfl, rfl⟩, h⟩ := Move.leads_bind.mp h
  split at h
  · rename_i hlambda
    unfold Ahead.startsLambda at hlambda
    split at hlambda
    · rename_i hkind
      rw [hkind]
      rfl
    · rename_i hkind
      rw [hkind]
      rfl
    · cases hlambda
  · exact (ternary_starts hwhole).of_read hclear h

end

/-! ### A name alone -/

/-- Whether a conditional that is a name goes on with no symbol of some kind. -/
def endsOperand (kind : TokenKind) : Bool :=
  !([TokenKind.dot, .lt, .lbrack, .colonColon, .lparen, .inc, .dec, .question].contains kind
    || (Layer.ofOperator kind).isSome)

/-- Whether an expression that is a name goes on with none. -/
def endsName (kind : TokenKind) : Bool :=
  endsOperand kind && !(kind == .arrow || kind.isAssignment)

/-- The phrase that a name is. -/
def plainName (x : Symbol) : Tree := Phrase.plainName.over [.leaf x.token]

/-- No brackets follow, with annotations in front of them or without. -/
def NoDims (ss rest : List Symbol) : Prop :=
  kindAhead rest 0 ≠ .lbrack ∧ ∀ i parts width, ss.drop i = rest →
    Rule.annotations.Takes (.ofSymbols ss) i parts (i + width) → kindAhead rest width ≠ .lbrack

section

variable {x : Symbol} (hscan : Scanned ss) (hne : rest ≠ []) (hx : x.kind = .identifier)

include hscan hx

theorem name_unannotated : Rule.annotations.Matches ss [] [] (x :: rest) :=
  matches_annotations hscan (List.cons_ne_nil _ _) (by
    rw [show kindAhead (x :: rest) 0 = .identifier from hx]
    rfl)

include hne

/-- A class type that is a name. -/
theorem name_classType (hlt : kindAhead rest 0 ≠ .lt) (hdot : kindAhead rest 0 ≠ .dot) :
    ∃ t, Rule.classType.Matches ss [x] [t] rest := by
  have hcoit : Rule.coit.Matches ss [x] [Phrase.coit.over [.leaf x.token]] rest := by
    refine .of_production hscan hne fun i s he h => ?_
    rw [List.singleton_append] at he h
    refine h.readNone (name_unannotated hscan hx) (he.same h (List.cons_ne_nil _ _) (by decide))
      fun h => h.expect hx rfl fun h => .bind (.isAt ?_)
    rw [h.isAt_eq, beq_eq_false_iff_ne.mpr hlt]
    exact .pure (h.closeLast rfl)
  refine ⟨Phrase.classType.over [Phrase.coit.over [.leaf x.token]],
    .of_production hscan hne fun i s he h => ?_⟩
  refine h.read hcoit (he.same h (by simp) (by decide)) fun h => .loopThen (.stop (.ahead ?_))
  rw [h.isAt_eq, beq_eq_false_iff_ne.mpr hdot]
  exact .pure ⟨rfl, h.closeLast rfl⟩

/-- A type that is a name. -/
theorem name_type (hlt : kindAhead rest 0 ≠ .lt) (hdot : kindAhead rest 0 ≠ .dot)
    (hdims : NoDims ss rest) : ∃ t, Rule.type.Matches ss [x] [t] rest := by
  obtain ⟨t, hclass⟩ := name_classType hscan hne hx hlt hdot
  refine ⟨Phrase.type.over [t], .of_production hscan hne fun i s he h => .nest ?_⟩
  rw [List.singleton_append] at he h
  refine h.readNone (name_unannotated hscan hx) (he.same h (List.cons_ne_nil _ _) (by decide))
    fun {s₁} h => .bind (.ahead ?_)
  rw [h.kind_eq, h.isAt_eq, show kindAhead (x :: rest) 0 = .identifier from hx]
  have h : Faces ss [] ([x] ++ rest) s₁ := h
  refine (h.readLast hclass (he.same h (by simp) (by decide))).mono fun _ s₂ h => ?_
  refine .provided rfl (.loop (.stop (.ahead ?_)))
  have hdim : ((Source.ofSymbols ss).view s₂).startsDim = false :=
    (Bool.and_eq_false_iff ..).mpr (.inl (by rw [h.isAt_eq]; exact beq_eq_false_iff_ne.mpr hdims.1))
  rw [hdim]
  split
  · exact absurd ‹_› Bool.false_ne_true
  · split
    · refine .attempt (he.fewer h (by simp)) fun width hfinds => ?_
      cases width with
      | none => exact .pure ⟨rfl, h.closeLast rfl⟩
      | some width =>
        obtain ⟨parts, htakes⟩ := hfinds
        have hskip : (((Source.ofSymbols ss).view s₂).skip width).startsDim = false :=
          (Bool.and_eq_false_iff ..).mpr <| .inl <| beq_eq_false_iff_ne.mpr fun heq =>
            hdims.2 _ parts width h.drop_eq htakes ((h.kindAt_eq width).symm.trans heq)
        dsimp only
        rw [hskip]
        exact .pure ⟨rfl, h.closeLast rfl⟩
    · exact .pure ⟨rfl, h.closeLast rfl⟩

end

section

variable {x : Symbol} (hscan : Scanned ss) (hne : rest ≠ []) (hx : x.kind = .identifier)
  (hrest : endsOperand (kindAhead rest 0) = true) (hdims : NoDims ss rest)

include hscan hne hx hrest hdims

theorem name_primary : Rule.primary.Matches ss [x] [plainName x] rest := by
  refine .of_production hscan hne fun i s he h => .ahead ?_
  have hkind : kindAhead (x :: rest) 0 = .identifier := hx
  have hone : kindAhead (x :: rest) 1 = kindAhead rest 0 := rfl
  rw [List.singleton_append] at he h
  have hno (kind : TokenKind) (hkind : endsOperand kind = false) : kindAhead rest 0 ≠ kind := by
    rintro rfl
    rw [hrest] at hkind
    cases hkind
  rw [h.kind_eq, hkind, h.kindAt_eq, hone, beq_eq_false_iff_ne.mpr (hno .lparen rfl)]
  refine .bind (.ahead ?_)
  rw [h.kindAt_eq, hone]
  have hname : (Production.single .plainName).Gets (.ofSymbols ss) (.primary, i)
      (fun _ => Faces ss [plainName x] rest) s :=
    h.take (by rw [hx]; rfl) fun h => h.closeLast rfl
  split
  case h_5 hat =>
    obtain ⟨t, htype⟩ := name_type hscan hne hx (hno .lt rfl) (hno .dot rfl) hdims
    have hprobe : Probe.type.rule.Matches ss [x] [t] rest := htype
    have h' : Faces ss [] ([x] ++ rest) s := h
    refine h'.attempt hprobe (he.same h' (by simp) (by decide)) ?_
    have hdot : (((Source.ofSymbols ss).view s).skip 1).isAt .dot = false :=
      beq_eq_false_iff_ne.mpr fun heq => hno .dot rfl ((h.kindAt_eq 1).symm.trans heq)
    have hcolons : (((Source.ofSymbols ss).view s).skip 1).isAt .colonColon = false :=
      beq_eq_false_iff_ne.mpr fun heq =>
        hno .colonColon rfl ((h.kindAt_eq 1).symm.trans heq)
    dsimp only [List.length_singleton]
    rw [hdot, hcolons]
    exact .pure hname
  case h_6 => exact .pure hname
  all_goals exact absurd ‹_› (hno _ rfl)

theorem name_postfixed : Rule.postfixed.Matches ss [x] [plainName x] rest := by
  refine .of_production hscan hne fun i s he h => ?_
  refine h.read (name_primary hscan hne hx hrest hdims) (he.same h (by simp) (by decide))
    fun h => ?_
  have hno (kind : TokenKind) (hkind : endsOperand kind = false) : kindAhead rest 0 ≠ kind := by
    rintro rfl
    rw [hrest] at hkind
    cases hkind
  refine .loopThen (.stop (.ahead ?_))
  rw [h.kind_eq]
  split
  case h_4 =>
    refine .pure ⟨rfl, .loop (.stop (.ahead ?_))⟩
    rw [h.isAt_eq, h.isAt_eq, beq_eq_false_iff_ne.mpr (hno .inc rfl),
      beq_eq_false_iff_ne.mpr (hno .dec rfl)]
    exact .pure ⟨rfl, h⟩
  all_goals exact absurd ‹_› (hno _ rfl)

theorem name_unary : Rule.unary.Matches ss [x] [plainName x] rest := by
  refine .of_production hscan hne fun i s he h => .nest (.ahead ?_)
  rw [h.kind_eq, show kindAhead ([x] ++ rest) 0 = .identifier from hx]
  exact h.readLast (name_postfixed hscan hne hx hrest hdims) (he.same h (by simp) (by decide))

theorem name_binary (loosest : Layer) :
    (Rule.binary loosest).Matches ss [x] [plainName x] rest := by
  refine .of_production hscan hne fun i s he h => ?_
  refine h.read (name_unary hscan hne hx hrest hdims)
    (he.same h (by simp) (by cases loosest <;> decide)) fun h => .loop (.stop (.ahead ?_))
  have hnone : Layer.ofOperator (kindAhead rest 0) = none := by
    obtain ⟨-, hnone⟩ := (Bool.or_eq_false_iff ..).mp ((Bool.not_eq_true' _).mp hrest)
    exact Option.isNone_iff_eq_none.mp (Option.isSome_eq_false_iff.mp hnone)
  have hgt : (kindAhead rest 0 != .gt) = true := bne_iff_ne.mpr fun heq => by
    rw [heq] at hnone
    cases hnone
  unfold Ahead.operator
  rw [h.kind_eq, if_pos hgt]
  dsimp only
  rw [hnone]
  exact .pure ⟨rfl, h⟩

theorem name_ternary : Rule.ternary.Matches ss [x] [plainName x] rest := by
  refine .of_production hscan hne fun i s he h => ?_
  refine h.read (name_binary hscan hne hx hrest hdims _) (he.same h (by simp) (by decide))
    fun h => ?_
  exact h.eatNone (beq_eq_false_iff_ne.mpr fun heq => by
    rw [heq] at hrest
    cases hrest) (.pure h)

end

/-- **A name with nothing behind it to go on with is the whole of an expression.** -/
theorem name_expression {x : Symbol} (hscan : Scanned ss) (hne : rest ≠ [])
    (hx : x.kind = .identifier) (hrest : endsName (kindAhead rest 0) = true)
    (hdims : NoDims ss rest) : Rule.expression.Matches ss [x] [plainName x] rest := by
  obtain ⟨hoperand, hno⟩ := (Bool.and_eq_true ..).mp hrest
  obtain ⟨harrow, hassign⟩ := (Bool.or_eq_false_iff ..).mp ((Bool.not_eq_true' _).mp hno)
  refine .of_production hscan hne fun i s he h => .nest (.ahead ?_)
  have hlambda : ((Source.ofSymbols ss).view s).startsLambda = false := by
    unfold Ahead.startsLambda
    rw [h.kind_eq, show kindAhead ([x] ++ rest) 0 = .identifier from hx, h.kindAt_eq]
    exact harrow
  rw [hlambda]
  refine h.read (name_ternary hscan hne hx hoperand hdims) (he.same h (by simp) (by decide))
    fun h => .ahead ?_
  rw [h.kind_eq, hassign]
  exact .pure h

end JavaSource.Grammar
