import JavaSource.Proofs.Windows.Statements

/-!
# Expressions in a window

An arrow right behind the window may be the arrow of a lambda in one of the sources and nothing in
the other one.  An expression that leaves a symbol of the window does not come to it: its
parentheses come in pairs, so those that it starts with are closed in front of the last symbol.
-/

namespace JavaSource.Grammar

variable {α β : Type}

/-- Moves that read a rule first, whose parentheses come in pairs. -/
def Move.Opens (m : Move α) : Prop :=
  ∀ source e s a s', m.Leads source e s a s' → ∃ r parts k, Rule.isFree r = true ∧ r.least = 1 ∧
    r.Takes source s.read parts k ∧ k ≤ s'.read

namespace Move.Opens

theorem read {r : Rule} (hfree : r.isFree = true) (hleast : r.least = 1) :
    (Move.read r).Opens := by
  rintro source e s a s' ⟨parts, k, -, htakes, -, rfl⟩
  exact ⟨r, parts, k, hfree, hleast, htakes, Nat.le_refl k⟩

theorem first {m : Move α} {f : α → Move β} (h : m.Opens) : (m >>= f).Opens := by
  intro source e s b s' hleads
  obtain ⟨a, s₁, hm, hf⟩ := leads_bind.mp hleads
  obtain ⟨r, parts, k, hfree, hleast, htakes, hk⟩ := h _ _ _ _ _ hm
  exact ⟨r, parts, k, hfree, hleast, htakes, Nat.le_trans hk hf.le⟩

theorem nestThen {m : Move α} (h : m.Opens) : (do nest; m).Opens := h

end Move.Opens

namespace Window

open Carries

variable {W : Window} {e : Entry} {n i : Nat}

/-- Whether a lambda starts here is the same for moves that leave enough of the window. -/
theorem Carries.lambdaAsk {m m' q q' : Move α} (hn : W.slackAt i ≤ n) (hm : m.Opens) (hq : q.Opens)
    (h : W.Carries e n i m m') (h' : W.Carries e n i q q') :
    W.Carries e n i (do if (← Move.ahead).startsLambda then m else q)
      (do if (← Move.ahead).startsLambda then m' else q') := by
  intro hW hB parts a j ps hj hleads
  let last := parts.head?.bind Tree.phrase?
  have hleads' : (if (W.view i last).startsLambda then m else q).Leads W.source (W.entry e)
      ⟨W.start + i, parts⟩ a ⟨W.start + j, ps⟩ := hleads
  obtain ⟨r, new, k', hfree, hleast, htakes, hk⟩ : ∃ r new k', Rule.isFree r = true ∧ r.least = 1 ∧
      r.Takes W.source (W.start + i) new k' ∧ k' ≤ W.start + j := by
    split at hleads'
    · exact hm _ _ _ _ _ hleads'
    · exact hq _ _ _ _ _ hleads'
  obtain ⟨w, rfl⟩ := Nat.exists_eq_add_of_le htakes.le
  have hi : i ≤ W.size := by omega
  have hw : W.start + i < W.start + i + w := htakes.lt (whole hW) (clear hW hi) hleast
  have hlambda : (W.view i last).startsLambda = (W.swap.view i last).startsLambda := by
    refine startsLambda_eq hW hi fun harrow => Bool.eq_false_iff.mpr fun hhead => ?_
    have hpos : 1 ≤ n := by
      unfold slackAt at hn
      rwa [harrow, hhead] at hn
    rcases (isHead_drop hW (p := last) (by omega)).mp hhead with
      ⟨-, hend⟩ | ⟨hparen, m, hclosing, hend⟩
    · omega
    · have hnested := hW.scanned.nested htakes hfree (clear hW hi)
      rw [Nat.add_assoc, kindsBetween_symbols (by omega)] at hnested
      have hlt := closing_lt hW (by omega) hparen hclosing (by omega) hnested
      omega
  exact ite hlambda (fun _ => h) (fun _ => h') hW hB parts a j ps hj hleads

theorem expressionStart_carries :
    W.Carries e 1 i Production.expressionStart Production.expressionStart :=
  andThen read <| andThen finish_carries close

theorem expression_carries (hn : W.slackAt i ≤ n) :
    W.Carries e n i Production.expression Production.expression := by
  have hslack : W.slack ≤ n := Nat.le_trans slack_le_slackAt hn
  refine nestThen <| lambdaAsk hn (.read rfl rfl) (.first (.read rfl rfl)) (readWithin hslack) <|
    andThen (readWithin hslack) fun {k} =>
    ahead fun hW hk last =>
      ask (.test TokenKind.isAssignment rfl) (fun hop => takeThen ?_) fun _ => pure
  have hkind : (W.view k last).kind.isStopper = false ∧ leadsLast (W.view k last).kind = true := by
    generalize (W.view k last).kind = kind at hop
    cases kind <;> first | exact ⟨rfl, rfl⟩ | cases hop
  have hlt : k < W.size := lt_of_kindAt (n := 0) hW (Nat.le_of_add_right_le hk) hkind.1
  exact andThen (readWithin (slackAt_behind hslack hlt hkind.2)) close

/-! ### Lambdas -/

theorem lambdaBody_carries (hn : W.slackAt i ≤ n) :
    W.Carries e n i Production.lambdaBody Production.lambdaBody :=
  isAt fun _ => ite rfl (fun _ => read) fun _ => readWithin hn

theorem lambda_carries (hn : W.slack ≤ n) :
    W.Carries e n i Production.lambda Production.lambda :=
  andThen read <| expectThen fun hlt hkind =>
    andThen (lambdaBody_carries <| slackAt_behind (p := none) hn hlt <|
      congrArg leadsLast (hkind none)) close

theorem namesOnly_eq {last : Option Phrase} (hW : W.Proper) (hi : i ≤ W.size)
    (hparen : (W.view i last).kindAt 0 = .lparen) :
    Production.namesOnly (W.view i last) = Production.namesOnly (W.swap.view i last) := by
  have hlt : i < W.size := lt_of_eq (n := 0) hW hi hparen
  have hnext : i + 1 < W.size := lt_of_lparen (n := 0) hW hi hparen
  have hfirst : (W.view i last).kindAt 1 = (W.swap.view i last).kindAt 1 := kindAt_eq hnext
  unfold Production.namesOnly
  rw [hfirst]
  refine congrArg _ (and_eq_and rfl fun hname => ?_)
  have hname : (W.view (i + 1) last).kindAt 0 = .identifier := by
    rw [Ahead.kindAt, at_view, Nat.add_zero, ← at_view]
    exact hfirst.trans (beq_iff_eq.mp hname)
  have hone : parensBehind false 0 (((W.inside.drop (i + 1)).take 1).map Symbol.kind) = some 0 := by
    rw [drop_inside hnext last, List.take_succ_cons, List.map_cons]
    exact Option.bind_eq_some_iff.mpr ⟨0, congrArg _ hname, rfl⟩
  have hsecond : (W.view i last).kindAt 2 = (W.swap.view i last).kindAt 2 :=
    kindAt_eq (lt_of_opened hW hlt hparen hone)
  rw [hsecond]

/-- Parentheses open where formal parameters are read. -/
theorem kind_of_formalParameters {source : Source} {e : Entry} {s s' : Stand} {a : Unit}
    {ofLambda : Bool} (hwhole : source.Whole) (hclear : source.Clear s.read)
    (h : (Move.read (.formalParameters ofLambda)).Leads source e s a s') :
    (source.view s).kind = .lparen := by
  obtain ⟨parts, j, -, htakes, -⟩ := h
  have hleads : (Production.formalParameters ofLambda).Leads source _ ⟨s.read, []⟩ () ⟨j, parts⟩ :=
    (Rule.takes_iff hwhole hclear).mp htakes
  obtain ⟨_, _, hexpect, -⟩ := Move.leads_bind.mp hleads
  exact hexpect.of_expect.1

theorem namesOrParameters_carries :
    W.Carries e n i Production.namesOrParameters Production.namesOrParameters := by
  refine ahead fun hW hi last => ask .isAt (fun _ => take) fun _ => ?_
  by_cases hparen : (W.view i last).kindAt 0 = .lparen
  · refine ite (namesOnly_eq hW (Nat.le_of_add_right_le hi) hparen) (fun _ => ?_) fun _ => read
    refine andThen expect <| thenReads (loop <| isAt (fun _ => ite rfl (fun _ => pure) fun _ =>
      andThen expect eat)) .expect expect
  · intro hW hB parts a j ps hj hleads
    refine absurd ?_ hparen
    split at hleads
    · obtain ⟨_, _, hexpect, -⟩ := Move.leads_bind.mp hleads
      exact hexpect.of_expect.1
    · exact kind_of_formalParameters (whole hW) (clear hW (Nat.le_of_add_right_le hi)) hleads

theorem lambdaParameters_carries :
    W.Carries e n i Production.lambdaParameters Production.lambdaParameters :=
  andThen namesOrParameters_carries close

/-! ### Operators -/

theorem alternative_carries (hn : W.slackAt i ≤ n) :
    W.Carries e n i Production.alternative Production.alternative := by
  have hslack : W.slack ≤ n := Nat.le_trans slack_le_slackAt hn
  exact lambdaAsk hn (.read rfl rfl) (.nestThen (.read rfl rfl)) (readWithin hslack)
    (nestThen (readWithin hslack))

theorem ternary_carries (hn : W.slack ≤ n) :
    W.Carries e n i Production.ternary Production.ternary :=
  andThen (readWithin hn) <| ifEaten (thenReads read (.first .expect) <| expectThen fun hlt hkind =>
    andThen (alternative_carries <| slackAt_behind (p := none) hn hlt <|
      congrArg leadsLast (hkind none)) close) pure

theorem rightOperand_carries (hn : W.slack ≤ n) (layer : Layer) :
    W.Carries e n i (Production.rightOperand layer) (Production.rightOperand layer) := by
  unfold Production.rightOperand
  split
  · exact readWithin hn
  · exact readWithin hn

theorem patternOrType_carries :
    W.Carries e n i Production.patternOrType Production.patternOrType :=
  attempt fun _ _ => ite rfl (fun _ => read) fun _ => read

theorem operation_carries (hn : W.slack ≤ n) {layer : Layer} {op : TokenKind} {width : Nat} :
    W.Carries e n i (Production.operation layer op width)
      (Production.operation layer op width) :=
  andThen nest <| andThen (ite rfl (fun _ => take) fun _ => joined) <|
    ite rfl (fun _ => andThen patternOrType_carries close)
      fun _ => andThen (rightOperand_carries hn layer) close

theorem binary_carries (hn : W.slack ≤ n) {loosest : Layer} :
    W.Carries e n i (Production.binary loosest) (Production.binary loosest) := by
  refine andThen (readWithin hn) <| loop fun {k} => ahead fun hW hk last => ?_
  rcases Nat.lt_or_eq_of_le (Nat.le_of_add_right_le hk) with hlt | heq
  · have hop : (W.swap.view k last).operator = (W.view k last).operator :=
      (operator_eq hW hlt).symm
    simp only [hop]
    cases Layer.ofOperator (W.view k last).operator.1 with
    | none => exact pure
    | some layer =>
      by_cases hloose : layer.rank < loosest.rank
      · simp only [if_pos hloose]
        exact pure
      · simp only [if_neg hloose]
        exact andThen (operation_carries hn) pure
  · simp only [ofOperator_stop hW heq, ofOperator_stop (W := W.swap) hW.swap heq]
    exact pure

/-- In a cast, what starts a lambda may start an operand too. -/
theorem startsUnsigned_or_startsLambda (b : Ahead) :
    (Ahead.startsUnsigned b.kind || b.startsLambda) = Ahead.startsUnsigned b.kind := by
  unfold Ahead.startsLambda
  split
  · rename_i hkind
    rw [hkind]
    rfl
  · rename_i hkind
    rw [hkind]
    rfl
  · exact Bool.or_false _

theorem startsCast_carries : W.Carries e n i Production.startsCast Production.startsCast := by
  refine ahead fun hW _ last => attempt fun found hfound => ?_
  cases found with
  | none => exact pure
  | some width =>
    have hle := hfound width rfl
    have hunary := (Asks.test Ahead.startsUnary rfl).skip last hW hle
    have hunsigned := (Asks.test Ahead.startsUnsigned rfl).skip last hW hle
    simp only [startsUnsigned_or_startsLambda]
    refine ite ?_ (fun _ => ?_) fun _ => ?_
    · refine and_eq_and rfl fun hwidth => ?_
      obtain rfl := beq_iff_eq.mp hwidth
      exact (kindAt_same hW (by omega)).test TokenKind.isPrimitiveType rfl
    · rw [hunary]
      exact pure
    · rw [hunsigned]
      exact pure

theorem castHead_carries : W.Carries e n i Production.castHead Production.castHead :=
  andThen expect <| andThen separated expect

/-- A cast opens with a type in parentheses. -/
theorem rparen_of_castHead {source : Source} {i j : Nat} {parts : List Tree}
    (hwhole : source.Whole) (hclear : source.Clear i) (h : Rule.castHead.Takes source i parts j) :
    ∃ s, i ≤ s.read ∧ (source.view s).kind = .rparen ∧ j = s.read + 1 := by
  obtain ⟨_, s₁, hopen, hrest⟩ := Move.leads_bind.mp ((Rule.takes_iff hwhole hclear).mp h)
  obtain ⟨_, s₂, htypes, hclose⟩ := Move.leads_bind.mp hrest
  exact ⟨s₂, Nat.le_trans hopen.le htypes.le, hclose.of_expect⟩

theorem castOperand_carries (hn : W.slackAt i ≤ n) :
    W.Carries e n i Production.castOperand Production.castOperand := by
  have hslack : W.slack ≤ n := Nat.le_trans slack_le_slackAt hn
  exact lambdaAsk hn (.read rfl rfl) (.read rfl rfl) (readWithin hslack) (readWithin hslack)

/-- A cast of a lambda or of an operand. -/
theorem cast_carries (hn : W.slack ≤ n) :
    W.Carries e n i (do Move.read .castHead; Production.castOperand; Move.close .cast)
      (do Move.read .castHead; Production.castOperand; Move.close .cast) := by
  refine readThen fun parts k htakes => within fun hW hk => ?_
  have hle : W.start + i ≤ W.start + k := htakes.le
  obtain ⟨⟨place, ps⟩, hpast, hkind, hend⟩ :=
    rparen_of_castHead (whole hW) (clear hW (by omega)) htakes
  obtain ⟨l, rfl⟩ := Nat.exists_eq_add_of_le (Nat.le_trans (Nat.le_add_right ..) hpast)
  obtain rfl : k = l + 1 := by
    have hend : W.start + k = W.start + l + 1 := hend
    omega
  exact andThen (castOperand_carries <| slackAt_behind hn (by omega) (congrArg leadsLast hkind))
    close

theorem unary_carries (hn : W.slack ≤ n) (hroom : i < W.size) :
    W.Carries e n i Production.unary Production.unary := by
  refine nestThen <| ahead fun _ _ last => ?_
  have hkind : (W.swap.view i last).kind = (W.view i last).kind := (kindAt_eq (n := 0) hroom).symm
  simp only [hkind]
  split
  case h_7 =>
    exact bind (c := 0) startsCast_carries (fun _ => .none) fun _ _ _ => ite rfl
      (fun _ => cast_carries hn) fun _ => read
  case h_8 => exact read
  all_goals exact andThen take <| andThen (readWithin hn) close

theorem nameOrNew_carries : W.Carries e n i Production.nameOrNew Production.nameOrNew :=
  aheadAsk (.or .isAt .isAt) take mismatch

theorem methodReference_carries :
    W.Carries e n i Production.methodReference Production.methodReference :=
  andThen expect <| andThen readAt <| andThen nameOrNew_carries close

theorem postfixed_carries : W.Carries e n i Production.postfixed Production.postfixed := by
  refine andThen read <| andThen (loop fun {k} => ahead fun hW hk last => ?_) <| loop <|
    aheadAsk (.or .isAt .isAt) (andThen nest <| andThen take <| andThen close pure) pure
  rcases kindAt_same (n := 0) (p := last) (q := last) hW (Nat.le_of_add_right_le hk) with
    heq | ⟨hstop, hstop'⟩
  · have hkind : (W.swap.view k last).kind = (W.view k last).kind := heq.symm
    simp only [hkind]
    split
    · exact andThen nest <| andThen take <| andThen read <| andThen close pure
    · exact andThen nest <| andThen take <| thenReads read (.first .expect) <|
        andThen expect <| andThen close pure
    · exact andThen nest <| andThen methodReference_carries pure
    · exact pure
  · split
    case h_4 =>
      split
      case h_4 => exact pure
      all_goals
        rename_i hkind
        exact absurd hkind (ne_of_isStopper hstop')
    all_goals
      rename_i hkind
      exact absurd hkind (ne_of_isStopper hstop)

/-! ### Creation -/

theorem dimExpr_carries : W.Carries e n i Production.dimExpr Production.dimExpr :=
  andThen expect <| thenReads read (.first .expect) <| andThen expect close

theorem constructed_carries : W.Carries e n i Production.constructed Production.constructed :=
  andThen read readAt

theorem creator_carries : W.Carries e n i Production.creator Production.creator := by
  refine expectThen fun _ _ => bind (c := 0) readAt (fun _ => .none) fun _ k hk =>
    bind (c := 0) read (fun _ => .none) fun _ l hl => ahead fun hW hle last =>
    ite ?_ (fun _ => ?_) fun _ => andThen constructed_carries close
  · have hle' : l ≤ W.size := Nat.le_of_add_right_le hle
    have hat : (W.view l last).isAt .lbrack = (W.swap.view l last).isAt .lbrack :=
      isAt_eq hW hle'
    have hbehind : (W.view l last).behind = (W.swap.view l last).behind :=
      behind_eq (by omega) hle'
    rw [hat, hbehind]
  · refine andThen (readWhile (.isAtAnd (.not .kindAt))) <| ahead fun _ _ _ =>
      andThen dims_carries <| ite rfl (fun _ => close) fun _ => ?_
    exact andThen (ahead fun _ _ _ => ite rfl (fun _ => mismatch) fun _ => pure) <|
      andThen read close

theorem innerCreator_carries :
    W.Carries e n i Production.innerCreator Production.innerCreator :=
  andThen expect <| andThen readAt <| andThen read <| andThen expect <| andThen readAt <|
    andThen constructed_carries close

/-! ### Primaries -/

theorem single_carries {kind : Phrase} :
    W.Carries e n i (Production.single kind) (Production.single kind) :=
  andThen take close

theorem selected_carries (hroom : i < W.size) :
    W.Carries e n i Production.selected Production.selected := by
  refine ahead fun hW _ last => ?_
  have hkind : (W.swap.view i last).kind = (W.view i last).kind := (kindAt_eq (n := 0) hroom).symm
  have hnext : ((W.view i last).kindAt 1 == .lparen) = ((W.swap.view i last).kindAt 1 == .lparen) :=
    beq_eq hW hroom
  simp only [hkind]
  split
  · exact ite hnext (fun _ => read) fun _ => single_carries
  · exact read
  · exact single_carries
  · exact read
  · exact innerCreator_carries
  · exact mismatch

theorem typeSelector_carries :
    W.Carries e n i Production.typeSelector Production.typeSelector :=
  isAt fun _ => ite rfl (fun _ => methodReference_carries) fun _ =>
    andThen expect <| andThen expect close

/-- What follows a type is the same in both sources. -/
theorem typeSelector_eq {width : Nat} (last : Option Phrase) (hW : W.Proper)
    (hle : i + width ≤ W.size) :
    ((((W.view i last).skip width).isAt .dot &&
        ((W.view i last).skip width).kindAt 1 == .classKw) ||
      (((W.view i last).skip width).isAt .colonColon && (!(W.view i last).isPlainName width ||
        ((W.view i last).skip width).kindAt 1 == .newKw))) =
    ((((W.swap.view i last).skip width).isAt .dot &&
        ((W.swap.view i last).skip width).kindAt 1 == .classKw) ||
      (((W.swap.view i last).skip width).isAt .colonColon &&
        (!(W.swap.view i last).isPlainName width ||
          ((W.swap.view i last).skip width).kindAt 1 == .newKw))) := by
  have hclass : W.Asks 0 fun b => b.isAt .dot && b.kindAt 1 == .classKw := .isAtAnd .kindAt
  have hnew : W.Asks 0 fun b => b.isAt .colonColon &&
      (!(W.swap.view i last).isPlainName width || b.kindAt 1 == .newKw) :=
    .isAtAnd (.or .const .kindAt)
  rw [isPlainName_eq (q := last) hle]
  exact congr (congrArg or (hclass.skip last hW hle)) (hnew.skip last hW hle)

theorem startsTypeSelector_carries (hroom : i < W.size) :
    W.Carries e n i Production.startsTypeSelector Production.startsTypeSelector := by
  refine ahead fun hW _ last => ?_
  rcases kindAt_same (n := 1) (p := last) (q := last) hW hroom with
    heq | ⟨hstop, hstop'⟩
  · simp only [← heq]
    split
    case h_6 => exact pure
    all_goals
      refine attempt fun found hfound => ?_
      cases found with
      | none => exact pure
      | some width =>
        have hselector := typeSelector_eq last hW (hfound width rfl)
        simp only [hselector]
        exact pure
  · split
    case h_6 =>
      split
      case h_6 => exact pure
      all_goals
        rename_i hkind
        exact absurd hkind (ne_of_isStopper hstop')
    all_goals
      rename_i hkind
      exact absurd hkind (ne_of_isStopper hstop)

theorem primary_carries (hroom : i < W.size) :
    W.Carries e n i Production.primary Production.primary := by
  refine ahead fun hW _ last => ?_
  have hkind : (W.swap.view i last).kind = (W.view i last).kind := (kindAt_eq (n := 0) hroom).symm
  have hnext : ((W.view i last).kindAt 1 == .lparen) = ((W.swap.view i last).kindAt 1 == .lparen) :=
    beq_eq hW hroom
  simp only [hkind]
  split
  · exact andThen take <| thenReads read (.first .expect) <| andThen expect close
  · exact ite hnext (fun _ => read) fun _ => single_carries
  · exact read
  · exact creator_carries
  · exact andThen take <| andThen condition_carries <| andThen read close
  · exact read
  · exact ite hnext (fun _ => read) fun _ => bind (c := 0) (startsTypeSelector_carries hroom)
      (fun _ => .none) fun _ _ _ => ite rfl (fun _ => andThen read typeSelector_carries)
        fun _ => single_carries
  · exact ite rfl (fun _ => single_carries) fun _ => ite rfl
      (fun _ => andThen read typeSelector_carries) fun _ => fail

theorem callee_carries : W.Carries e n i Production.callee Production.callee :=
  aheadAsk (.or (.or .isAt .isAt) .isAt) take mismatch

theorem methodCall_carries : W.Carries e n i Production.methodCall Production.methodCall :=
  andThen callee_carries <| andThen read close

theorem arguments_carries : W.Carries e n i Production.arguments Production.arguments :=
  andThen expect <|
    thenReads (provided (.not .isAt) separated) (.first .expect) <|
    andThen expect close

theorem superAccess_carries (hroom : i < W.size) :
    W.Carries e n i Production.superAccess Production.superAccess := by
  refine ahead fun hW _ last => ?_
  rcases kindAt_same (n := 1) (p := last) (q := last) hW hroom with
    heq | ⟨hstop, hstop'⟩
  · simp only [← heq]
    split
    · exact read
    · exact andThen takeTwo <| andThen readAt <| andThen expect <| andThen readAt close
    · exact andThen expect close
  · split
    case h_3 =>
      split
      case h_3 => exact andThen expect close
      all_goals
        rename_i hkind
        exact absurd hkind (ne_of_isStopper hstop')
    all_goals
      rename_i hkind
      exact absurd hkind (ne_of_isStopper hstop)

theorem callOrSuper_carries :
    W.Carries e n i Production.callOrSuper Production.callOrSuper := by
  refine ahead fun hW hi last => ?_
  rcases kindAt_same (n := 0) (p := last) (q := last) hW (Nat.le_of_add_right_le hi) with
    heq | ⟨hstop, hstop'⟩
  · have hkind : (W.swap.view i last).kind = (W.view i last).kind := heq.symm
    simp only [hkind]
    split
    · exact read
    · exact read
    · exact read
    · exact mismatch
  · split
    case h_4 => exact mismatch
    all_goals
      rename_i hkind
      exact absurd hkind (ne_of_isStopper hstop)

theorem genericInvocation_carries :
    W.Carries e n i Production.genericInvocation Production.genericInvocation :=
  andThen read <| andThen callOrSuper_carries close

end Window

end JavaSource.Grammar
