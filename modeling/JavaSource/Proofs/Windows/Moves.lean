import JavaSource.Proofs.Windows

/-!
# Moves in a window

Moves that start in a window lead to the same in both sources, as long as they end some symbols in
front of its end.  How many symbols that are depends on what the moves ask for: a rule that is told
apart by a closing symbol has to end in front of the last symbol, and so have expressions if an
arrow stands behind the window, which may be taken for that of a lambda (`Window.margin`).

`W.Carries e n i m m'` says so of the moves `m` in the first source and `m'` in the second one,
from the place `i` of the window on, if `n` symbols are left behind them.

* `Carries.bind`, `Carries.loop`, `Carries.attempt`: the rules of this calculus, and one for each of
  the common moves.
-/

namespace JavaSource.Grammar

variable {α β : Type}

namespace Window

/-- One if an arrow right behind the window may be taken for that of a lambda at its end. -/
def slack (W : Window) : Nat := bif W.hasArrow && endsInHead W.inside then 1 else 0

/-- One if it may also be taken for that of a lambda which starts at a place. -/
def slackAt (W : Window) (i : Nat) : Nat :=
  bif W.hasArrow && isHead (W.inside.drop i) then 1 else W.slack

/-- How many symbols of the window are left at least behind a rule that is the same in both sources,
where the rule is read at a place. -/
def margin (W : Window) (i : Nat) : Rule → Nat
  | .expression => W.slackAt i
  | .lambda | .ternary | .binary _ | .unary | .caseItem | .switchLabel => W.slack
  | .qualifiedName | .modifiers | .annotations | .annotationUse | .type | .bareType | .resultType
  | .classType | .coit | .typeArguments | .typeArgument | .dim | .modifiedType | .classBody _
  | .formalParameters _ | .arrayInitializer | .block | .switchBlock | .pattern | .lambdaParameters
  | .castHead | .postfixed | .primary | .selected | .methodCall | .arguments | .superAccess
  | .genericInvocation | .dimExpr => 0
  | _ => 1

@[simp] theorem slack_swap (W : Window) : W.swap.slack = W.slack := by
  rw [slack, slack, hasArrow_swap]
  rfl

@[simp] theorem margin_swap (W : Window) (i : Nat) (r : Rule) :
    W.swap.margin i r = W.margin i r := by
  have hat : W.swap.slackAt i = W.slackAt i := by
    rw [slackAt, slackAt, hasArrow_swap, slack_swap]
    rfl
  cases r <;> simp only [margin, slack_swap, hat]

theorem slack_le_one (W : Window) : W.slack ≤ 1 := by
  unfold slack
  cases W.hasArrow && endsInHead W.inside <;> decide

theorem slackAt_le_one (W : Window) (i : Nat) : W.slackAt i ≤ 1 := by
  unfold slackAt
  cases W.hasArrow && isHead (W.inside.drop i)
  · exact W.slack_le_one
  · exact Nat.le_refl 1

variable {W : Window} {e : Entry} {n i j w : Nat}

theorem slack_le_slackAt : W.slack ≤ W.slackAt i := by
  unfold slackAt
  cases W.hasArrow && isHead (W.inside.drop i)
  · exact Nat.le_refl _
  · exact W.slack_le_one

/-- Behind a symbol that leads the last part of an expression, no other arrow is taken for that of a
lambda. -/
theorem slackAt_behind {p : Option Phrase} (hn : W.slack ≤ n) (h : i < W.size)
    (hkind : leadsLast (W.view i p).kind = true) : W.slackAt (i + 1) ≤ n := by
  refine Nat.le_trans (Nat.le_of_eq ?_) hn
  have hsplit : W.inside = W.inside.take i ++ (W.view i p).at_ 0 :: W.inside.drop (i + 1) := by
    rw [← drop_inside h, List.take_append_drop]
  unfold slackAt slack
  cases hends : endsInHead W.inside with
  | true => cases W.hasArrow <;> cases isHead (W.inside.drop (i + 1)) <;> rfl
  | false =>
    rw [hsplit] at hends
    rw [isHead_eq_false hends hkind, Bool.and_false]
    rfl

theorem margin_le_one (r : Rule) : W.margin i r ≤ 1 := by
  have hslack := W.slack_le_one
  have hat := W.slackAt_le_one i
  cases r <;> simp [margin, hslack, hat]

theorem margin_probe (what : Probe) : W.margin i what.rule = 0 := by
  cases what <;> rfl

/-- What a rule takes at a place in the first source it takes in the second one too. -/
def Agrees (W : Window) (r : Rule) (i : Nat) : Prop :=
  ∀ parts j, j + W.margin i r ≤ W.size →
    r.Takes W.source (W.start + i) parts (W.start + j) →
      r.Takes W.swap.source (W.swap.start + i) parts (W.swap.start + j)

/-- A rule that starts in the window, where it starts in the first source. -/
def entry (W : Window) (e : Entry) : Entry := (e.1, W.start + e.2)

/-- All rules that a rule may have read or tried agree, in either direction. -/
def Below (W : Window) (e : Entry) : Prop :=
  ∀ r i, e.Allows r i → i ≤ W.size → W.Agrees r i ∧ W.swap.Agrees r i

theorem allows_entry {r : Rule} : (W.entry e).Allows r (W.start + i) ↔ e.Allows r i := by
  simp only [Entry.Allows, entry, Nat.add_lt_add_iff_left, Nat.add_left_cancel_iff]

/-- What moves lead to in the first source, other moves lead to in the second one, provided that
some symbols of the window are left behind them. -/
def Carries (W : Window) (e : Entry) (n i : Nat) (m m' : Move α) : Prop :=
  W.Proper → W.Below e → ∀ parts a j ps, j + n ≤ W.size →
    m.Leads W.source (W.entry e) ⟨W.start + i, parts⟩ a ⟨W.start + j, ps⟩ →
      m'.Leads W.swap.source (W.swap.entry e) ⟨W.swap.start + i, parts⟩ a ⟨W.swap.start + j, ps⟩

/-! ### What is left

Instances tell, for the rules and symbols at hand, that enough of the window is left behind them. -/

/-- Whether a rule need not leave any of the window. -/
abbrev isClosed : Rule → Bool
  | .qualifiedName | .modifiers | .annotations | .annotationUse | .type | .bareType | .resultType
  | .classType | .coit | .typeArguments | .typeArgument | .dim | .modifiedType | .classBody _
  | .formalParameters _ | .arrayInitializer | .block | .switchBlock | .pattern | .lambdaParameters
  | .castHead | .postfixed | .primary | .selected | .methodCall | .arguments | .superAccess
  | .genericInvocation | .dimExpr => true
  | _ => false

theorem margin_of_isClosed (r : Rule) [h : Settled (isClosed r)] (i : Nat) : W.margin i r = 0 := by
  cases r <;> first | rfl | cases h.eq

/-- So many symbols are as many as a rule has to leave, wherever it is read. -/
class Spares (W : Window) (r : Rule) (n : Nat) : Prop where
  margin_le : ∀ i, W.margin i r ≤ n

instance {r : Rule} [Settled (isClosed r)] : W.Spares r n :=
  ⟨fun i => margin_of_isClosed r i ▸ Nat.zero_le n⟩

instance {r : Rule} : W.Spares r (n + 1) :=
  ⟨fun _ => Nat.le_trans (margin_le_one r) (Nat.le_add_left 1 n)⟩

/-- With so many symbols left, a symbol of some kind is told from what stands behind the window. -/
class Sees (kind : TokenKind) (n : Nat) : Prop where
  inner_or_pos : Settled kind.isInner ∨ 0 < n

instance {kind : TokenKind} [h : Settled kind.isInner] : Sees kind n := ⟨.inl h⟩

instance {kind : TokenKind} : Sees kind (n + 1) := ⟨.inr (Nat.succ_pos n)⟩

/-! ### What is asked -/

/-- A question has the same answer in both sources where some symbols of the window are left. -/
def Asks (W : Window) (n : Nat) (question : Ahead → Bool) : Prop :=
  W.Proper → ∀ i last, i + n ≤ W.size → question (W.view i last) = question (W.swap.view i last)

namespace Asks

variable {q q' : Ahead → Bool} {kind : TokenKind}

theorem const {b : Bool} : W.Asks n fun _ => b := fun _ _ _ _ => rfl

theorem not (h : W.Asks n q) : W.Asks n fun a => !q a :=
  fun hW i last hi => congrArg (!·) (h hW i last hi)

theorem and (h : W.Asks n q) (h' : W.Asks n q') : W.Asks n fun a => q a && q' a :=
  fun hW i last hi => and_eq_and (h hW i last hi) fun _ => h' hW i last hi

theorem or (h : W.Asks n q) (h' : W.Asks n q') : W.Asks n fun a => q a || q' a :=
  fun hW i last hi => congr (congrArg _ (h hW i last hi)) (h' hW i last hi)

theorem kindAt [Settled kind.isInner] : W.Asks n fun a => a.kindAt n == kind :=
  fun hW _ _ hi => beq_eq hW hi

/-- A stopper has to be told from what stands behind the window. -/
theorem isAt [h : Sees kind n] : W.Asks n (·.isAt kind) :=
  fun hW i last hi => by
    rcases h.inner_or_pos with h | h
    · exact isAt_eq hW (Nat.le_of_add_right_le hi)
    · exact isAt_inside (Nat.lt_of_lt_of_le (Nat.lt_add_of_pos_right h) hi)

/-- Behind a symbol of the window one may look further. -/
theorem isAtAnd [Settled kind.isInner] (hq : W.Asks 1 q) :
    W.Asks n fun a => a.isAt kind && q a :=
  fun hW i last hi => and_eq_and (isAt_eq hW (Nat.le_of_add_right_le hi)) fun hat =>
    hq hW i last (lt_of_beq (n := 0) hW (Nat.le_of_add_right_le hi) hat)

theorem isAtWord {word : String} : W.Asks n (·.isAtWord word) :=
  fun hW _ _ hi => isAtWord_eq hW (Nat.le_of_add_right_le hi) word

theorem isAtWordAnd {word : String} (hq : W.Asks 1 q) :
    W.Asks n fun a => a.isAtWord word && q a :=
  fun hW i last hi => and_eq_and (isAtWord_eq hW (Nat.le_of_add_right_le hi) word) fun hat =>
    hq hW i last (lt_of_isAtWord hW (Nat.le_of_add_right_le hi) hat)

theorem test (test : TokenKind → Bool) (htest : stoppers.any test = false) :
    W.Asks n fun a => test a.kind :=
  fun hW _ _ hi => (kindAt_same (n := 0) hW (Nat.le_of_add_right_le hi)).test test htest

theorem startsAnnotation : W.Asks n Ahead.startsAnnotation :=
  fun hW _ _ hi => startsAnnotation_eq hW (Nat.le_of_add_right_le hi)

theorem isAtModifierWord : W.Asks n Ahead.isAtModifierWord :=
  fun hW _ _ hi => isAtModifierWord_eq hW (Nat.le_of_add_right_le hi)

theorem startsModifier : W.Asks n Ahead.startsModifier :=
  fun hW _ _ hi => startsModifier_eq hW (Nat.le_of_add_right_le hi)

theorem startsDim : W.Asks n Ahead.startsDim :=
  fun hW _ _ hi => startsDim_eq hW (Nat.le_of_add_right_le hi)

theorem mayStartType : W.Asks n Ahead.mayStartType :=
  fun hW _ _ hi => mayStartType_eq hW (Nat.le_of_add_right_le hi)

theorem startsTypeDeclaration : W.Asks n Ahead.startsTypeDeclaration :=
  fun hW _ _ hi => startsTypeDeclaration_eq hW (Nat.le_of_add_right_le hi)

theorem startsRecord : W.Asks n Ahead.startsRecord :=
  fun hW _ _ hi => startsRecord_eq hW (Nat.le_of_add_right_le hi)

theorem startsYield : W.Asks 2 Ahead.startsYield := fun _ _ _ hi => startsYield_eq hi

/-- A question may be asked about what stands further on in the window. -/
theorem skip (h : W.Asks 0 q) (last : Option Phrase) (hW : W.Proper) (hi : i + w ≤ W.size) :
    q ((W.view i last).skip w) = q ((W.swap.view i last).skip w) := by
  rw [skip_view, skip_view]
  exact h hW (i + w) last hi

end Asks

/-! ### What is tried -/

/-- Nothing that is tried reaches beyond the window. -/
theorem probe_le (what : Probe) (hW : W.Proper) {parts : List Tree} (hi : i ≤ W.size)
    (h : what.rule.Takes W.source (W.start + i) parts (W.start + j)) : j ≤ W.size := by
  refine Nat.le_of_not_lt fun hlt => ?_
  obtain ⟨x, behind, hbehind, hstopper⟩ := hW.exists_behind
  -- What is taken goes on to the stopper behind the window.
  have hkinds : kindsBetween W.symbols (W.start + i) (W.start + j) =
      (W.inside.drop i).map Symbol.kind ++
        x.kind :: (behind.take (j - W.size - 1)).map Symbol.kind := by
    have htake : (W.symbols.take (W.start + j)) =
        W.before ++ (W.inside ++ x :: behind.take (j - W.size - 1)) := by
      rw [symbols, start, List.take_length_add_append, List.take_append,
        List.take_of_length_le (Nat.le_of_lt hlt), hbehind,
        show j - W.inside.length = (j - W.size - 1) + 1 by unfold size at hlt ⊢; omega,
        List.take_succ_cons]
    rw [kindsBetween, htake, start, ← List.drop_drop, List.drop_left,
      List.drop_append_of_le_length hi, List.map_append, List.map_cons]
  have hbarren := hW.scanned.barren h (clear hW hi)
  rw [hkinds, parensBehind_append] at hbarren
  obtain ⟨opened, hinside, hrest⟩ := Option.bind_eq_some_iff.mp hbarren
  obtain ⟨next, hx, -⟩ := Option.bind_eq_some_iff.mp hrest
  -- Up to there as many are closed as were open.
  have hnested := hW.nested
  rw [← List.take_append_drop i W.inside, List.map_append, parensBehind_append] at hnested
  obtain ⟨before, -, hrest⟩ := Option.bind_eq_some_iff.mp hnested
  have hzero : opened = 0 := by
    have hshift := parensBehind_add (parensBehind_lax hinside) before
    rw [Nat.zero_add, hrest] at hshift
    exact Nat.eq_zero_of_add_eq_zero_right (Option.some.inj hshift).symm
  subst hzero
  rw [TokenKind.parens_stopper hstopper] at hx
  cases hx

/-! ### The calculus -/

theorem stand_inj {parts ps : List Tree}
    (h : (⟨W.start + j, ps⟩ : Stand) = ⟨W.start + i, parts⟩) : j = i ∧ ps = parts :=
  ⟨Nat.add_left_cancel (congrArg Stand.read h), congrArg Stand.parts h⟩

namespace Carries

variable {c : Nat} {m m' : Move α} {f f' : α → Move β} {p p' : Move β} {kind : TokenKind}

/-- What moves read at least stands in the window. -/
theorem room (hreads : m.Reads c) (h : W.Proper → i + c + n ≤ W.size → W.Carries e n i m m') :
    W.Carries e n i m m' := by
  intro hW hB parts a j ps hj hleads
  have hle : W.start + i ≤ W.start + j := hleads.le
  have hread : W.start + i + c ≤ W.start + j :=
    hreads _ _ _ _ _ (whole hW) (clear hW (by omega)) hleads
  exact h hW (by omega) hW hB parts a j ps hj hleads

theorem within (h : W.Proper → i + n ≤ W.size → W.Carries e n i m m') : W.Carries e n i m m' :=
  room .none h

theorem mono {n' : Nat} (h : W.Carries e n i m m') (hle : n ≤ n') : W.Carries e n' i m m' :=
  fun hW hB parts a j ps hj => h hW hB parts a j ps (Nat.le_trans (Nat.add_le_add_left hle j) hj)

theorem bind (hm : W.Carries e (n + c) i m m') (hreads : ∀ a, (f a).Reads c)
    (hf : ∀ a k, i ≤ k → W.Carries e n k (f a) (f' a)) :
    W.Carries e n i (m >>= f) (m' >>= f') := by
  intro hW hB parts b j ps hj hleads
  obtain ⟨a, ⟨k', qs⟩, hm', hrest⟩ := Move.leads_bind.mp hleads
  obtain ⟨k, rfl⟩ : ∃ k, k' = W.start + k :=
    Nat.exists_eq_add_of_le (Nat.le_trans (Nat.le_add_right ..) hm'.le)
  have hle : W.start + i ≤ W.start + k := hm'.le
  have hle' : W.start + k ≤ W.start + j := hrest.le
  have hread : W.start + k + c ≤ W.start + j :=
    hreads a _ _ _ _ _ (whole hW) (clear hW (by omega)) hrest
  exact Move.leads_bind.mpr ⟨a, _, hm hW hB parts a k qs (by omega) hm',
    hf a k (by omega) hW hB qs b j ps hj hrest⟩

/-- Moves, and then others that need not read anything. -/
theorem andThen {m m' : Move Unit} (hm : W.Carries e n i m m')
    (hp : ∀ {k}, W.Carries e n k p p') : W.Carries e n i (do m; p) (do m'; p') :=
  bind (c := 0) hm (fun _ => .none) fun _ _ _ => hp

/-- Moves, and then others that read something. -/
theorem thenReads {m m' : Move Unit} (hm : W.Carries e (n + 1) i m m') (hreads : p.Reads 1)
    (hp : ∀ {k}, W.Carries e n k p p') : W.Carries e n i (do m; p) (do m'; p') :=
  bind hm (fun _ => hreads) fun _ _ _ => hp

theorem pure {a : α} : W.Carries e n i (Pure.pure a) (Pure.pure a) := by
  rintro hW hB parts b j ps hj ⟨rfl, hstand⟩
  obtain ⟨rfl, rfl⟩ := stand_inj hstand
  exact ⟨rfl, rfl⟩

theorem fail {why : Refusal} : W.Carries e n i (Move.fail why : Move α) m' :=
  fun _ _ _ _ _ _ _ hleads => hleads.elim

theorem mismatch {expecting : String} : W.Carries e n i (Move.mismatch expecting : Move α) m' :=
  fail

theorem refuse {place : Nat} {why : Refusal} : W.Carries e n i (Move.refuse place why) m' :=
  fun _ _ _ _ _ _ _ hleads => hleads.elim

theorem close {kind : Phrase} : W.Carries e n i (Move.close kind) (Move.close kind) := by
  rintro hW hB parts b j ps hj ⟨rfl, hstand⟩
  obtain ⟨rfl, rfl⟩ := stand_inj hstand
  refine ⟨rfl, congrArg (Stand.mk _) ?_⟩
  rw [source, source, Source.location_ofSymbols, Source.location_ofSymbols]

theorem nest : W.Carries e n i Move.nest Move.nest := pure

theorem nestThen (h : W.Carries e n i p p') :
    W.Carries e n i (do Move.nest; p) (do Move.nest; p') := h

theorem ahead {f f' : Ahead → Move α}
    (h : W.Proper → i + n ≤ W.size → ∀ last,
      W.Carries e n i (f (W.view i last)) (f' (W.swap.view i last))) :
    W.Carries e n i (Move.ahead >>= f) (Move.ahead >>= f') :=
  within fun hW hi hW' hB parts a j ps hj hleads => h hW hi _ hW' hB parts a j ps hj hleads

theorem ite {b b' : Bool} {q q' : Move α} (hb : b = b') (hm : b = true → W.Carries e n i m m')
    (hq : b = false → W.Carries e n i q q') :
    W.Carries e n i (if b then m else q) (if b' then m' else q') := by
  subst hb
  cases b with
  | true => exact hm rfl
  | false => exact hq rfl

/-- A symbol is read, and moves go on behind it. -/
theorem takeThen (h : W.Carries e n (i + 1) p p') :
    W.Carries e n i (do Move.take; p) (do Move.take; p') := by
  rintro hW hB parts b j ps hj ⟨hkind, hleads⟩
  have hle : W.start + i + 1 ≤ W.start + j := Move.Leads.le hleads
  have hi : i < W.size := by omega
  have htoken : W.source.tokenAt (W.start + i) = W.swap.source.tokenAt (W.swap.start + i) :=
    (tokenAt_start hi).trans (tokenAt_start (W := W.swap) hi).symm
  rw [htoken] at hkind hleads
  exact ⟨hkind, h hW hB _ b j ps hj hleads⟩

theorem take : W.Carries e n i Move.take Move.take := takeThen pure

theorem joined {width : Nat} :
    W.Carries e n i (Move.joined kind width) (Move.joined kind width) := by
  rintro hW hB parts b j ps hj ⟨t, hjoined, -, rfl, hstand⟩
  have hassoc (V : Window) : V.start + i + width = V.start + (i + width) := Nat.add_assoc ..
  obtain ⟨rfl, rfl⟩ := stand_inj (hstand.trans (congrArg (Stand.mk · _) (hassoc W)))
  have hi : i + width ≤ W.size := Nat.le_of_add_right_le hj
  exact ⟨t, (joined_eq hi).symm.trans hjoined,
    (hassoc W.swap).symm ▸ clear (W := W.swap) hW.swap hi, rfl,
    congrArg (Stand.mk · _) (hassoc W.swap).symm⟩

/-- A rule is read where it agrees. -/
theorem readWithin {r : Rule} (hmargin : W.margin i r ≤ n) :
    W.Carries e n i (Move.read r) (Move.read r) := by
  rintro hW hB parts b j ps hj ⟨new, k, hallows, htakes, rfl, hstand⟩
  obtain ⟨rfl, rfl⟩ := Stand.mk.inj hstand
  have hle : W.start + i ≤ W.start + j := htakes.le
  have hallows' := allows_entry.mp hallows
  exact ⟨new, _, allows_entry.mpr hallows',
    (hB r i hallows' (by omega)).1 new j (by omega) htakes, rfl, rfl⟩

theorem read {r : Rule} [h : W.Spares r n] : W.Carries e n i (Move.read r) (Move.read r) :=
  readWithin (h.margin_le i)

/-- A rule is read, and moves go on behind it. -/
theorem readThen {r : Rule} [W.Spares r n] {p p' : Move α}
    (h : ∀ parts k, r.Takes W.source (W.start + i) parts (W.start + k) → W.Carries e n k p p') :
    W.Carries e n i (do Move.read r; p) (do Move.read r; p') := by
  intro hW hB parts b j ps hj hleads
  obtain ⟨_, _, hread, hrest⟩ := Move.leads_bind.mp hleads
  have hfirst := hread
  obtain ⟨new, k', -, htakes, -, rfl⟩ := hread
  obtain ⟨k, rfl⟩ := Nat.exists_eq_add_of_le (Nat.le_trans (Nat.le_add_right ..) htakes.le)
  have hle : W.start + k ≤ W.start + j := hrest.le
  exact Move.leads_bind.mpr ⟨_, _, read (n := n) hW hB parts _ k _ (by omega) hfirst,
    h new k htakes hW hB _ b j ps hj hrest⟩

/-- What is tried is found to be as wide in both sources. -/
theorem attemptTakes {what : Probe} {f f' : Option Nat → Move α}
    (h : ∀ found, (∀ width, found = some width → ∃ parts,
        what.rule.Takes W.source (W.start + i) parts (W.start + (i + width))) →
      W.Carries e n i (f found) (f' found)) :
    W.Carries e n i (Move.attempt what >>= f) (Move.attempt what >>= f') := by
  rintro hW hB parts a j ps hj ⟨found, hallows, hfinds, hleads⟩
  have hle : W.start + i ≤ W.start + j := Move.Leads.le hleads
  have hi : i ≤ W.size := by omega
  have hallows' := allows_entry.mp hallows
  obtain ⟨hagrees, hagrees'⟩ := hB what.rule i hallows' hi
  have htakes (width : Nat) (heq : found = some width) : ∃ parts,
      what.rule.Takes W.source (W.start + i) parts (W.start + (i + width)) := by
    subst heq
    rw [← Nat.add_assoc]
    exact hfinds
  refine ⟨found, allows_entry.mpr hallows', ?_, h found htakes hW hB parts a j ps hj hleads⟩
  cases found with
  | some width =>
    obtain ⟨new, htakes⟩ := htakes width rfl
    refine ⟨new, ?_⟩
    rw [Nat.add_assoc]
    exact hagrees new (i + width) (by rw [margin_probe]; exact probe_le what hW hi htakes) htakes
  | none =>
    -- What would be found in the second source would be found in the first one.
    intro new k htakes'
    obtain ⟨j', rfl⟩ := Nat.exists_eq_add_of_le (Nat.le_trans (Nat.le_add_right ..) htakes'.le)
    have hj' : j' ≤ W.size := probe_le (W := W.swap) what hW.swap hi htakes'
    exact hfinds new _ (hagrees' new j' (by rw [margin_probe]; exact hj') htakes')

/-- What is tried lies in the window. -/
theorem attempt {what : Probe} {f f' : Option Nat → Move α}
    (h : ∀ found, (∀ width, found = some width → i + width ≤ W.size) →
      W.Carries e n i (f found) (f' found)) :
    W.Carries e n i (Move.attempt what >>= f) (Move.attempt what >>= f') :=
  within fun hW hi => attemptTakes fun found htakes => h found fun width heq =>
    have ⟨_, htakes⟩ := htakes width heq
    probe_le what hW (Nat.le_of_add_right_le hi) htakes

theorem loop {body body' : Move Bool} (h : ∀ {k}, W.Carries e n k body body') :
    W.Carries e n i (Move.loop body) (Move.loop body') := by
  rintro hW hB parts b j ps hj ⟨s, hturns, rfl, rfl⟩
  suffices hturns' : Turns (body'.Leads W.swap.source (W.swap.entry e))
      ⟨W.swap.start + i, parts⟩ ⟨W.swap.start + j, ps⟩ from ⟨_, hturns', rfl, rfl⟩
  generalize hfrom : (⟨W.start + i, parts⟩ : Stand) = s at hturns
  generalize hto : (⟨W.start + j, ps⟩ : Stand) = s' at hturns
  induction hturns generalizing i parts with
  | last hbody =>
    subst hfrom hto
    exact .last (h hW hB parts false j ps hj hbody)
  | @more s s₁ s' hbody forward rest ih =>
    subst hfrom hto
    obtain ⟨k', qs⟩ := s₁
    obtain ⟨k, rfl⟩ := Nat.exists_eq_add_of_le
      (Nat.le_trans (Nat.le_add_right ..) (Nat.le_of_lt forward))
    have hle : W.start + k ≤ W.start + j := rest.le fun _ _ _ hbody => hbody.le
    have hlt : W.start + i < W.start + k := forward
    refine .more (h hW hB parts true k qs (by omega) hbody) ?_ (ih qs rfl rfl)
    exact Nat.add_lt_add_left (Nat.lt_of_add_lt_add_left hlt) _

/-! ### Common moves -/

theorem ask {q : Ahead → Bool} {last : Option Phrase} {r r' : Move α} (hq : W.Asks n q)
    (hm : q (W.view i last) = true → W.Carries e n i m m')
    (hr : q (W.view i last) = false → W.Carries e n i r r') :
    W.Carries e n i (if q (W.view i last) then m else r)
      (if q (W.swap.view i last) then m' else r') :=
  within fun hW hi => ite (hq hW i last hi) hm hr

/-- Goes on by a question. -/
theorem aheadAsk {q : Ahead → Bool} {r r' : Move α} (hq : W.Asks n q)
    (hm : W.Carries e n i m m') (hr : W.Carries e n i r r') :
    W.Carries e n i (do if q (← Move.ahead) then m else r)
      (do if q (← Move.ahead) then m' else r') :=
  ahead fun _ _ _ => ask hq (fun _ => hm) fun _ => hr

theorem isAt [Sees kind n] {f f' : Bool → Move α} (h : ∀ b, W.Carries e n i (f b) (f' b)) :
    W.Carries e n i (Move.isAt kind >>= f) (Move.isAt kind >>= f') :=
  ahead fun hW hi last => by
    have heq : (W.view i last).isAt kind = (W.swap.view i last).isAt kind :=
      Asks.isAt hW i last hi
    exact heq ▸ h _

/-- A symbol of some kind is read, and moves go on behind it. -/
theorem expectThen (h : i < W.size → (∀ last, (W.view i last).kindAt 0 = kind) →
      W.Carries e n (i + 1) p p') :
    W.Carries e n i (do Move.expect kind; p) (do Move.expect kind; p') :=
  room (.first .expect) fun _ hi => ahead fun _ _ last => by
    have hlt : i < W.size := Nat.le_of_add_right_le hi
    have heq : (W.view i last).isAt kind = (W.swap.view i last).isAt kind := isAt_inside hlt
    change W.Carries e n i
      ((if (W.view i last).isAt kind then Move.take else Move.mismatch kind.describe) >>=
        fun _ => p)
      ((if (W.swap.view i last).isAt kind then Move.take else Move.mismatch kind.describe) >>=
        fun _ => p')
    rw [← heq]
    cases hat : (W.view i last).isAt kind with
    | false => exact mismatch
    | true => exact takeThen (h hlt fun _ => beq_iff_eq.mp hat)

theorem expect : W.Carries e n i (Move.expect kind) (Move.expect kind) :=
  room .expect fun _ hi => ahead fun _ _ _ =>
    ite (isAt_inside (Nat.le_of_add_right_le hi)) (fun _ => take) fun _ => mismatch

theorem expectWord {word : String} :
    W.Carries e n i (Move.expectWord word) (Move.expectWord word) :=
  aheadAsk .isAtWord take mismatch

theorem takeTwo : W.Carries e n i Move.takeTwo Move.takeTwo := andThen take take

theorem provided {q : Ahead → Bool} {moves moves' : Move Unit} (hq : W.Asks n q)
    (hm : W.Carries e n i moves moves') :
    W.Carries e n i (Move.provided q moves) (Move.provided q moves') :=
  aheadAsk hq hm pure

theorem eat [Sees kind n] : W.Carries e n i (Move.eat kind) (Move.eat kind) :=
  aheadAsk .isAt (andThen take pure) pure

/-- Goes on by whether a symbol was read. -/
theorem ifEaten [Sees kind n] {r r' : Move α} (hm : ∀ {k}, W.Carries e n k m m')
    (hr : ∀ {k}, W.Carries e n k r r') :
    W.Carries e n i (do if ← Move.eat kind then m else r)
      (do if ← Move.eat kind then m' else r') :=
  bind (c := 0) eat (fun _ => .none) fun _ _ _ => ite rfl (fun _ => hm) fun _ => hr

section Rules

variable {r : Rule} [W.Spares r n]

theorem readWhile {q : Ahead → Bool} (hq : W.Asks n q) :
    W.Carries e n i (Move.readWhile q r) (Move.readWhile q r) :=
  loop <| aheadAsk hq (andThen read pure) pure

theorem commasUpTo {q : Ahead → Bool} (hq : W.Asks n q) :
    W.Carries e n i (Move.commasUpTo q r) (Move.commasUpTo q r) :=
  loop <| aheadAsk hq pure (andThen read eat)

variable [Sees kind n]

theorem readAt : W.Carries e n i (Move.readAt kind r) (Move.readAt kind r) :=
  aheadAsk .isAt read pure

theorem readAfter : W.Carries e n i (Move.readAfter kind r) (Move.readAfter kind r) :=
  ifEaten read pure

theorem separated : W.Carries e n i (Move.separated kind r) (Move.separated kind r) :=
  andThen read <| loop <| ifEaten (andThen read pure) pure

end Rules

end Carries

end Window

end JavaSource.Grammar
