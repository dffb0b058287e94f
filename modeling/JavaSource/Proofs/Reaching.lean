import JavaSource.Proofs.Limit

/-!
# Where moves lead

A logic of success.  `m.Reaches bound Q s` says that the moves `m` come to an end from the state
`s`, with a value and a state that satisfy `Q`, if only the limit is large enough; what they read
has less work to do than `bound`.  How large the limit has to be is never told.

What a probe finds is not told either, but it is told that it was found by carrying out a rule
somewhere, also where it is remembered (`Source.Knows`).

* `Rule.run_sound`: whatever is carried out, only what can be found is remembered.
* `Reaches.bind`, `Reaches.read`, `Reaches.attempt`: moves in a row, reading a rule, and probing.
* `Loops.stop`, `Loops.go`, `Loops.reaches`: a loop, turn by turn.
-/

namespace JavaSource.Grammar

variable {source : Source} {limit bound : Nat} {α β : Type}

/-! ### Moves in a row -/

/-- What comes of going on where moves lead. -/
def Outcome.andThen : Outcome α → (α → State → Outcome β) → Outcome β
  | .done value s,           f => f value s
  | .refused place why memo, _ => .refused place why memo

theorem Outcome.andThen_eq_done {o : Outcome α} {f : α → State → Outcome β} {value : β}
    {s : State} (h : o.andThen f = .done value s) :
    ∃ first s₁, o = .done first s₁ ∧ f first s₁ = .done value s := by
  cases o with
  | done first s₁ => exact ⟨first, s₁, rfl, h⟩
  | refused place why memo => cases h

theorem Move.run_bind {other : Rule → State → Outcome Unit} (m : Move α) (f : α → Move β)
    (s : State) : (m >>= f).run source limit other s =
      (m.run source limit other s).andThen fun value s' => (f value).run source limit other s' := by
  induction m generalizing s with
  | done value => rfl
  | look next ih => exact ih _ f s
  | shift next ih =>
    change (Move.shift (next >>= f)).run source limit other s = _
    simp only [run]
    cases source.tokens[s.read]? with
    | none => rfl
    | some t =>
      dsimp only
      split
      · rfl
      · exact ih f _
  | join kind width next ih =>
    change (Move.join kind width (next >>= f)).run source limit other s = _
    simp only [run]
    cases source.joined kind s.read width with
    | none => rfl
    | some t => exact ih f _
  | call rule next ih =>
    change (Move.call rule (next >>= f)).run source limit other s = _
    simp only [run]
    cases other rule { s with parts := [] } with
    | refused place why memo => rfl
    | done value s' => exact ih f _
  | probe what next ih =>
    change (Move.probe what fun width => next width >>= f).run source limit other s = _
    simp only [run]
    cases s.memo.lookup (s.read, what) with
    | some width => exact ih width f s
    | none =>
      cases other what.rule { s with parts := [] } with
      | refused place why memo => exact ih none f _
      | done value s' => exact ih _ f _
  | wrap kind next ih => exact ih f _
  | deepen next ih =>
    change (Move.deepen (next >>= f)).run source limit other s = _
    simp only [run]
    split
    · exact ih f _
    · rfl
  | iterate body next _ ih =>
    change (Move.iterate body (next >>= f)).run source limit other s = _
    simp only [run]
    cases Outcome.iterate (body.run source limit other) source.tokens.size s with
    | refused place why memo => rfl
    | done value s' => exact ih f s'
  | refuse place why => rfl

/-- How rules are carried out for a rule that has some work to do. -/
def Source.others (source : Source) (limit bound : Nat) (r : Rule) (s : State) : Outcome Unit :=
  if source.work r s.read < bound then r.run source limit s
  else .refused s.read Refusal.noViableAlternative s.memo

theorem Rule.run_production (r : Rule) (s : State) : r.run source limit s =
    r.production.run source limit (source.others limit (source.work r s.read)) s := by
  rw [run]
  rfl

/-! ### What is remembered -/

/-- A probe can find something at a place: its rule reads so many tokens there. -/
def Source.Finds (source : Source) (what : Probe) (place width : Nat) : Prop :=
  ∃ limit s s', s.read = place ∧ what.rule.run source limit s = .done () s' ∧
    s'.read - place = width

/-- Only what can be found is remembered. -/
def Source.Knows (source : Source) (memo : Memo) : Prop :=
  ∀ place what width, ((place, what), some width) ∈ memo → source.Finds what place width

/-- Something that stays true of what is remembered when a trial is. -/
structure Source.Keeps (source : Source) (K : Memo → Prop) : Prop where
  failed : ∀ {memo : Memo} (place : Nat × Probe), K memo → K ((place, none) :: memo)
  found : ∀ {memo : Memo} {what : Probe} {place width : Nat}, source.Finds what place width →
    K memo → K (((place, what), some width) :: memo)

theorem Source.keeps_knows : source.Keeps source.Knows where
  failed := fun _ h _ _ _ hmem => h _ _ _ ((List.mem_cons.mp hmem).resolve_left nofun)
  found := fun hfinds h _ _ _ hmem => by
    rcases List.mem_cons.mp hmem with heq | hmem
    · cases heq
      exact hfinds
    · exact h _ _ _ hmem

theorem Source.knows_nil : source.Knows [] := fun _ _ _ h => nomatch h

/-- Moves go forward from a place, and keep something true of what is remembered. -/
def Outcome.Sound (K : Memo → Prop) (place : Nat) : Outcome α → Prop
  | .done _ s         => place ≤ s.read ∧ K s.memo
  | .refused _ _ memo => K memo

section

variable {K : Memo → Prop}

theorem Outcome.Sound.mono {place place' : Nat} {o : Outcome α} (h : o.Sound K place')
    (hle : place ≤ place') : o.Sound K place := by
  cases o with
  | done value s => exact ⟨Nat.le_trans hle h.1, h.2⟩
  | refused place why memo => exact h

theorem Outcome.iterate_sound {step : State → Outcome Bool}
    (hstep : ∀ s : State, K s.memo → (step s).Sound K s.read) (fuel : Nat) {s : State}
    (hs : K s.memo) : (Outcome.iterate step fuel s).Sound K s.read := by
  induction fuel generalizing s with
  | zero => exact ⟨Nat.le_refl _, hs⟩
  | succ fuel ih =>
    have hsound := hstep s hs
    simp only [iterate]
    cases ho : step s with
    | refused place why memo =>
      rw [ho] at hsound
      exact hsound
    | done more s' =>
      rw [ho] at hsound
      cases more with
      | false => exact hsound
      | true =>
        dsimp only
        split
        · exact (ih hsound.2).mono hsound.1
        · exact hsound

theorem Move.run_sound (hK : source.Keeps K) {other : Rule → State → Outcome Unit}
    (hother : ∀ r (s : State), K s.memo → (other r s).Sound K s.read)
    (hfinds : ∀ (what : Probe) s s', other what.rule s = .done () s' →
      source.Finds what s.read (s'.read - s.read))
    (m : Move α) {s : State} (hs : K s.memo) :
    (m.run source limit other s).Sound K s.read := by
  induction m generalizing s with
  | done value => exact ⟨Nat.le_refl _, hs⟩
  | look next ih => exact ih _ hs
  | shift next ih =>
    simp only [run]
    cases source.tokens[s.read]? with
    | none => exact hs
    | some t =>
      dsimp only
      split
      · exact hs
      · exact (@ih { s with read := s.read + 1, parts := .leaf t :: s.parts } hs).mono
          (Nat.le_succ _)
  | join kind width next ih =>
    simp only [run]
    cases source.joined kind s.read width with
    | none => exact hs
    | some t =>
      exact (@ih { s with read := s.read + width, parts := .leaf t :: s.parts } hs).mono
        (Nat.le_add_right ..)
  | call rule next ih =>
    have hsound := hother rule { s with parts := [] } hs
    simp only [run]
    cases ho : other rule { s with parts := [] } with
    | refused place why memo =>
      rw [ho] at hsound
      exact hsound
    | done value s' =>
      rw [ho] at hsound
      exact (@ih { s with read := s'.read, parts := s'.parts ++ s.parts, memo := s'.memo }
        hsound.2).mono hsound.1
  | probe what next ih =>
    simp only [run]
    cases s.memo.lookup (s.read, what) with
    | some width => exact ih width hs
    | none =>
      have hsound := hother what.rule { s with parts := [] } hs
      cases ho : other what.rule { s with parts := [] } with
      | refused place why memo =>
        rw [ho] at hsound
        exact ih none (hK.failed _ hsound)
      | done value s' =>
        rw [ho] at hsound
        exact ih _ (hK.found (hfinds what { s with parts := [] } s' ho) hsound.2)
  | wrap kind next ih => exact ih hs
  | deepen next ih =>
    simp only [run]
    split
    · exact ih hs
    · exact hs
  | iterate body next ihb ih =>
    have hsound := Outcome.iterate_sound (fun s hs => ihb hs) source.tokens.size hs
    simp only [run]
    cases ho : Outcome.iterate (body.run source limit other) source.tokens.size s with
    | refused place why memo =>
      rw [ho] at hsound
      exact hsound
    | done value s' =>
      rw [ho] at hsound
      exact (ih hsound.2).mono hsound.1
  | refuse place why => exact hs

/-- **Carrying out a rule goes forward, and remembers only what can be found.** -/
theorem Rule.run_sound (hK : source.Keeps K) (r : Rule) {s : State} (hs : K s.memo) :
    (r.run source limit s).Sound K s.read := by
  rw [run]
  refine Move.run_sound hK (fun r' s' hs' => ?_) (fun what s₁ s₂ hrun => ?_) r.production hs
  · split
    · exact Rule.run_sound hK r' hs'
    · exact hs'
  · split at hrun
    · exact ⟨limit, s₁, s₂, rfl, hrun, rfl⟩
    · cases hrun
termination_by source.work r s.read

theorem Source.others_sound (hK : source.Keeps K) (r : Rule) {s : State} (hs : K s.memo) :
    (source.others limit bound r s).Sound K s.read := by
  rw [others]
  split
  · exact r.run_sound hK hs
  · exact hs

theorem Source.others_finds (what : Probe) {s s' : State}
    (h : source.others limit bound what.rule s = .done () s') :
    source.Finds what s.read (s'.read - s.read) := by
  rw [others] at h
  split at h
  · exact ⟨limit, s, s', rfl, h, rfl⟩
  · cases h

theorem Move.sound (hK : source.Keeps K) (m : Move α) {s : State} (hs : K s.memo) :
    (m.run source limit (source.others limit bound) s).Sound K s.read :=
  m.run_sound hK (fun r _ => Source.others_sound hK r) (fun what _ _ => Source.others_finds what) hs

end

/-! ### Success -/

/-- Moves come to an end as some others do, under every limit that is large enough. -/
def Move.Reaches (source : Source) (bound : Nat) (m : Move α) (Q : α → State → Prop) (s : State) :
    Prop :=
  source.Knows s.memo → ∃ value s', Q value s' ∧
    ∃ enough, ∀ limit, enough ≤ limit →
      m.run source limit (source.others limit bound) s = .done value s'

/-- A rule comes to an end under every limit that is large enough. -/
def Rule.Reaches (source : Source) (r : Rule) (Q : State → Prop) (s : State) : Prop :=
  source.Knows s.memo → ∃ s', Q s' ∧
    ∃ enough, ∀ limit, enough ≤ limit → r.run source limit s = .done () s'

theorem Rule.Reaches.of_production {r : Rule} {Q : State → Prop} {s : State}
    (h : r.production.Reaches source (source.work r s.read) (fun _ => Q) s) :
    r.Reaches source Q s := fun hs => by
  obtain ⟨_, s', hQ, enough, hrun⟩ := h hs
  exact ⟨s', hQ, enough, fun limit hle => (r.run_production s).trans (hrun limit hle)⟩

namespace Move.Reaches

variable {m : Move α} {f : α → Move β} {Q : β → State → Prop} {s : State}

theorem mono {P P' : α → State → Prop} (h : m.Reaches source bound P s)
    (hP : ∀ value s', P value s' → P' value s') : m.Reaches source bound P' s := fun hs => by
  obtain ⟨value, s', hQ, hrun⟩ := h hs
  exact ⟨value, s', hP _ _ hQ, hrun⟩

theorem pure {P : α → State → Prop} {value : α} (h : P value s) :
    (Pure.pure value : Move α).Reaches source bound P s := fun _ =>
  ⟨value, s, h, 0, fun _ _ => rfl⟩

theorem bind (h : m.Reaches source bound
    (fun value s' => (f value).Reaches source bound Q s') s) :
    (m >>= f).Reaches source bound Q s := fun hs => by
  obtain ⟨value, s₁, hnext, enough, hrun⟩ := h hs
  have hknows : source.Knows s₁.memo := by
    have hsound : (m.run source enough (source.others enough bound) s).Sound source.Knows s.read :=
      m.sound Source.keeps_knows hs
    rw [hrun enough (Nat.le_refl _)] at hsound
    exact hsound.2
  obtain ⟨value', s₂, hQ, enough', hrun'⟩ := hnext hknows
  refine ⟨value', s₂, hQ, max enough enough', fun limit hle => ?_⟩
  rw [m.run_bind, hrun limit (Nat.le_trans (Nat.le_max_left ..) hle)]
  exact hrun' limit (Nat.le_trans (Nat.le_max_right ..) hle)

theorem ahead {f : Ahead → Move β} (h : (f (source.ahead s)).Reaches source bound Q s) :
    (Move.ahead >>= f).Reaches source bound Q s := h

theorem isAt {kind : TokenKind} {f : Bool → Move β}
    (h : (f ((source.ahead s).isAt kind)).Reaches source bound Q s) :
    (Move.isAt kind >>= f).Reaches source bound Q s := h

theorem nest {f : Unit → Move β}
    (h : (f ()).Reaches source bound Q { s with depth := s.depth + 1 }) :
    (Move.nest >>= f).Reaches source bound Q s := fun hs => by
  obtain ⟨value, s', hQ, enough, hrun⟩ := h hs
  refine ⟨value, s', hQ, max enough (s.depth + 1), fun limit hle => ?_⟩
  have hdepth : s.depth < limit := Nat.le_trans (Nat.le_max_right ..) hle
  change (Move.deepen (f ())).run _ _ _ s = _
  rw [run, if_pos hdepth]
  exact hrun limit (Nat.le_trans (Nat.le_max_left ..) hle)

theorem take {f : Unit → Move β} {t : Token} (ht : source.tokens[s.read]? = some t)
    (hkind : t.kind ≠ .eof) (h : (f ()).Reaches source bound Q
      { s with read := s.read + 1, parts := .leaf t :: s.parts }) :
    (Move.take >>= f).Reaches source bound Q s := fun hs => by
  obtain ⟨value, s', hQ, enough, hrun⟩ := h hs
  refine ⟨value, s', hQ, enough, fun limit hle => ?_⟩
  change (Move.shift (f ())).run _ _ _ s = _
  simp only [run, ht, if_neg hkind]
  exact hrun limit hle

theorem joined {kind : TokenKind} {width : Nat} {f : Unit → Move β} {t : Token}
    (ht : source.joined kind s.read width = some t) (h : (f ()).Reaches source bound Q
      { s with read := s.read + width, parts := .leaf t :: s.parts }) :
    (Move.joined kind width >>= f).Reaches source bound Q s := fun hs => by
  obtain ⟨value, s', hQ, enough, hrun⟩ := h hs
  refine ⟨value, s', hQ, enough, fun limit hle => ?_⟩
  change (Move.join kind width (f ())).run _ _ _ s = _
  simp only [run, ht]
  exact hrun limit hle

theorem close {kind : Phrase} {f : Unit → Move β} (h : (f ()).Reaches source bound Q
      { s with parts := [Tree.ofParts kind s.parts.reverse (source.location s.read)] }) :
    (Move.close kind >>= f).Reaches source bound Q s := h

theorem read {r : Rule} {f : Unit → Move β} (hwork : source.work r s.read < bound)
    (h : r.Reaches source (fun s' => (f ()).Reaches source bound Q
      { s with read := s'.read, parts := s'.parts ++ s.parts, memo := s'.memo })
      { s with parts := [] }) :
    (Move.read r >>= f).Reaches source bound Q s := fun hs => by
  obtain ⟨s₁, hnext, enough, hrun⟩ := h hs
  have hknows : source.Knows s₁.memo := by
    have hsound : (r.run source enough { s with parts := [] }).Sound source.Knows s.read :=
      r.run_sound Source.keeps_knows hs
    rw [hrun enough (Nat.le_refl _)] at hsound
    exact hsound.2
  obtain ⟨value, s₂, hQ, enough', hrun'⟩ := hnext hknows
  refine ⟨value, s₂, hQ, max enough enough', fun limit hle => ?_⟩
  have hother : source.others limit bound r { s with parts := [] } = .done () s₁ :=
    (if_pos hwork).trans (hrun limit (Nat.le_trans (Nat.le_max_left ..) hle))
  change (Move.call r (f ())).run _ _ _ s = _
  simp only [run, hother]
  exact hrun' limit (Nat.le_trans (Nat.le_max_right ..) hle)

/-- A probe finds something or not; from some limit on it is always the same. -/
theorem attempt {what : Probe} {f : Option Nat → Move β}
    (h : ∀ width memo, (∀ w, width = some w → source.Finds what s.read w) →
      (f width).Reaches source bound Q { s with memo }) :
    (Move.attempt what >>= f).Reaches source bound Q s := fun hs => by
  have hrun_probe (limit : Nat) : (Move.attempt what >>= f).run source limit
      (source.others limit bound) s = (Move.probe what f).run source limit
      (source.others limit bound) s := rfl
  simp only [hrun_probe, Move.run]
  cases hm : s.memo.lookup (s.read, what) with
  | some width =>
    refine h width s.memo (fun w hw => ?_) hs
    rw [hw] at hm
    obtain ⟨before, after, heq, -⟩ := List.lookup_eq_some_iff.mp hm
    exact hs _ _ _ (heq ▸ List.mem_append_right _ (List.mem_cons_self ..))
  | none =>
    -- Below the bound the rule settles; elsewhere it is refused at once.
    obtain ⟨o, enough, ho⟩ : ∃ o enough, ∀ limit, enough ≤ limit →
        source.others limit bound what.rule { s with parts := [] } = o := by
      by_cases hwork : source.work what.rule s.read < bound
      · obtain ⟨enough, o, -, ho⟩ : Settles fun limit =>
            what.rule.runWithin source limit { s with parts := [] } :=
          what.rule.runWithin_settles _
        exact ⟨o, enough, fun limit hle => (if_pos hwork).trans
          (Rule.run_of_runWithin (Nat.le_refl _) _ _ (ho limit hle))⟩
      · exact ⟨_, 0, fun limit _ => if_neg hwork⟩
    have hsound : o.Sound source.Knows s.read := by
      rw [← ho enough (Nat.le_refl _)]
      exact Source.others_sound Source.keeps_knows what.rule hs
    cases o with
    | refused place why memo =>
      obtain ⟨value, s', hQ, enough', hrun⟩ :=
        h none (((s.read, what), none) :: memo) (by rintro _ ⟨⟩)
          (Source.keeps_knows.failed _ hsound)
      refine ⟨value, s', hQ, max enough enough', fun limit hle => ?_⟩
      simp only [ho limit (Nat.le_trans (Nat.le_max_left ..) hle)]
      exact hrun limit (Nat.le_trans (Nat.le_max_right ..) hle)
    | done u s₁ =>
      have hfinds : source.Finds what s.read (s₁.read - s.read) :=
        (Source.others_finds what (ho enough (Nat.le_refl _)) :)
      obtain ⟨value, s', hQ, enough', hrun⟩ :=
        h (some (s₁.read - s.read)) (((s.read, what), some (s₁.read - s.read)) :: s₁.memo)
          (fun w hw => Option.some.inj hw ▸ hfinds) (Source.keeps_knows.found hfinds hsound.2)
      refine ⟨value, s', hQ, max enough enough', fun limit hle => ?_⟩
      simp only [ho limit (Nat.le_trans (Nat.le_max_left ..) hle)]
      exact hrun limit (Nat.le_trans (Nat.le_max_right ..) hle)

end Move.Reaches

/-! ### Loops -/

/-- A loop comes to an end, however many turns are left to it, if they are enough for the rest of
the source. -/
def Move.Loops (source : Source) (bound : Nat) (body : Move Bool) (Q : State → Prop) (s : State) :
    Prop :=
  source.Knows s.memo → ∀ turns, source.tokens.size - s.read ≤ turns → ∃ s', Q s' ∧
    ∃ enough, ∀ limit, enough ≤ limit →
      Outcome.iterate (body.run source limit (source.others limit bound)) turns s = .done () s'

namespace Move.Loops

variable {body : Move Bool} {Q : State → Prop} {s : State}

/-- The last turn. -/
theorem stop (hs : s.read < source.tokens.size)
    (h : body.Reaches source bound (fun more s' => more = false ∧ Q s') s) :
    body.Loops source bound Q s := fun hknows turns hturns => by
  obtain ⟨more, s', ⟨rfl, hQ⟩, enough, hrun⟩ := h hknows
  obtain ⟨turns, rfl⟩ : ∃ n, turns = n + 1 := ⟨turns - 1, by omega⟩
  exact ⟨s', hQ, enough, fun limit hle => by simp only [Outcome.iterate, hrun limit hle]⟩

/-- A turn that reads something, and more turns. -/
theorem go (hs : s.read < source.tokens.size)
    (h : body.Reaches source bound (fun more s' => more = true ∧ s.read < s'.read ∧
      body.Loops source bound Q s') s) : body.Loops source bound Q s :=
  fun hknows turns hturns => by
  obtain ⟨more, s', ⟨rfl, hread, hloops⟩, enough, hrun⟩ := h hknows
  have hknows' : source.Knows s'.memo := by
    have hsound : (body.run source enough (source.others enough bound) s).Sound source.Knows
        s.read := body.sound Source.keeps_knows hknows
    rw [hrun enough (Nat.le_refl _)] at hsound
    exact hsound.2
  obtain ⟨turns, rfl⟩ : ∃ n, turns = n + 1 := ⟨turns - 1, by omega⟩
  obtain ⟨s'', hQ, enough', hrun'⟩ := hloops hknows' turns (by omega)
  refine ⟨s'', hQ, max enough enough', fun limit hle => ?_⟩
  simp only [Outcome.iterate, hrun limit (Nat.le_trans (Nat.le_max_left ..) hle), if_pos hread]
  exact hrun' limit (Nat.le_trans (Nat.le_max_right ..) hle)

theorem last (h : body.Loops source bound Q s) :
    (Move.loop body).Reaches source bound (fun _ => Q) s := fun hs => by
  obtain ⟨s', hQ, enough, hrun⟩ := h hs source.tokens.size (Nat.sub_le ..)
  refine ⟨(), s', hQ, enough, fun limit hle => ?_⟩
  change (Move.iterate body (.done ())).run _ _ _ s = _
  simp only [run, hrun limit hle]

end Move.Loops

end JavaSource.Grammar
