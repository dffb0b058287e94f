import JavaSource.Source

/-!
# What the limit decides

A rule nested deeper than the limit allows ends the reading.  A rule that is only tried ends that
trial, and then counts as a rule that fails: reading goes on as if it did not match.

`Move.runWithin` carries out moves as `Move.run` does, but keeps watch on the limit: it stops where
the limit is met and says whether a rule met it that was read or one that was tried.

* `Rule.run_of_runWithin`: a reading that does not meet the limit is the same under every larger
  limit.
* `Rule.runWithin_settles`: from some limit on a reading meets none.
* **`parseTree_eq_or_tooDeep`**: so a source has one parse tree, or one fault, under all large
  limits, and under any limit it has that one, or is nested too deeply, or a rule that was tried
  met the limit.
* `parseTree_limit_chooses`: in the last case it may have another tree.
-/

namespace JavaSource.Grammar

/-- Where the limit is met. -/
inductive LimitMet where
  /-- By a rule that is read. -/
  | reading
  /-- By a rule that is only tried. -/
  | trying
  deriving DecidableEq, Repr

/-- What comes of moves, unless they meet the limit. -/
abbrev Within (α : Type) := Except LimitMet (Outcome α)

/-- Moves over and over, while they say so and read something. -/
def Outcome.iterateWithin (step : State → Within Bool) : (fuel : Nat) → State → Within Unit
  | 0, s => .ok (.done () s)
  | fuel + 1, s =>
    match step s with
    | .error met                  => .error met
    | .ok (.refused place why memo) => .ok (.refused place why memo)
    | .ok (.done false s')        => .ok (.done () s')
    | .ok (.done true s')         =>
      if s.read < s'.read then iterateWithin step fuel s' else .ok (.done () s')

/-- Carries out moves up to where they meet the limit. -/
def Move.runWithin (source : Source) (limit : Nat) (other : Rule → State → Within Unit)
    {α : Type} : Move α → State → Within α
  | .done value, s => .ok (.done value s)
  | .look next, s  => (next (source.ahead s)).runWithin source limit other s
  | .shift next, s =>
    match source.tokens[s.read]? with
    | none   => .ok (.refused s.read Refusal.noViableAlternative s.memo)
    | some t =>
      if t.kind = .eof then .ok (.refused s.read Refusal.noViableAlternative s.memo)
      else
        next.runWithin source limit other
          { s with read := s.read + 1, parts := .leaf t :: s.parts }
  | .join kind width next, s =>
    match source.joined kind s.read width with
    | none   => .ok (.refused s.read Refusal.noViableAlternative s.memo)
    | some t =>
      next.runWithin source limit other
        { s with read := s.read + width, parts := .leaf t :: s.parts }
  | .call rule next, s =>
    match other rule { s with parts := [] } with
    | .error met                    => .error met
    | .ok (.refused place why memo) => .ok (.refused place why memo)
    | .ok (.done () s')             =>
      next.runWithin source limit other
        { s with read := s'.read, parts := s'.parts ++ s.parts, memo := s'.memo }
  | .probe what next, s =>
    match s.memo.lookup (s.read, what) with
    | some width => (next width).runWithin source limit other s
    | none       =>
      match other what.rule { s with parts := [] } with
      | .error _                => .error .trying
      | .ok (.refused _ _ memo) =>
        (next none).runWithin source limit other
          { s with memo := ((s.read, what), none) :: memo }
      | .ok (.done () s')       =>
        let width := some (s'.read - s.read)
        (next width).runWithin source limit other
          { s with memo := ((s.read, what), width) :: s'.memo }
  | .wrap kind next, s =>
    let phrase := Tree.ofParts kind s.parts.reverse (source.location s.read)
    next.runWithin source limit other { s with parts := [phrase] }
  | .deepen next, s =>
    if s.depth < limit then next.runWithin source limit other { s with depth := s.depth + 1 }
    else .error .reading
  | .iterate body next, s =>
    match Outcome.iterateWithin (body.runWithin source limit other) source.tokens.size s with
    | .error met                    => .error met
    | .ok (.refused place why memo) => .ok (.refused place why memo)
    | .ok (.done () s')             => next.runWithin source limit other s'
  | .refuse place why, s => .ok (.refused place why s.memo)

/-- Carries out a rule up to where it meets the limit. -/
def Rule.runWithin (source : Source) (limit : Nat) (rule : Rule) (s : State) : Within Unit :=
  rule.production.runWithin source limit (fun rule' s' =>
    if source.work rule' s'.read < source.work rule s.read then rule'.runWithin source limit s'
    else .ok (.refused s'.read Refusal.noViableAlternative s'.memo)) s
termination_by source.work rule s.read

variable {source : Source} {limit larger : Nat}

/-! ### A reading that does not meet the limit -/

theorem Outcome.iterate_of_iterateWithin {step : State → Outcome Bool}
    {stepW : State → Within Bool} (hstep : ∀ s o, stepW s = .ok o → step s = o) (fuel : Nat)
    (s : State) {o : Outcome Unit} (h : Outcome.iterateWithin stepW fuel s = .ok o) :
    Outcome.iterate step fuel s = o := by
  induction fuel generalizing s with
  | zero => exact Except.ok.inj h
  | succ fuel ih =>
    cases hs : stepW s with
    | error met => simp only [iterateWithin, hs, reduceCtorEq] at h
    | ok r =>
      simp only [iterate, hstep s r hs]
      simp only [iterateWithin, hs] at h
      cases r with
      | refused place why memo => exact Except.ok.inj h
      | done more s' =>
        cases more with
        | false => exact Except.ok.inj h
        | true =>
          dsimp only at h ⊢
          split at h
          · rw [if_pos ‹_›]; exact ih _ h
          · rw [if_neg ‹_›]; exact Except.ok.inj h

theorem Move.run_of_runWithin {other : Rule → State → Outcome Unit}
    {otherW : Rule → State → Within Unit} (hle : limit ≤ larger)
    (hother : ∀ r s o, otherW r s = .ok o → other r s = o) {α : Type} (m : Move α) (s : State)
    {o : Outcome α} (h : m.runWithin source limit otherW s = .ok o) :
    m.run source larger other s = o := by
  induction m generalizing s with
  | done value => exact Except.ok.inj h
  | look next ih => exact ih _ _ h
  | shift next ih =>
    cases ht : source.tokens[s.read]? with
    | none =>
      simp only [runWithin, ht] at h
      simp only [run, ht]
      exact Except.ok.inj h
    | some t =>
      simp only [runWithin, ht] at h
      simp only [run, ht]
      split at h
      · rw [if_pos ‹_›]; exact Except.ok.inj h
      · rw [if_neg ‹_›]; exact ih _ h
  | join kind width next ih =>
    cases ht : source.joined kind s.read width with
    | none =>
      simp only [runWithin, ht] at h
      simp only [run, ht]
      exact Except.ok.inj h
    | some t =>
      simp only [runWithin, ht] at h
      simp only [run, ht]
      exact ih _ h
  | call rule next ih =>
    cases ho : otherW rule { s with parts := [] } with
    | error met => simp only [runWithin, ho, reduceCtorEq] at h
    | ok r =>
      simp only [runWithin, ho] at h
      simp only [run, hother _ _ _ ho]
      cases r with
      | refused place why memo => exact Except.ok.inj h
      | done value s' => exact ih _ h
  | probe what next ih =>
    cases hm : s.memo.lookup (s.read, what) with
    | some width =>
      simp only [runWithin, hm] at h
      simp only [run, hm]
      exact ih _ _ h
    | none =>
      cases ho : otherW what.rule { s with parts := [] } with
      | error met => simp only [runWithin, hm, ho, reduceCtorEq] at h
      | ok r =>
        simp only [runWithin, hm, ho] at h
        simp only [run, hm, hother _ _ _ ho]
        cases r with
        | refused place why memo => exact ih _ _ h
        | done value s' => exact ih _ _ h
  | wrap kind next ih => exact ih _ h
  | deepen next ih =>
    simp only [runWithin] at h
    split at h
    · simp only [run, if_pos (Nat.lt_of_lt_of_le ‹_› hle)]
      exact ih _ h
    · cases h
  | iterate body next ihb ih =>
    cases ho : Outcome.iterateWithin (body.runWithin source limit otherW)
        source.tokens.size s with
    | error met => simp only [runWithin, ho, reduceCtorEq] at h
    | ok r =>
      simp only [runWithin, ho] at h
      simp only [run, Outcome.iterate_of_iterateWithin (fun s o => ihb s) _ _ ho]
      cases r with
      | refused place why memo => exact Except.ok.inj h
      | done value s' => exact ih _ h
  | refuse place why => exact Except.ok.inj h

/-- **A reading that does not meet the limit is the same under every larger limit.** -/
theorem Rule.run_of_runWithin (hle : limit ≤ larger) (rule : Rule) (s : State)
    {o : Outcome Unit} (h : rule.runWithin source limit s = .ok o) :
    rule.run source larger s = o := by
  rw [runWithin] at h
  rw [run]
  refine Move.run_of_runWithin hle (fun r s' o' ho => ?_) _ _ h
  split at ho
  · rw [if_pos ‹_›]
    exact Rule.run_of_runWithin hle r s' ho
  · rw [if_neg ‹_›]
    exact Except.ok.inj ho
termination_by source.work rule s.read

/-! ### A rule that is read meets the limit -/

theorem Outcome.iterate_tooDeep {step : State → Outcome Bool} {stepW : State → Within Bool}
    (hok : ∀ s o, stepW s = .ok o → step s = o)
    (hmet : ∀ s, stepW s = .error .reading → ∃ place memo, step s = .refused place .tooDeep memo)
    (fuel : Nat) (s : State) (h : Outcome.iterateWithin stepW fuel s = .error .reading) :
    ∃ place memo, Outcome.iterate step fuel s = .refused place .tooDeep memo := by
  induction fuel generalizing s with
  | zero => cases h
  | succ fuel ih =>
    cases hs : stepW s with
    | error met =>
      simp only [iterateWithin, hs] at h
      cases h
      obtain ⟨place, memo, hstep⟩ := hmet s hs
      exact ⟨place, memo, by simp only [iterate, hstep]⟩
    | ok r =>
      simp only [iterate, hok s r hs]
      simp only [iterateWithin, hs] at h
      cases r with
      | refused place why memo => cases h
      | done more s' =>
        cases more with
        | false => cases h
        | true =>
          dsimp only at h ⊢
          split at h
          · rw [if_pos ‹_›]; exact ih _ h
          · cases h

theorem Move.run_tooDeep {other : Rule → State → Outcome Unit}
    {otherW : Rule → State → Within Unit} (hok : ∀ r s o, otherW r s = .ok o → other r s = o)
    (hmet : ∀ r s, otherW r s = .error .reading →
      ∃ place memo, other r s = .refused place .tooDeep memo)
    {α : Type} (m : Move α) (s : State) (h : m.runWithin source limit otherW s = .error .reading) :
    ∃ place memo, m.run source limit other s = .refused place .tooDeep memo := by
  induction m generalizing s with
  | done value => cases h
  | look next ih => exact ih _ _ h
  | shift next ih =>
    cases ht : source.tokens[s.read]? with
    | none => simp only [runWithin, ht, reduceCtorEq] at h
    | some t =>
      simp only [runWithin, ht] at h
      simp only [run, ht]
      split at h
      · cases h
      · rw [if_neg ‹_›]; exact ih _ h
  | join kind width next ih =>
    cases ht : source.joined kind s.read width with
    | none => simp only [runWithin, ht, reduceCtorEq] at h
    | some t =>
      simp only [runWithin, ht] at h
      simp only [run, ht]
      exact ih _ h
  | call rule next ih =>
    cases ho : otherW rule { s with parts := [] } with
    | error met =>
      simp only [runWithin, ho] at h
      cases h
      obtain ⟨place, memo, hrule⟩ := hmet _ _ ho
      exact ⟨place, memo, by simp only [run, hrule]⟩
    | ok r =>
      simp only [runWithin, ho] at h
      simp only [run, hok _ _ _ ho]
      cases r with
      | refused place why memo => cases h
      | done value s' => exact ih _ h
  | probe what next ih =>
    cases hm : s.memo.lookup (s.read, what) with
    | some width =>
      simp only [runWithin, hm] at h
      simp only [run, hm]
      exact ih _ _ h
    | none =>
      cases ho : otherW what.rule { s with parts := [] } with
      | error met => simp only [runWithin, hm, ho, Except.error.injEq, reduceCtorEq] at h
      | ok r =>
        simp only [runWithin, hm, ho] at h
        simp only [run, hm, hok _ _ _ ho]
        cases r with
        | refused place why memo => exact ih _ _ h
        | done value s' => exact ih _ _ h
  | wrap kind next ih => exact ih _ h
  | deepen next ih =>
    simp only [runWithin] at h
    simp only [run]
    split at h
    · rw [if_pos ‹_›]; exact ih _ h
    · rw [if_neg ‹_›]; exact ⟨_, _, rfl⟩
  | iterate body next ihb ih =>
    have hbody : ∀ s o, body.runWithin source limit otherW s = .ok o →
        body.run source limit other s = o :=
      fun s o => Move.run_of_runWithin (Nat.le_refl limit) hok body s
    cases ho : Outcome.iterateWithin (body.runWithin source limit otherW)
        source.tokens.size s with
    | error met =>
      simp only [runWithin, ho] at h
      cases h
      obtain ⟨place, memo, hloop⟩ := Outcome.iterate_tooDeep hbody ihb _ _ ho
      exact ⟨place, memo, by simp only [run, hloop]⟩
    | ok r =>
      simp only [runWithin, ho] at h
      simp only [run, Outcome.iterate_of_iterateWithin hbody _ _ ho]
      cases r with
      | refused place why memo => cases h
      | done value s' => exact ih _ h
  | refuse place why => cases h

/-- A rule that is read and meets the limit ends the reading there. -/
theorem Rule.run_tooDeep (rule : Rule) (s : State)
    (h : rule.runWithin source limit s = .error .reading) :
    ∃ place memo, rule.run source limit s = .refused place .tooDeep memo := by
  rw [runWithin] at h
  rw [run]
  refine Move.run_tooDeep (fun r s' o ho => ?_) (fun r s' ho => ?_) _ _ h
  · split at ho
    · rw [if_pos ‹_›]
      exact Rule.run_of_runWithin (Nat.le_refl limit) r s' ho
    · rw [if_neg ‹_›]
      exact Except.ok.inj ho
  · split at ho
    · rw [if_pos ‹_›]
      exact Rule.run_tooDeep r s' ho
    · cases ho
termination_by source.work rule s.read

/-! ### Limits that nothing meets -/

/-- The limit has no part in an outcome. -/
def Outcome.IsWhole {α : Type} : Outcome α → Prop
  | .done _ _        => True
  | .refused _ why _ => why ≠ .tooDeep

/-- From some limit on, moves have one outcome, and the limit has no part in it. -/
def Settles {α : Type} (moves : Nat → Within α) : Prop :=
  ∃ enough o, o.IsWhole ∧ ∀ limit, enough ≤ limit → moves limit = .ok o

theorem Settles.of_ok {α : Type} {moves : Nat → Within α} (o : Outcome α) (ho : o.IsWhole)
    (h : ∀ limit, moves limit = .ok o) : Settles moves :=
  ⟨0, o, ho, fun limit _ => h limit⟩

theorem Settles.of_refused {α : Type} {moves : Nat → Within α} {place : Nat} {why : Refusal}
    {memo : Memo} (h : ∀ limit, moves limit = .ok (.refused place why memo)) : Settles moves :=
  .of_ok (.refused place why memo) (fun heq => nomatch heq) h

/-- Moves that go on as others do from some limit on settle when the others do. -/
theorem Settles.of_eventually {α : Type} {moves moves' : Nat → Within α} (from_ : Nat)
    (h : Settles moves') (heq : ∀ limit, from_ ≤ limit → moves limit = moves' limit) :
    Settles moves := by
  obtain ⟨enough, o, ho, hmoves⟩ := h
  refine ⟨max from_ enough, o, ho, fun limit hle => ?_⟩
  rw [heq limit (Nat.le_trans (Nat.le_max_left ..) hle)]
  exact hmoves limit (Nat.le_trans (Nat.le_max_right ..) hle)

theorem Outcome.iterateWithin_settles {step : Nat → State → Within Bool}
    (hstep : ∀ s, Settles fun limit => step limit s) (fuel : Nat) (s : State) :
    Settles fun limit => Outcome.iterateWithin (step limit) fuel s := by
  induction fuel generalizing s with
  | zero => exact .of_ok (.done () s) trivial fun _ => rfl
  | succ fuel ih =>
    obtain ⟨enough, o, ho, h⟩ := hstep s
    cases o with
    | refused place why memo =>
      exact ⟨enough, .refused place why memo, ho, fun limit hle => by
        simp only [iterateWithin, h limit hle]⟩
    | done more s' =>
      cases more with
      | false =>
        exact ⟨enough, .done () s', trivial, fun limit hle => by
          simp only [iterateWithin, h limit hle]⟩
      | true =>
        by_cases hread : s.read < s'.read
        · exact .of_eventually enough (ih s') fun limit hle => by
            simp only [iterateWithin, h limit hle, if_pos hread]
        · exact ⟨enough, .done () s', trivial, fun limit hle => by
            simp only [iterateWithin, h limit hle, if_neg hread]⟩

theorem Move.runWithin_settles {other : Nat → Rule → State → Within Unit}
    (hother : ∀ r s, Settles fun limit => other limit r s) {α : Type} (m : Move α) (s : State) :
    Settles fun limit => m.runWithin source limit (other limit) s := by
  induction m generalizing s with
  | done value => exact .of_ok (.done value s) trivial fun _ => rfl
  | look next ih => exact ih _ _
  | shift next ih =>
    cases ht : source.tokens[s.read]? with
    | none =>
      simp only [runWithin, ht]
      exact .of_refused fun _ => rfl
    | some t =>
      by_cases he : t.kind = .eof
      · simp only [runWithin, ht, if_pos he]
        exact .of_refused fun _ => rfl
      · simp only [runWithin, ht, if_neg he]
        exact ih _
  | join kind width next ih =>
    cases ht : source.joined kind s.read width with
    | none =>
      simp only [runWithin, ht]
      exact .of_refused fun _ => rfl
    | some t =>
      simp only [runWithin, ht]
      exact ih _
  | call rule next ih =>
    obtain ⟨enough, o, ho, h⟩ := hother rule { s with parts := [] }
    cases o with
    | refused place why memo =>
      exact ⟨enough, .refused place why memo, ho, fun limit hle => by
        simp only [runWithin, h limit hle]⟩
    | done value s' =>
      have hnext := ih { s with read := s'.read, parts := s'.parts ++ s.parts, memo := s'.memo }
      exact .of_eventually enough hnext fun limit hle => by
        simp only [runWithin, h limit hle]
  | probe what next ih =>
    cases hm : s.memo.lookup (s.read, what) with
    | some width =>
      simp only [runWithin, hm]
      exact ih _ _
    | none =>
      obtain ⟨enough, o, ho, h⟩ := hother what.rule { s with parts := [] }
      cases o with
      | refused place why memo =>
        have hnext := ih none { s with memo := ((s.read, what), none) :: memo }
        exact .of_eventually enough hnext fun limit hle => by
          simp only [runWithin, hm, h limit hle]
      | done value s' =>
        have hnext := ih (some (s'.read - s.read))
          { s with memo := ((s.read, what), some (s'.read - s.read)) :: s'.memo }
        exact .of_eventually enough hnext fun limit hle => by
          simp only [runWithin, hm, h limit hle]
  | wrap kind next ih => exact ih _
  | deepen next ih =>
    exact .of_eventually (s.depth + 1) (ih { s with depth := s.depth + 1 }) fun limit hle => by
      simp only [runWithin, if_pos (show s.depth < limit from hle)]
  | iterate body next ihb ih =>
    obtain ⟨enough, o, ho, h⟩ := Outcome.iterateWithin_settles ihb source.tokens.size s
    cases o with
    | refused place why memo =>
      exact ⟨enough, .refused place why memo, ho, fun limit hle => by
        simp only [runWithin, h limit hle]⟩
    | done value s' =>
      exact .of_eventually enough (ih s') fun limit hle => by
        simp only [runWithin, h limit hle]
  | refuse place why => exact .of_refused fun _ => rfl

/-- **From some limit on a reading meets none.** -/
theorem Rule.runWithin_settles (rule : Rule) (s : State) :
    Settles fun limit => rule.runWithin source limit s := by
  have hmoves : Settles fun limit => rule.production.runWithin source limit
      (fun rule' s' =>
        if source.work rule' s'.read < source.work rule s.read then rule'.runWithin source limit s'
        else .ok (.refused s'.read Refusal.noViableAlternative s'.memo)) s := by
    refine Move.runWithin_settles (fun r s' => ?_) _ _
    by_cases hwork : source.work r s'.read < source.work rule s.read
    · simp only [if_pos hwork]
      exact Rule.runWithin_settles r s'
    · simp only [if_neg hwork]
      exact .of_refused fun _ => rfl
  exact .of_eventually 0 hmoves fun limit _ => by rw [runWithin]
termination_by source.work rule s.read

/-! ### What is made of a source -/

/-- The tree or the fault that comes of carrying out a rule. -/
def Outcome.verdict (limit : Nat) (tokens : List Token) : Outcome Unit → Except Fault Tree
  | .refused place why _ =>
    let found := (tokens[place]? <|> tokens.getLast?).getD default
    .error ⟨found.place, why.cause limit found⟩
  | .done () s => .ok (s.parts.head?.getD (Tree.ofParts .compilationUnit [] default))

theorem recognize_eq_verdict (limit : Nat) (rule : Rule) (tokens : List Token) :
    recognize limit rule tokens =
      (rule.run (.ofTokens tokens) limit ⟨0, 0, [], []⟩).verdict limit tokens := by
  unfold recognize
  dsimp only
  cases rule.run (.ofTokens tokens) limit ⟨0, 0, [], []⟩ <;> rfl

/-- Only a fault of nesting tells the limit. -/
theorem Outcome.IsWhole.verdict_eq {o : Outcome Unit} (h : o.IsWhole) (limit limit' : Nat)
    (tokens : List Token) : o.verdict limit tokens = o.verdict limit' tokens := by
  cases o with
  | done value s => rfl
  | refused place why memo =>
    cases why with
    | refusal why => rfl
    | tooDeep => exact absurd rfl h

end JavaSource.Grammar

namespace JavaSource

open Grammar

/-- The parse tree of a source, unless the limit is met. -/
def parseTreeWithin (mode : Mode) (limit : Nat) (source : String) :
    Except LimitMet (Except Fault Tree) :=
  match tokenize source with
  | .error fault => .ok (.error fault)
  | .ok tokens   =>
    (mode.start.runWithin (.ofTokens tokens) limit ⟨0, 0, [], []⟩).map (·.verdict limit tokens)

theorem parseTree_of_tokenize {mode : Mode} {limit : Nat} {source : String} {tokens : List Token}
    (h : tokenize source = .ok tokens) : parseTree mode limit source =
      (mode.start.run (.ofTokens tokens) limit ⟨0, 0, [], []⟩).verdict limit tokens := by
  simp only [parseTree, h, ← recognize_eq_verdict]
  rfl

/-- No source meets a limit that is large enough. -/
theorem isOk_parseTreeWithin (mode : Mode) (source : String) :
    ∃ enough, ∀ limit, enough ≤ limit → (parseTreeWithin mode limit source).isOk := by
  cases htok : tokenize source with
  | error fault => exact ⟨0, fun limit _ => by simp only [parseTreeWithin, htok]; rfl⟩
  | ok tokens =>
    obtain ⟨enough, o, -, ho⟩ : Settles fun limit =>
        mode.start.runWithin (.ofTokens tokens) limit ⟨0, 0, [], []⟩ :=
      mode.start.runWithin_settles ⟨0, 0, [], []⟩
    exact ⟨enough, fun limit hle => by simp only [parseTreeWithin, htok, ho limit hle]; rfl⟩

/-- Where the limit is not met, the parse tree is that under a larger limit. -/
theorem parseTree_of_isOk {mode : Mode} {limit larger : Nat} {source : String} {tree : Tree}
    (hle : limit ≤ larger) (h : (parseTreeWithin mode limit source).isOk)
    (hlarger : parseTree mode larger source = .ok tree) :
    parseTree mode limit source = .ok tree := by
  cases htok : tokenize source with
  | error fault =>
    simp only [parseTree, htok] at hlarger
    cases hlarger
  | ok tokens =>
    simp only [parseTreeWithin, htok] at h
    rw [parseTree_of_tokenize htok] at hlarger ⊢
    cases hrun : mode.start.runWithin (.ofTokens tokens) limit ⟨0, 0, [], []⟩ with
    | error met =>
      rw [hrun] at h
      cases h
    | ok o =>
      rw [Rule.run_of_runWithin hle _ _ hrun] at hlarger
      rw [Rule.run_of_runWithin (Nat.le_refl limit) _ _ hrun]
      cases o with
      | refused place why memo => cases hlarger
      | done value s => exact hlarger

/-- **Every source has one parse tree, or one fault, under all large limits.  Under any limit it
has that one too, unless the limit is met: by a rule that is read, and then the fault says so, or
by a rule that is only tried.** -/
theorem parseTree_eq_or_tooDeep (mode : Mode) (source : String) :
    ∃ whole enough,
      (∀ limit, enough ≤ limit → parseTreeWithin mode limit source = .ok whole) ∧
      ∀ limit,
        parseTreeWithin mode limit source = .ok (parseTree mode limit source) ∧
          parseTree mode limit source = whole ∨
        parseTreeWithin mode limit source = .error .reading ∧
          (∃ place, parseTree mode limit source = .error ⟨place, .tooDeep limit⟩) ∨
        parseTreeWithin mode limit source = .error .trying := by
  cases htok : tokenize source with
  | error fault =>
    have hparse : ∀ limit, parseTree mode limit source = .error fault := fun limit => by
      simp only [parseTree, htok]
      rfl
    refine ⟨.error fault, 0, fun limit _ => ?_, fun limit => .inl ?_⟩
    · simp only [parseTreeWithin, htok]
    · simp only [parseTreeWithin, htok, hparse, and_self]
  | ok tokens =>
    obtain ⟨enough, o, hwhole, ho⟩ : Settles fun limit =>
        mode.start.runWithin (.ofTokens tokens) limit ⟨0, 0, [], []⟩ :=
      mode.start.runWithin_settles ⟨0, 0, [], []⟩
    refine ⟨o.verdict 0 tokens, enough, fun limit hle => ?_, fun limit => ?_⟩
    · simp only [parseTreeWithin, htok, ho limit hle, Except.map]
      rw [hwhole.verdict_eq limit 0]
    · rw [parseTree_of_tokenize htok]
      simp only [parseTreeWithin, htok]
      cases hrun : mode.start.runWithin (.ofTokens tokens) limit ⟨0, 0, [], []⟩ with
      | ok o' =>
        -- The reading is the same under a limit at which everything has settled.
        have hlarge := Rule.run_of_runWithin (Nat.le_max_left limit enough) _ _ hrun
        have hsettled := Rule.run_of_runWithin (Nat.le_refl _) _ _
          (ho (max limit enough) (Nat.le_max_right ..))
        have heq : o' = o := hlarge.symm.trans hsettled
        rw [Rule.run_of_runWithin (Nat.le_refl limit) _ _ hrun, heq]
        exact .inl ⟨rfl, hwhole.verdict_eq limit 0 tokens⟩
      | error met =>
        cases met with
        | reading =>
          obtain ⟨place, memo, hdeep⟩ := Rule.run_tooDeep _ _ hrun
          rw [hdeep]
          exact .inr (.inl ⟨rfl, _, rfl⟩)
        | trying => exact .inr (.inr rfl)

theorem tree_of_height {result : Except Fault Tree} {height : Nat}
    (h : result.toOption.map Tree.height = some height) :
    ∃ tree, result = .ok tree ∧ tree.height = height := by
  cases result with
  | error fault => cases h
  | ok tree => exact ⟨tree, rfl, Option.some.inj h⟩

/-- **The limit can choose between two trees.**  Behind `for (` a declaration is tried first.  Its
type nests five levels deep, so under a limit of four the trial fails, and what stands there is
read as four comparisons. -/
theorem parseTree_limit_chooses : ∃ source tree tree',
    parseTree .stmt 4 source = .ok tree ∧ parseTree .stmt 5 source = .ok tree' ∧ tree ≠ tree' := by
  let source := "for (A<B, C<D, E<F, G>>> x;;) ;"
  have hfour : (parseTree .stmt 4 source).toOption.map Tree.height = some 5 := by decide +kernel
  have hfive : (parseTree .stmt 5 source).toOption.map Tree.height = some 19 := by decide +kernel
  obtain ⟨tree, htree, hheight⟩ := tree_of_height hfour
  obtain ⟨tree', htree', hheight'⟩ := tree_of_height hfive
  refine ⟨source, tree, tree', htree, htree', fun heq => ?_⟩
  rw [heq, hheight'] at hheight
  cases hheight

end JavaSource
