import JavaSource.Grammar.Recognizer

/-!
# What moves ensure

A logic for the moves of rules.  A `Contract` says for every rule what has to hold where it is
read, and what then holds when it has been read.  `m.Ensures Q s` says that wherever the moves `m`
come to an end from the state `s`, their value and the state then satisfy `Q`, provided that every
rule they read keeps the contract.

The logic says nothing of a source that is refused, nor of what a probe finds.

* `Ensures.bind`, `Ensures.mono`, `Ensures.loop`, `Ensures.loopWhile`: moves in a row, weakening,
  and a loop by its invariant.
* `Rule.keeps_contract`: if the production of every rule ensures what its contract says, then
  carrying out a rule keeps the contract, and reading goes forward and stays in front of the end
  of the source.
-/

namespace JavaSource.Grammar

/-- What rules need and what they give. -/
structure Contract where
  /-- What holds where the rule is read. -/
  before : Rule → State → Prop
  /-- What holds then when it has been read. -/
  after : Rule → State → State → Prop

/-- Wherever the moves lead, the value and the state there satisfy a property. -/
def Move.Ensures (source : Source) (limit : Nat) (contract : Contract) {α : Type} :
    Move α → (α → State → Prop) → State → Prop
  | .done value, Q, s => Q value s
  | .look next, Q, s  => (next (source.ahead s)).Ensures source limit contract Q s
  | .shift next, Q, s =>
    ∀ t, source.tokens[s.read]? = some t → t.kind ≠ .eof →
      next.Ensures source limit contract Q
        { s with read := s.read + 1, parts := .leaf t :: s.parts }
  | .join kind width next, Q, s =>
    ∀ t, source.joined kind s.read width = some t →
      s.read + width < source.tokens.size ∧
      next.Ensures source limit contract Q
        { s with read := s.read + width, parts := .leaf t :: s.parts }
  | .call rule next, Q, s =>
    contract.before rule { s with parts := [] } ∧
    ∀ s', contract.after rule { s with parts := [] } s' →
      next.Ensures source limit contract Q
        { s with read := s'.read, parts := s'.parts ++ s.parts, memo := s'.memo }
  | .probe _ next, Q, s =>
    ∀ width memo, (next width).Ensures source limit contract Q { s with memo }
  | .wrap kind next, Q, s =>
    let phrase := Tree.ofParts kind s.parts.reverse (source.location s.read)
    next.Ensures source limit contract Q { s with parts := [phrase] }
  | .deepen next, Q, s =>
    s.depth < limit → next.Ensures source limit contract Q { s with depth := s.depth + 1 }
  | .iterate body next, Q, s =>
    ∃ I : State → Prop, I s ∧ ∀ s₁, I s₁ →
      body.Ensures source limit contract (fun more s₂ =>
        (more = true ∧ s₁.read < s₂.read → I s₂) ∧
        (¬(more = true ∧ s₁.read < s₂.read) → next.Ensures source limit contract Q s₂)) s₁
  | .refuse _ _, _, _ => True

variable {source : Source} {limit : Nat} {contract : Contract}

namespace Move.Ensures

theorem mono {α : Type} {m : Move α} {Q Q' : α → State → Prop} {s : State}
    (h : m.Ensures source limit contract Q s) (hQ : ∀ a s, Q a s → Q' a s) :
    m.Ensures source limit contract Q' s := by
  induction m generalizing s with
  | done value => exact hQ _ _ h
  | look next ih => exact ih _ h hQ
  | shift next ih => exact fun t ht he => ih (h t ht he) hQ
  | join kind width next ih => exact fun t ht => ⟨(h t ht).1, ih (h t ht).2 hQ⟩
  | call rule next ih => exact ⟨h.1, fun s' hs' => ih (h.2 s' hs') hQ⟩
  | probe what next ih => exact fun width memo => ih _ (h width memo) hQ
  | wrap kind next ih => exact ih h hQ
  | deepen next ih => exact fun hd => ih (h hd) hQ
  | iterate body next ihb ih =>
    obtain ⟨I, hI, hbody⟩ := h
    exact ⟨I, hI, fun s₁ hs₁ => ihb (hbody s₁ hs₁) fun more s₂ hs₂ =>
      ⟨hs₂.1, fun hend => ih (hs₂.2 hend) hQ⟩⟩
  | refuse place why => trivial

theorem bind {α β : Type} {m : Move α} {f : α → Move β} {Q : β → State → Prop} {s : State}
    (h : m.Ensures source limit contract
      (fun a s' => (f a).Ensures source limit contract Q s') s) :
    (m >>= f).Ensures source limit contract Q s := by
  induction m generalizing s with
  | done value => exact h
  | look next ih => exact ih _ h
  | shift next ih => exact fun t ht he => ih (h t ht he)
  | join kind width next ih => exact fun t ht => ⟨(h t ht).1, ih (h t ht).2⟩
  | call rule next ih => exact ⟨h.1, fun s' hs' => ih (h.2 s' hs')⟩
  | probe what next ih => exact fun width memo => ih _ (h width memo)
  | wrap kind next ih => exact ih h
  | deepen next ih => exact fun hd => ih (h hd)
  | iterate body next _ ih =>
    obtain ⟨I, hI, hbody⟩ := h
    exact ⟨I, hI, fun s₁ hs₁ => (hbody s₁ hs₁).mono fun more s₂ hs₂ =>
      ⟨hs₂.1, fun hend => ih (hs₂.2 hend)⟩⟩
  | refuse place why => trivial

theorem ahead {α : Type} {f : Ahead → Move α} {Q : α → State → Prop} {s : State}
    (h : (f (source.ahead s)).Ensures source limit contract Q s) :
    (Move.ahead >>= f).Ensures source limit contract Q s := h

theorem isAt {α : Type} {kind : TokenKind} {f : Bool → Move α} {Q : α → State → Prop} {s : State}
    (h : (f ((source.ahead s).isAt kind)).Ensures source limit contract Q s) :
    (Move.isAt kind >>= f).Ensures source limit contract Q s := h

theorem nest {α : Type} {f : Unit → Move α} {Q : α → State → Prop} {s : State}
    (h : (f ()).Ensures source limit contract Q { s with depth := s.depth + 1 }) :
    (Move.nest >>= f).Ensures source limit contract Q s := fun _ => h

/-- A loop keeps what its body keeps. -/
theorem loop {body : Move Bool} {Q : Unit → State → Prop} {s : State} (I : State → Prop)
    (hs : I s) (hbody : ∀ s, I s → body.Ensures source limit contract (fun _ s' => I s') s)
    (hQ : ∀ s, I s → Q () s) : (Move.loop body).Ensures source limit contract Q s :=
  ⟨I, hs, fun s₁ hs₁ => (hbody s₁ hs₁).mono fun _ s₂ hs₂ => ⟨fun _ => hs₂, fun _ => hQ s₂ hs₂⟩⟩

/-- A loop that reads something as often as it goes on. -/
theorem loopWhile {body : Move Bool} {Q : Unit → State → Prop} {s : State} (I : State → Prop)
    (hs : I s) (hbody : ∀ s₁, I s₁ → body.Ensures source limit contract
      (fun more s₂ => if more then s₁.read < s₂.read ∧ I s₂ else Q () s₂) s₁) :
    (Move.loop body).Ensures source limit contract Q s :=
  ⟨I, hs, fun s₁ hs₁ => (hbody s₁ hs₁).mono fun more s₂ hs₂ => by
    cases more with
    | true => exact ⟨fun _ => hs₂.2, fun hend => absurd ⟨rfl, hs₂.1⟩ hend⟩
    | false => exact ⟨fun hmore => (nomatch hmore.1), fun _ => hs₂⟩⟩

end Move.Ensures

/-! ### Carrying out moves -/

/-- A token that does not end the source has a token behind it. -/
def Source.Ended (source : Source) : Prop :=
  ∀ i t, source.tokens[i]? = some t → t.kind ≠ .eof → i + 1 < source.tokens.size

/-- Reading goes forward and stays in front of the end. -/
def Source.Forward (source : Source) (s s' : State) : Prop :=
  s.read ≤ s'.read ∧ s'.read < source.tokens.size

theorem Source.Forward.trans {s₁ s₂ s₃ : State} (h : source.Forward s₁ s₂)
    (h' : source.Forward s₂ s₃) : source.Forward s₁ s₃ :=
  ⟨Nat.le_trans h.1 h'.1, h'.2⟩

/-- A way to carry out rules that keeps the contract. -/
def Contract.Kept (contract : Contract) (source : Source)
    (other : Rule → State → Outcome Unit) : Prop :=
  ∀ r s s', other r s = .done () s' → s.read < source.tokens.size → s.parts = [] →
    contract.before r s → contract.after r s s' ∧ source.Forward s s'

/-- A loop that always reads something cannot come to the end of its fuel. -/
theorem Outcome.iterate_ensures {step : State → Outcome Bool} {P : State → Prop}
    {I : State → Prop}
    (hstep : ∀ s more s', I s → s.read < source.tokens.size → step s = .done more s' →
      source.Forward s s' ∧ (more = true ∧ s.read < s'.read → I s') ∧
        (¬(more = true ∧ s.read < s'.read) → P s'))
    (fuel : Nat) {s s' : State} (hI : I s) (hs : s.read < source.tokens.size)
    (hfuel : source.tokens.size ≤ s.read + fuel)
    (h : Outcome.iterate step fuel s = .done () s') : P s' ∧ source.Forward s s' := by
  induction fuel generalizing s with
  | zero => omega
  | succ fuel ih =>
    simp only [iterate] at h
    cases ho : step s with
    | refused place why memo => simp only [ho, reduceCtorEq] at h
    | done more s₁ =>
      obtain ⟨hforward, hmore, hend⟩ := hstep s more s₁ hI hs ho
      simp only [ho] at h
      cases more with
      | false =>
        cases h
        exact ⟨hend (by simp), hforward⟩
      | true =>
        dsimp only at h
        split at h
        · have hread : s.read < s₁.read := ‹_›
          obtain ⟨hP, hforward'⟩ := ih (hmore ⟨rfl, hread⟩) hforward.2 (by omega) h
          exact ⟨hP, hforward.trans hforward'⟩
        · cases h
          exact ⟨hend fun hread => absurd hread.2 ‹_›, hforward⟩

theorem Move.Ensures.run {other : Rule → State → Outcome Unit} (hended : source.Ended)
    (hother : contract.Kept source other) {α : Type} {m : Move α} {Q : α → State → Prop}
    {s s' : State} {a : α} (hrun : m.run source limit other s = .done a s')
    (hs : s.read < source.tokens.size) (h : m.Ensures source limit contract Q s) :
    Q a s' ∧ source.Forward s s' := by
  induction m generalizing s s' with
  | done value =>
    cases hrun
    exact ⟨h, Nat.le_refl _, hs⟩
  | look next ih => exact ih _ hrun hs h
  | shift next ih =>
    simp only [Move.run] at hrun
    cases ht : source.tokens[s.read]? with
    | none => simp only [ht, reduceCtorEq] at hrun
    | some t =>
      simp only [ht] at hrun
      split at hrun
      · cases hrun
      · obtain ⟨hQ, hle, hlt⟩ := ih hrun (hended _ t ht ‹_›) (h t ht ‹_›)
        exact ⟨hQ, Nat.le_of_succ_le hle, hlt⟩
  | join kind width next ih =>
    simp only [Move.run] at hrun
    cases ht : source.joined kind s.read width with
    | none => simp only [ht, reduceCtorEq] at hrun
    | some t =>
      simp only [ht] at hrun
      obtain ⟨hread, hnext⟩ := h t ht
      obtain ⟨hQ, hle, hlt⟩ := ih hrun hread hnext
      exact ⟨hQ, Nat.le_trans (Nat.le_add_right ..) hle, hlt⟩
  | call rule next ih =>
    simp only [Move.run] at hrun
    cases ho : other rule { s with parts := [] } with
    | refused place why memo => simp only [ho, reduceCtorEq] at hrun
    | done value s₁ =>
      simp only [ho] at hrun
      obtain ⟨hafter, hforward⟩ := hother _ _ _ ho hs rfl h.1
      obtain ⟨hQ, hforward'⟩ := ih hrun hforward.2 (h.2 s₁ hafter)
      exact ⟨hQ, Nat.le_trans hforward.1 hforward'.1, hforward'.2⟩
  | probe what next ih =>
    simp only [Move.run] at hrun
    cases hm : s.memo.lookup (s.read, what) with
    | some width =>
      simp only [hm] at hrun
      exact ih width hrun hs (h width s.memo)
    | none =>
      simp only [hm] at hrun
      cases ho : other what.rule { s with parts := [] } with
      | refused place why memo =>
        simp only [ho] at hrun
        exact (ih none hrun hs (h none _) :)
      | done value s₁ =>
        simp only [ho] at hrun
        exact (ih _ hrun hs (h _ _) :)
  | wrap kind next ih => exact (ih hrun hs h :)
  | deepen next ih =>
    simp only [Move.run] at hrun
    split at hrun
    · exact (ih hrun hs (h ‹_›) :)
    · cases hrun
  | iterate body next ihb ih =>
    simp only [Move.run] at hrun
    obtain ⟨I, hI, hbody⟩ := h
    cases ho : Outcome.iterate (body.run source limit other) source.tokens.size s with
    | refused place why memo => simp only [ho, reduceCtorEq] at hrun
    | done value s₁ =>
      simp only [ho] at hrun
      obtain ⟨hnext, hforward⟩ := Outcome.iterate_ensures
        (fun s more s₂ hs₁ hread hstep => (ihb hstep hread (hbody s hs₁)).symm)
        source.tokens.size hI hs (Nat.le_add_left ..) ho
      obtain ⟨hQ, hforward'⟩ := ih hrun hforward.2 hnext
      exact ⟨hQ, hforward.trans hforward'⟩
  | refuse place why => cases hrun

/-- **Carrying out rules keeps a contract that every production ensures.** -/
theorem Rule.keeps_contract (hended : source.Ended)
    (hrules : ∀ (r : Rule) s, s.parts = [] → contract.before r s →
      r.production.Ensures source limit contract (fun _ s' => contract.after r s s') s)
    (rule : Rule) {s s' : State} (hs : s.read < source.tokens.size) (hparts : s.parts = [])
    (hbefore : contract.before rule s) (hrun : rule.run source limit s = .done () s') :
    contract.after rule s s' ∧ source.Forward s s' := by
  rw [Rule.run] at hrun
  refine Move.Ensures.run (Q := fun _ s' => contract.after rule s s') hended
    (fun r s₁ s₂ ho hread hparts' hbefore' => ?_) hrun hs (hrules rule s hparts hbefore)
  split at ho
  · exact Rule.keeps_contract hended hrules r hread hparts' hbefore' ho
  · cases ho
termination_by source.work rule s.read

end JavaSource.Grammar
