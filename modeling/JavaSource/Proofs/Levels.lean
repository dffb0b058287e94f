import JavaSource.Proofs.Running

/-!
# Every level taken is given back

`Move.run` puts the depth into the state: a rule has a depth of its own, and the rule that had it
read goes on at the depth it had before.  `Move.counted` keeps one counter for all rules instead.
A rule that nests deeper takes a level, at once or turn by turn as its loop goes around; at its end
it gives back all levels it took, whether it is done or refused.  Nobody else sees to the counter:
behind a rule that was read or tried, reading goes on with what that rule left.

A rule is refused where one that it had read is refused, so levels are given back one rule after
the other up to the rule that was only trying.  A level that the limit refuses is not taken, and
nothing is carried out between the look at the limit and the count.

* `Move.counted_keeps`: whatever the moves of a rule do, the counter stands above its start by what
  the rule has taken, and stays between its start and the limit.
* **`Rule.counted_balanced`**: during a rule the counter stays between its start and the limit, at
  the end it is back at its start, and the rule has the outcome that it has anyway; a trial leaves
  all but what is remembered as it was.
-/

namespace JavaSource.Grammar

/-! ### One counter for all rules -/

/-- How reading stands for a rule, the depth in the state being the one counter. -/
structure Ledger where
  state : State
  /-- How many levels the rule has taken. -/
  taken : Nat
  /-- All that the counter has shown during the rule, the latest first. -/
  shown : List Nat

namespace Ledger

/-- A rule that starts in a state. -/
def start (s : State) : Ledger := ⟨s, 0, [s.depth]⟩

/-- Takes a level. -/
def take (l : Ledger) : Ledger :=
  ⟨{ l.state with depth := l.state.depth + 1 }, l.taken + 1, (l.state.depth + 1) :: l.shown⟩

/-- Gives back the levels taken.  What the counter does not cover stays taken. -/
def release (l : Ledger) : Ledger :=
  let depth := l.state.depth - l.taken
  ⟨{ l.state with depth }, l.taken - l.state.depth, depth :: l.shown⟩

/-- Goes on in a state. -/
def goOn (l : Ledger) (s : State) : Ledger := { l with state := s }

/-- Goes on in a state behind another rule. -/
def behind (l other : Ledger) (s : State) : Ledger := ⟨s, l.taken, other.shown ++ l.shown⟩

end Ledger

/-- Where moves lead with one counter for all rules. -/
inductive Counted (α : Type) where
  | done (value : α) (ledger : Ledger)
  | refused (place : Nat) (why : Stop) (ledger : Ledger)

namespace Counted

variable {α : Type}

/-- The ledger at the end. -/
def ledger : Counted α → Ledger
  | done _ l      => l
  | refused _ _ l => l

/-- Where and why moves are refused. -/
def refusal? : Counted α → Option (Nat × Stop)
  | done _ _            => none
  | refused place why _ => some (place, why)

/-- The outcome without the accounts. -/
def outcome : Counted α → Outcome α
  | done value l        => .done value l.state
  | refused place why l => .refused place why l.state.memo

/-- Gives back the levels taken, at whatever end. -/
def release : Counted α → Counted α
  | done value l        => done value l.release
  | refused place why l => refused place why l.release

/-- Moves over and over, while they say so and read something. -/
def iterate (step : Ledger → Counted Bool) : (fuel : Nat) → Ledger → Counted Unit
  | 0, l => .done () l
  | fuel + 1, l =>
    match step l with
    | .refused place why l' => .refused place why l'
    | .done false l'        => .done () l'
    | .done true l'         =>
      if l.state.read < l'.state.read then iterate step fuel l' else .done () l'

end Counted

/-- Carries out moves with one counter for all rules. -/
def Move.counted (source : Source) (limit : Nat) (other : Rule → State → Counted Unit) {α : Type} :
    Move α → Ledger → Counted α
  | .done value, l => .done value l
  | .look next, l  => (next (source.ahead l.state)).counted source limit other l
  | .shift next, l =>
    match source.tokens[l.state.read]? with
    | none   => .refused l.state.read Refusal.noViableAlternative l
    | some t =>
      if t.kind = .eof then .refused l.state.read Refusal.noViableAlternative l
      else
        next.counted source limit other
          (l.goOn { l.state with read := l.state.read + 1, parts := .leaf t :: l.state.parts })
  | .join kind width next, l =>
    match source.joined kind l.state.read width with
    | none   => .refused l.state.read Refusal.noViableAlternative l
    | some t =>
      next.counted source limit other
        (l.goOn { l.state with read := l.state.read + width, parts := .leaf t :: l.state.parts })
  | .call rule next, l =>
    match other rule { l.state with parts := [] } with
    | .refused place why l' => .refused place why (l.behind l' l'.state)
    | .done () l'           =>
      next.counted source limit other
        (l.behind l' { l'.state with parts := l'.state.parts ++ l.state.parts })
  | .probe what next, l =>
    match l.state.memo.lookup (l.state.read, what) with
    | some width => (next width).counted source limit other l
    | none       =>
      let found := other what.rule { l.state with parts := [] }
      let width := found.outcome.width l.state.read
      (next width).counted source limit other
        (l.behind found.ledger
          { found.ledger.state with
            read := l.state.read, parts := l.state.parts,
            memo := ((l.state.read, what), width) :: found.ledger.state.memo })
  | .wrap kind next, l =>
    let phrase := Tree.ofParts kind l.state.parts.reverse (source.location l.state.read)
    next.counted source limit other (l.goOn { l.state with parts := [phrase] })
  | .deepen next, l =>
    if l.state.depth < limit then next.counted source limit other l.take
    else .refused l.state.read .tooDeep l
  | .iterate body next, l =>
    match Counted.iterate (body.counted source limit other) source.tokens.size l with
    | .refused place why l' => .refused place why l'
    | .done () l'           => next.counted source limit other l'
  | .refuse place why, l => .refused place why l

/-- Carries out a rule with one counter for all rules, and gives back what the rule took. -/
def Rule.counted (source : Source) (limit : Nat) (rule : Rule) (s : State) : Counted Unit :=
  (rule.production.counted source limit (fun rule' s' =>
    if source.work rule' s'.read < source.work rule s.read then rule'.counted source limit s'
    else .refused s'.read Refusal.noViableAlternative (.start s')) (.start s)).release
termination_by source.work rule s.read

/-! ### Ledgers in order -/

variable {source : Source} {limit base : Nat} {α : Type}

/-- The counter has stayed between a base and the limit. -/
def Ledger.Stays (base limit : Nat) (l : Ledger) : Prop := ∀ d ∈ l.shown, base ≤ d ∧ d ≤ limit

/-- The counter stands above a base by what has been taken, and has stayed within bounds. -/
structure Ledger.Fits (base limit : Nat) (l : Ledger) : Prop where
  depth : l.state.depth = base + l.taken
  le : l.state.depth ≤ limit
  stays : l.Stays base limit

namespace Ledger

variable {l l' : Ledger} {s : State}

theorem Fits.base_le (h : l.Fits base limit) : base ≤ l.state.depth := by
  rw [h.depth]
  exact Nat.le_add_right ..

theorem Fits.start (h : s.depth ≤ limit) : (start s).Fits s.depth limit where
  depth := rfl
  le := h
  stays := List.forall_mem_singleton.mpr ⟨Nat.le_refl _, h⟩

theorem Fits.goOn (h : l.Fits base limit) (hs : s.depth = l.state.depth) :
    (l.goOn s).Fits base limit :=
  ⟨hs.trans h.depth, hs ▸ h.le, h.stays⟩

theorem Fits.take (h : l.Fits base limit) (hlt : l.state.depth < limit) :
    l.take.Fits base limit where
  depth := by
    show l.state.depth + 1 = base + (l.taken + 1)
    rw [h.depth, Nat.add_assoc]
  le := hlt
  stays := List.forall_mem_cons.mpr ⟨⟨Nat.le_succ_of_le h.base_le, hlt⟩, h.stays⟩

/-- What has been taken is given back in full. -/
theorem Fits.release (h : l.Fits base limit) :
    l.release.state.depth = base ∧ l.release.taken = 0 ∧ l.release.Stays base limit := by
  have hbase : l.state.depth - l.taken = base := by
    rw [h.depth]
    exact Nat.add_sub_cancel ..
  have htaken : l.taken ≤ l.state.depth := by
    rw [h.depth]
    exact Nat.le_add_left ..
  exact ⟨hbase, Nat.sub_eq_zero_of_le htaken, List.forall_mem_cons.mpr
    ⟨hbase ▸ ⟨Nat.le_refl _, hbase ▸ Nat.le_trans h.base_le h.le⟩, h.stays⟩⟩

/-- Behind a rule that started where the counter stood and left it there. -/
theorem Fits.behind (h : l.Fits base limit) (hstays : l'.Stays l.state.depth limit)
    (hs : s.depth = l.state.depth) : (l.behind l' s).Fits base limit where
  depth := hs.trans h.depth
  le := hs ▸ h.le
  stays := List.forall_mem_append.mpr
    ⟨fun d hd => ⟨Nat.le_trans h.base_le (hstays d hd).1, (hstays d hd).2⟩, h.stays⟩

end Ledger

/-- Carried out with one counter, moves keep their ledger in order and have the same outcome. -/
inductive Counted.Keeps (base limit : Nat) : Outcome α → Counted α → Prop where
  | done {value : α} {l : Ledger} (fits : l.Fits base limit) :
    Keeps base limit (.done value l.state) (.done value l)
  | refused {place : Nat} {why : Stop} {l : Ledger} (fits : l.Fits base limit) :
    Keeps base limit (.refused place why l.state.memo) (.refused place why l)

/-- Carried out with one counter, a rule gives back what it took and has the same outcome, but for
the depth. -/
inductive Counted.Balances (limit depth : Nat) : Outcome Unit → Counted Unit → Prop where
  | done {s : State} {l : Ledger} (stays : l.Stays depth limit) (taken : l.taken = 0)
    (state : l.state = { s with depth }) : Balances limit depth (.done () s) (.done () l)
  | refused {place : Nat} {why : Stop} {l : Ledger} (stays : l.Stays depth limit)
    (taken : l.taken = 0) (state : l.state.depth = depth) :
    Balances limit depth (.refused place why l.state.memo) (.refused place why l)

/-- An outcome at some depth. -/
def Outcome.atDepth (depth : Nat) : Outcome α → Outcome α
  | .done value s           => .done value { s with depth }
  | .refused place why memo => .refused place why memo

theorem Counted.Balances.back {depth : Nat} {o : Outcome Unit} {c : Counted Unit}
    (h : c.Balances limit depth o) : c.ledger.state.depth = depth ∧ c.ledger.taken = 0 := by
  cases h with
  | @done s l stays taken state =>
    refine ⟨?_, taken⟩
    show l.state.depth = depth
    rw [state]
  | refused stays taken state => exact ⟨state, taken⟩

theorem Counted.Balances.stays {depth : Nat} {o : Outcome Unit} {c : Counted Unit}
    (h : c.Balances limit depth o) : c.ledger.Stays depth limit := by
  cases h with
  | done stays => exact stays
  | refused stays => exact stays

theorem Counted.Balances.outcome {depth : Nat} {o : Outcome Unit} {c : Counted Unit}
    (h : c.Balances limit depth o) : c.outcome = o.atDepth depth := by
  cases h with
  | done stays taken state => exact congrArg (Outcome.done ()) state
  | refused => rfl

/-- What moves have taken is given back when they are over. -/
theorem Counted.Keeps.release {o : Outcome Unit} {c : Counted Unit} (h : c.Keeps base limit o) :
    c.release.Balances limit base o := by
  cases h with
  | done fits =>
    obtain ⟨hdepth, htaken, hstays⟩ := fits.release
    exact .done hstays htaken (by rw [← hdepth]; rfl)
  | refused fits =>
    obtain ⟨hdepth, htaken, hstays⟩ := fits.release
    exact .refused hstays htaken hdepth

/-! ### Moves keep their ledger in order -/

theorem Counted.iterate_keeps {step : Ledger → Counted Bool} {step' : State → Outcome Bool}
    (hstep : ∀ l, l.Fits base limit → (step l).Keeps base limit (step' l.state)) (fuel : Nat)
    (l : Ledger) (h : l.Fits base limit) :
    (iterate step fuel l).Keeps base limit (Outcome.iterate step' fuel l.state) := by
  induction fuel generalizing l with
  | zero => exact .done h
  | succ fuel ih =>
    have hturn := hstep l h
    simp only [iterate, Outcome.iterate]
    generalize step l = c at hturn
    generalize step' l.state = o at hturn
    cases hturn with
    | refused fits => exact .refused fits
    | @done more l' fits =>
      cases more with
      | false => exact .done fits
      | true =>
        dsimp only
        split
        · exact ih l' fits
        · exact .done fits

/-- **Whatever the moves of a rule do, the counter stands above its start by what the rule has
taken.**  All that is asked of other rules is that they give back what they take. -/
theorem Move.counted_keeps {other : Rule → State → Counted Unit}
    {other' : Rule → State → Outcome Unit}
    (hother : ∀ r s, s.depth ≤ limit → (other r s).Balances limit s.depth (other' r s)) (m : Move α)
    (l : Ledger) (h : l.Fits base limit) :
    (m.counted source limit other l).Keeps base limit (m.run source limit other' l.state) := by
  induction m generalizing l with
  | done value => exact .done h
  | look next ih => exact ih _ l h
  | shift next ih =>
    simp only [counted, run]
    cases source.tokens[l.state.read]? with
    | none => exact .refused h
    | some t =>
      dsimp only
      split
      · exact .refused h
      · exact ih (l.goOn _) (h.goOn rfl)
  | join kind width next ih =>
    simp only [counted, run]
    cases source.joined kind l.state.read width with
    | none => exact .refused h
    | some t => exact ih (l.goOn _) (h.goOn rfl)
  | call rule next ih =>
    have hcall := hother rule { l.state with parts := [] } h.le
    simp only [counted, run]
    generalize other rule { l.state with parts := [] } = c at hcall
    generalize other' rule { l.state with parts := [] } = o at hcall
    cases hcall with
    | refused stays taken state => exact .refused (h.behind stays state)
    | @done s' l' stays taken state =>
      dsimp only
      rw [state]
      exact ih (l.behind l' _) (h.behind stays rfl)
  | probe what next ih =>
    have hcall := hother what.rule { l.state with parts := [] } h.le
    simp only [counted, run]
    cases l.state.memo.lookup (l.state.read, what) with
    | some width => exact ih _ l h
    | none =>
      dsimp only
      generalize other what.rule { l.state with parts := [] } = c at hcall
      generalize other' what.rule { l.state with parts := [] } = o at hcall
      cases hcall with
      | refused stays taken state =>
        dsimp only [Counted.ledger]
        rw [state]
        exact ih none (l.behind _ _) (h.behind stays rfl)
      | @done s' l' stays taken state =>
        dsimp only [Counted.ledger, Counted.outcome, Outcome.width]
        rw [state]
        exact ih (some (s'.read - l.state.read)) (l.behind l' _) (h.behind stays rfl)
  | wrap kind next ih => exact ih (l.goOn _) (h.goOn rfl)
  | deepen next ih =>
    simp only [counted, run]
    split
    · exact ih l.take (h.take ‹_›)
    · exact .refused h
  | iterate body next ihb ih =>
    have hloop := Counted.iterate_keeps ihb source.tokens.size l h
    simp only [counted, run]
    generalize Counted.iterate (body.counted source limit other) source.tokens.size l = c at hloop
    generalize Outcome.iterate (body.run source limit other') source.tokens.size l.state = o
      at hloop
    cases hloop with
    | refused fits => exact .refused fits
    | @done _ l' fits => exact ih l' fits
  | refuse place why => exact .refused h

/-- What a rule takes is given back at its end. -/
theorem Rule.counted_balances (rule : Rule) (s : State) (h : s.depth ≤ limit) :
    (rule.counted source limit s).Balances limit s.depth (rule.run source limit s) := by
  rw [counted, run]
  refine (Move.counted_keeps (fun r s' hs' => ?_) _ _ (.start h)).release
  split
  · exact Rule.counted_balances r s' hs'
  · have hfits : (Ledger.start s').Fits s'.depth limit := .start hs'
    exact .refused hfits.stays rfl rfl
termination_by source.work rule s.read

theorem Outcome.verdict_atDepth (depth limit : Nat) (tokens : List Token) (o : Outcome Unit) :
    (o.atDepth depth).verdict limit tokens = o.verdict limit tokens := by
  cases o <;> rfl

end JavaSource.Grammar

namespace JavaSource

open Grammar

/-- A source has the parse tree, or the fault, that comes of reading it with one counter. -/
theorem parseTree_eq_counted {mode : Mode} {limit : Nat} {source : String} {tokens : List Token}
    (h : tokenize source = .ok tokens) : parseTree mode limit source =
      (mode.start.counted (.ofTokens tokens) limit ⟨0, 0, [], []⟩).outcome.verdict
        limit tokens := by
  rw [parseTree_of_tokenize h]
  have hstart : (mode.start.counted (.ofTokens tokens) limit ⟨0, 0, [], []⟩).Balances limit 0
      (mode.start.run (.ofTokens tokens) limit ⟨0, 0, [], []⟩) :=
    mode.start.counted_balances ⟨0, 0, [], []⟩ (Nat.zero_le limit)
  rw [hstart.outcome, Outcome.verdict_atDepth]

end JavaSource
