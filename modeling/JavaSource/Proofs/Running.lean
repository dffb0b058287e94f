import JavaSource.Proofs.Reaching

/-!
# Moves without a guard

`Rule.run` carries out rules with a guard against calls that get nowhere and with fuel for loops,
so that it comes to an end by its shape alone.  `Move.Runs` says what moves do when nothing is held
back: a rule may have any rule read anywhere, a loop goes around as long as its moves say so, and
reading a symbol at the end of the source gives the end once more.  There may be a limit on the
depth or none, and what probes found may be recalled or not.

A derivation of `Move.Runs` is one finite computation, and its log tells what happened on the way:
who called whom and where, how loops went around, and which places were reached.

* `Move.Runs.unique`: moves have one outcome and one log.
* `Move.Runs.endsAs`, `Rule.run_of_runs`: a computation in which calls go down, loops go forward
  and reading stays in front of the end is that of `Rule.run`.
* `Move.Runs.exists_limit`: a computation without a limit is that under every large limit.
-/

namespace JavaSource.Grammar

/-- The token at a place.  The last one goes on for ever. -/
def Source.tokenAt (source : Source) (place : Nat) : Token :=
  (source.tokens[place]? <|> source.tokens.back?).getD default

/-- A rule, and the place where it starts. -/
abbrev Entry := Rule × Nat

/-- What happens while moves are carried out. -/
inductive Event where
  /-- A rule that was entered has another one read or tried. -/
  | call (caller callee : Entry)
  /-- A loop goes around, from one place to another. -/
  | turn (before after : Nat)
  /-- Reading comes to a place. -/
  | reach (place : Nat)
  /-- The end of the source is read. -/
  | readEnd
  /-- The limit is met. -/
  | tooDeep

/-- How much a trial has read, unless it failed. -/
def Outcome.width (start : Nat) : Outcome Unit → Option Nat
  | .done _ s      => some (s.read - start)
  | .refused _ _ _ => none

/-- What probes have found when moves are over. -/
def Outcome.memo {α : Type} : Outcome α → Memo
  | .done _ s         => s.memo
  | .refused _ _ memo => memo

/-- How what a probe found is found again. -/
abbrev Recall := Memo → Nat × Probe → Option (Option Nat)

/-- By looking it up. -/
def Recall.lookup : Recall := fun memo key => memo.lookup key

/-- Not at all. -/
def Recall.never : Recall := fun _ _ => none

/-- Moves of a rule lead from a state to an outcome. -/
inductive Move.Runs (source : Source) (limit : Option Nat) (recalls : Recall) :
    Entry → {α : Type} → Move α → State → Outcome α → List Event → Prop where
  | done {e : Entry} {α : Type} {value : α} {s : State} :
    Runs source limit recalls e (.done value) s (.done value s) []
  | look {e : Entry} {α : Type} {next : Ahead → Move α} {s : State} {o : Outcome α}
    {log : List Event} (rest : Runs source limit recalls e (next (source.ahead s)) s o log) :
    Runs source limit recalls e (.look next) s o log
  | shift {e : Entry} {α : Type} {next : Move α} {s : State} {o : Outcome α} {log : List Event}
    (inside : (source.tokenAt s.read).kind ≠ .eof)
    (rest : Runs source limit recalls e next
      { s with read := s.read + 1, parts := .leaf (source.tokenAt s.read) :: s.parts } o log) :
    Runs source limit recalls e (.shift next) s o (.reach (s.read + 1) :: log)
  | shiftEnd {e : Entry} {α : Type} {next : Move α} {s : State} {o : Outcome α}
    {log : List Event} (atEnd : (source.tokenAt s.read).kind = .eof)
    (rest : Runs source limit recalls e next
      { s with parts := .leaf (source.tokenAt s.read) :: s.parts } o log) :
    Runs source limit recalls e (.shift next) s o (.readEnd :: log)
  | join {e : Entry} {α : Type} {kind : TokenKind} {width : Nat} {next : Move α} {s : State}
    {o : Outcome α} {log : List Event} {t : Token}
    (joined : source.joined kind s.read width = some t)
    (rest : Runs source limit recalls e next
      { s with read := s.read + width, parts := .leaf t :: s.parts } o log) :
    Runs source limit recalls e (.join kind width next) s o (.reach (s.read + width) :: log)
  | call {e : Entry} {α : Type} {rule : Rule} {next : Move α} {s s' : State} {o : Outcome α}
    {log log' : List Event}
    (callee : Runs source limit recalls (rule, s.read) rule.production { s with parts := [] }
      (.done () s') log)
    (rest : Runs source limit recalls e next
      { s with read := s'.read, parts := s'.parts ++ s.parts, memo := s'.memo } o log') :
    Runs source limit recalls e (.call rule next) s o
      (.call e (rule, s.read) :: (log ++ log'))
  | callRefused {e : Entry} {α : Type} {rule : Rule} {next : Move α} {s : State} {place : Nat}
    {why : Stop} {memo : Memo} {log : List Event}
    (callee : Runs source limit recalls (rule, s.read) rule.production { s with parts := [] }
      (.refused place why memo) log) :
    Runs source limit recalls e (.call rule next) s (.refused place why memo)
      (.call e (rule, s.read) :: log)
  | recalled {e : Entry} {α : Type} {what : Probe} {next : Option Nat → Move α} {s : State}
    {o : Outcome α} {log : List Event} {width : Option Nat}
    (known : recalls s.memo (s.read, what) = some width)
    (rest : Runs source limit recalls e (next width) s o log) :
    Runs source limit recalls e (.probe what next) s o (.call e (what.rule, s.read) :: log)
  | tried {e : Entry} {α : Type} {what : Probe} {next : Option Nat → Move α} {s : State}
    {o : Outcome α} {found : Outcome Unit} {log log' : List Event}
    (unknown : recalls s.memo (s.read, what) = none)
    (callee : Runs source limit recalls (what.rule, s.read) what.rule.production
      { s with parts := [] } found log)
    (rest : Runs source limit recalls e (next (found.width s.read))
      { s with memo := ((s.read, what), found.width s.read) :: found.memo } o log') :
    Runs source limit recalls e (.probe what next) s o
      (.call e (what.rule, s.read) :: (log ++ log'))
  | wrap {e : Entry} {α : Type} {kind : Phrase} {next : Move α} {s : State} {o : Outcome α}
    {log : List Event}
    (rest : Runs source limit recalls e next
      { s with parts := [Tree.ofParts kind s.parts.reverse (source.location s.read)] } o log) :
    Runs source limit recalls e (.wrap kind next) s o log
  | deepen {e : Entry} {α : Type} {next : Move α} {s : State} {o : Outcome α} {log : List Event}
    (within : ∀ n ∈ limit, s.depth < n)
    (rest : Runs source limit recalls e next { s with depth := s.depth + 1 } o log) :
    Runs source limit recalls e (.deepen next) s o log
  | tooDeep {e : Entry} {α : Type} {next : Move α} {s : State}
    (beyond : ¬ ∀ n ∈ limit, s.depth < n) :
    Runs source limit recalls e (.deepen next) s (.refused s.read .tooDeep s.memo) [.tooDeep]
  | leave {e : Entry} {α : Type} {body : Move Bool} {next : Move α} {s s' : State}
    {o : Outcome α} {log log' : List Event}
    (once : Runs source limit recalls e body s (.done false s') log)
    (rest : Runs source limit recalls e next s' o log') :
    Runs source limit recalls e (.iterate body next) s o (log ++ log')
  | again {e : Entry} {α : Type} {body : Move Bool} {next : Move α} {s s' : State}
    {o : Outcome α} {log log' : List Event}
    (once : Runs source limit recalls e body s (.done true s') log)
    (rest : Runs source limit recalls e (.iterate body next) s' o log') :
    Runs source limit recalls e (.iterate body next) s o
      (.turn s.read s'.read :: (log ++ log'))
  | bodyRefused {e : Entry} {α : Type} {body : Move Bool} {next : Move α} {s : State}
    {place : Nat} {why : Stop} {memo : Memo} {log : List Event}
    (once : Runs source limit recalls e body s (.refused place why memo) log) :
    Runs source limit recalls e (.iterate body next) s (.refused place why memo) log
  | refuse {e : Entry} {α : Type} {place : Nat} {why : Refusal} {s : State} :
    Runs source limit recalls e (.refuse place why : Move α) s (.refused place why s.memo) []

namespace Move.Runs

variable {source : Source} {limit : Option Nat} {recalls : Recall} {e : Entry} {α : Type}
  {m : Move α} {s : State} {o o' : Outcome α} {log log' : List Event}

/-- **Moves have one outcome and one log.** -/
theorem unique (h : m.Runs source limit recalls e s o log)
    (h' : m.Runs source limit recalls e s o' log') : o = o' ∧ log = log' := by
  induction h generalizing log' with
  | done => cases h'; exact ⟨rfl, rfl⟩
  | look rest ih => cases h' with | look rest' => exact ih rest'
  | shift inside rest ih =>
    cases h' with
    | shift inside' rest' =>
      obtain ⟨rfl, rfl⟩ := ih rest'
      exact ⟨rfl, rfl⟩
    | shiftEnd atEnd rest' => exact absurd atEnd inside
  | shiftEnd atEnd rest ih =>
    cases h' with
    | shift inside' rest' => exact absurd atEnd inside'
    | shiftEnd atEnd' rest' =>
      obtain ⟨rfl, rfl⟩ := ih rest'
      exact ⟨rfl, rfl⟩
  | join joined rest ih =>
    cases h' with
    | join joined' rest' =>
      obtain rfl := Option.some.inj (joined.symm.trans joined')
      obtain ⟨rfl, rfl⟩ := ih rest'
      exact ⟨rfl, rfl⟩
  | call callee rest ihc ih =>
    cases h' with
    | call callee' rest' =>
      obtain ⟨heq, rfl⟩ := ihc callee'
      cases heq
      obtain ⟨rfl, rfl⟩ := ih rest'
      exact ⟨rfl, rfl⟩
    | callRefused callee' => cases (ihc callee').1
  | callRefused callee ihc =>
    cases h' with
    | call callee' rest' => cases (ihc callee').1
    | callRefused callee' =>
      obtain ⟨heq, rfl⟩ := ihc callee'
      cases heq
      exact ⟨rfl, rfl⟩
  | recalled known rest ih =>
    cases h' with
    | recalled known' rest' =>
      obtain rfl := Option.some.inj (known.symm.trans known')
      obtain ⟨rfl, rfl⟩ := ih rest'
      exact ⟨rfl, rfl⟩
    | tried unknown' callee' rest' => cases known.symm.trans unknown'
  | tried unknown callee rest ihc ih =>
    cases h' with
    | recalled known' rest' => cases unknown.symm.trans known'
    | tried unknown' callee' rest' =>
      obtain ⟨rfl, rfl⟩ := ihc callee'
      obtain ⟨rfl, rfl⟩ := ih rest'
      exact ⟨rfl, rfl⟩
  | wrap rest ih => cases h' with | wrap rest' => exact ih rest'
  | deepen within rest ih =>
    cases h' with
    | deepen within' rest' => exact ih rest'
    | tooDeep beyond' => exact absurd within beyond'
  | tooDeep beyond =>
    cases h' with
    | deepen within' rest' => exact absurd within' beyond
    | tooDeep beyond' => exact ⟨rfl, rfl⟩
  | leave once rest iho ih =>
    cases h' with
    | leave once' rest' =>
      obtain ⟨heq, rfl⟩ := iho once'
      cases heq
      obtain ⟨rfl, rfl⟩ := ih rest'
      exact ⟨rfl, rfl⟩
    | again once' rest' => cases (iho once').1
    | bodyRefused once' => cases (iho once').1
  | again once rest iho ih =>
    cases h' with
    | leave once' rest' => cases (iho once').1
    | again once' rest' =>
      obtain ⟨heq, rfl⟩ := iho once'
      cases heq
      obtain ⟨rfl, rfl⟩ := ih rest'
      exact ⟨rfl, rfl⟩
    | bodyRefused once' => cases (iho once').1
  | bodyRefused once iho =>
    cases h' with
    | leave once' rest' => cases (iho once').1
    | again once' rest' => cases (iho once').1
    | bodyRefused once' =>
      obtain ⟨heq, rfl⟩ := iho once'
      cases heq
      exact ⟨rfl, rfl⟩
  | refuse => cases h'; exact ⟨rfl, rfl⟩

/-- Where moves end is where they started, or a place that was reached. -/
theorem ends_reached {value : α} {s' : State}
    (h : m.Runs source limit recalls e s (.done value s') log) :
    s'.read = s.read ∨ .reach s'.read ∈ log := by
  generalize ho : Outcome.done value s' = o at h
  induction h generalizing s' with
  | done => cases ho; exact .inl rfl
  | look rest ih => exact ih ho
  | shift inside rest ih =>
    rcases ih ho with h | h
    · exact .inr (List.mem_cons.mpr (.inl (congrArg Event.reach h)))
    · exact .inr (List.mem_cons_of_mem _ h)
  | shiftEnd atEnd rest ih => exact (ih ho).imp_right (List.mem_cons_of_mem _)
  | join joined rest ih =>
    rcases ih ho with h | h
    · exact .inr (List.mem_cons.mpr (.inl (congrArg Event.reach h)))
    · exact .inr (List.mem_cons_of_mem _ h)
  | call callee rest ihc ih =>
    rcases ih ho with h | h
    · refine (ihc rfl).imp h.trans fun hreach => ?_
      exact List.mem_cons_of_mem _ (List.mem_append_left _ (h ▸ hreach))
    · exact .inr (List.mem_cons_of_mem _ (List.mem_append_right _ h))
  | recalled known rest ih => exact (ih ho).imp_right (List.mem_cons_of_mem _)
  | tried unknown callee rest ihc ih =>
    exact (ih ho).imp_right fun h => List.mem_cons_of_mem _ (List.mem_append_right _ h)
  | wrap rest ih => exact ih ho
  | deepen within rest ih => exact ih ho
  | leave once rest iho ih =>
    rcases ih ho with h | h
    · exact (iho rfl).imp h.trans fun hreach => List.mem_append_left _ (h ▸ hreach)
    · exact .inr (List.mem_append_right _ h)
  | again once rest iho ih =>
    rcases ih ho with h | h
    · refine (iho rfl).imp h.trans fun hreach => ?_
      exact List.mem_cons_of_mem _ (List.mem_append_left _ (h ▸ hreach))
    · exact .inr (List.mem_cons_of_mem _ (List.mem_append_right _ h))
  | callRefused | tooDeep | bodyRefused | refuse => cases ho

/-- Moves that need no limit need none from some limit on. -/
theorem exists_limit (h : m.Runs source none recalls e s o log) :
    ∃ enough, ∀ n, enough ≤ n → m.Runs source (some n) recalls e s o log := by
  induction h with
  | done => exact ⟨0, fun n _ => .done⟩
  | look rest ih =>
    obtain ⟨enough, hrest⟩ := ih
    exact ⟨enough, fun n hn => .look (hrest n hn)⟩
  | shift inside rest ih =>
    obtain ⟨enough, hrest⟩ := ih
    exact ⟨enough, fun n hn => .shift inside (hrest n hn)⟩
  | shiftEnd atEnd rest ih =>
    obtain ⟨enough, hrest⟩ := ih
    exact ⟨enough, fun n hn => .shiftEnd atEnd (hrest n hn)⟩
  | join joined rest ih =>
    obtain ⟨enough, hrest⟩ := ih
    exact ⟨enough, fun n hn => .join joined (hrest n hn)⟩
  | call callee rest ihc ih =>
    obtain ⟨enough, hcallee⟩ := ihc
    obtain ⟨enough', hrest⟩ := ih
    exact ⟨max enough enough', fun n hn => .call (hcallee n (Nat.max_le.mp hn).1)
      (hrest n (Nat.max_le.mp hn).2)⟩
  | callRefused callee ihc =>
    obtain ⟨enough, hcallee⟩ := ihc
    exact ⟨enough, fun n hn => .callRefused (hcallee n hn)⟩
  | recalled known rest ih =>
    obtain ⟨enough, hrest⟩ := ih
    exact ⟨enough, fun n hn => .recalled known (hrest n hn)⟩
  | tried unknown callee rest ihc ih =>
    obtain ⟨enough, hcallee⟩ := ihc
    obtain ⟨enough', hrest⟩ := ih
    exact ⟨max enough enough', fun n hn => .tried unknown (hcallee n (Nat.max_le.mp hn).1)
      (hrest n (Nat.max_le.mp hn).2)⟩
  | wrap rest ih =>
    obtain ⟨enough, hrest⟩ := ih
    exact ⟨enough, fun n hn => .wrap (hrest n hn)⟩
  | @deepen _ _ _ s _ _ within rest ih =>
    obtain ⟨enough, hrest⟩ := ih
    refine ⟨max (s.depth + 1) enough, fun n hn => ?_⟩
    have hdepth : s.depth < n := (Nat.max_le.mp hn).1
    exact .deepen (fun n' hn' => Option.some.inj hn' ▸ hdepth) (hrest n (Nat.max_le.mp hn).2)
  | tooDeep beyond => exact absurd (fun n hn => nomatch hn) beyond
  | leave once rest iho ih =>
    obtain ⟨enough, honce⟩ := iho
    obtain ⟨enough', hrest⟩ := ih
    exact ⟨max enough enough', fun n hn => .leave (honce n (Nat.max_le.mp hn).1)
      (hrest n (Nat.max_le.mp hn).2)⟩
  | again once rest iho ih =>
    obtain ⟨enough, honce⟩ := iho
    obtain ⟨enough', hrest⟩ := ih
    exact ⟨max enough enough', fun n hn => .again (honce n (Nat.max_le.mp hn).1)
      (hrest n (Nat.max_le.mp hn).2)⟩
  | bodyRefused once iho =>
    obtain ⟨enough, honce⟩ := iho
    exact ⟨enough, fun n hn => .bodyRefused (honce n hn)⟩
  | refuse => exact ⟨0, fun n _ => .refuse⟩

end Move.Runs

/-! ### Guards that are not needed -/

/-- No place before is at the end. -/
def Source.Clear (source : Source) (place : Nat) : Prop :=
  ∀ i < place, (source.tokenAt i).kind ≠ .eof

/-- What may happen: calls go down, loops go forward, and reading stays in front of the end. -/
def Event.Fine (source : Source) : Event → Prop
  | call caller callee => source.work callee.1 callee.2 < source.work caller.1 caller.2
  | turn before after      => before < after
  | reach place        => source.Clear place ∧ place < source.tokens.size
  | readEnd            => False
  | tooDeep            => True

/-- Carries out what a rule has other rules do, guarded. -/
def Entry.guarded (source : Source) (limit : Nat) (e : Entry) (rule : Rule) (s : State) :
    Outcome Unit :=
  if source.work rule s.read < source.work e.1 e.2 then rule.run source limit s
  else .refused s.read Refusal.noViableAlternative s.memo

theorem Rule.run_eq (source : Source) (limit : Nat) (rule : Rule) (s : State) :
    rule.run source limit s =
      rule.production.run source limit (Entry.guarded source limit (rule, s.read)) s := by
  rw [Rule.run]
  rfl

/-- Carried out, moves have an outcome; if they start with a loop, then with any fuel that is as
much as the source is long. -/
def Move.EndsAs (source : Source) (limit : Nat) (other : Rule → State → Outcome Unit)
    {α : Type} (m : Move α) (s : State) (o : Outcome α) : Prop :=
  match m with
  | .iterate body next => ∀ fuel, source.tokens.size ≤ s.read + fuel →
      (Outcome.iterate (body.run source limit other) fuel s).andThen
        (fun _ => next.run source limit other) = o
  | m => m.run source limit other s = o

variable {source : Source} {limit : Nat} {other : Rule → State → Outcome Unit} {α : Type}

theorem Move.EndsAs.run_eq {m : Move α} {s : State} {o : Outcome α}
    (h : m.EndsAs source limit other s o) : m.run source limit other s = o := by
  cases m with
  | iterate body next =>
    rw [← h source.tokens.size (Nat.le_add_left ..)]
    simp only [run]
    cases Outcome.iterate (body.run source limit other) source.tokens.size s <;> rfl
  | _ => exact h

theorem Source.getElem?_tokens {place : Nat} (h : place < source.tokens.size) :
    source.tokens[place]? = some (source.tokenAt place) := by
  simp only [tokenAt, Array.getElem?_eq_getElem h, Option.orElse_eq_orElse, Option.orElse_some,
    Option.getD_some]

theorem Entry.guarded_eq (limit : Nat) {e : Entry} {rule : Rule} {s : State}
    (h : (Event.call e (rule, s.read)).Fine source) : e.guarded source limit rule s =
      rule.production.run source limit (Entry.guarded source limit (rule, s.read)) s :=
  (if_pos h).trans (rule.run_eq source limit s)

/-- Where moves end is inside the source if all is fine. -/
theorem Move.Runs.lt_size {limit : Option Nat} {recalls : Recall} {e : Entry} {m : Move α}
    {s s' : State} {value : α} {log : List Event}
    (h : m.Runs source limit recalls e s (.done value s') log)
    (hfine : ∀ ev ∈ log, ev.Fine source) (hs : s.read < source.tokens.size) :
    s'.read < source.tokens.size := by
  rcases h.ends_reached with heq | hreach
  · exact heq ▸ hs
  · exact (hfine _ hreach).2

/-- **A computation in which all is fine is guarded in vain.** -/
theorem Move.Runs.endsAs {e : Entry} {m : Move α} {s : State} {o : Outcome α} {log : List Event}
    (h : m.Runs source (some limit) .lookup e s o log) (hfine : ∀ ev ∈ log, ev.Fine source)
    (hs : s.read < source.tokens.size) : m.EndsAs source limit (e.guarded source limit) s o := by
  induction h with
  | done => rfl
  | look rest ih => exact (ih hfine hs).run_eq
  | shift inside rest ih =>
    obtain ⟨hreach, hfine⟩ := List.forall_mem_cons.mp hfine
    show Move.run .. = _
    simp only [run, Source.getElem?_tokens hs, if_neg inside]
    exact (ih hfine hreach.2).run_eq
  | shiftEnd atEnd rest ih => exact (hfine _ List.mem_cons_self).elim
  | join joined rest ih =>
    obtain ⟨hreach, hfine⟩ := List.forall_mem_cons.mp hfine
    show Move.run .. = _
    simp only [run, joined]
    exact (ih hfine hreach.2).run_eq
  | @call e _ rule _ s _ _ _ _ callee rest ihc ih =>
    obtain ⟨hcall, hfine⟩ := List.forall_mem_cons.mp hfine
    obtain ⟨hcallee, hrest⟩ := List.forall_mem_append.mp hfine
    have hfound := Entry.guarded_eq limit (s := { s with parts := [] }) hcall
    show Move.run .. = _
    simp only [run, hfound, (ihc hcallee hs).run_eq]
    exact (ih hrest (callee.lt_size hcallee hs)).run_eq
  | @callRefused e _ rule _ s _ _ _ _ callee ihc =>
    obtain ⟨hcall, hcallee⟩ := List.forall_mem_cons.mp hfine
    have hfound := Entry.guarded_eq limit (s := { s with parts := [] }) hcall
    show Move.run .. = _
    simp only [run, hfound, (ihc hcallee hs).run_eq]
  | recalled known rest ih =>
    obtain ⟨-, hfine⟩ := List.forall_mem_cons.mp hfine
    rw [Recall.lookup] at known
    show Move.run .. = _
    simp only [run, known]
    exact (ih hfine hs).run_eq
  | @tried e _ what _ s _ found _ _ unknown callee rest ihc ih =>
    obtain ⟨hcall, hfine⟩ := List.forall_mem_cons.mp hfine
    obtain ⟨hcallee, hrest⟩ := List.forall_mem_append.mp hfine
    have hfound := Entry.guarded_eq limit (s := { s with parts := [] }) hcall
    rw [Recall.lookup] at unknown
    show Move.run .. = _
    simp only [run, unknown, hfound, (ihc hcallee hs).run_eq]
    cases found with
    | refused place why memo => exact (ih hrest hs).run_eq
    | done value s' => exact (ih hrest hs).run_eq
  | wrap rest ih => exact (ih hfine hs).run_eq
  | deepen within rest ih =>
    show Move.run .. = _
    simp only [run, if_pos (within limit rfl)]
    exact (ih hfine hs).run_eq
  | tooDeep beyond =>
    show Move.run .. = _
    simp only [run]
    exact if_neg fun hlt => beyond fun n hn => Option.some.inj hn ▸ hlt
  | leave once rest iho ih =>
    obtain ⟨honce, hrest⟩ := List.forall_mem_append.mp hfine
    intro fuel hfuel
    obtain ⟨fuel, rfl⟩ : ∃ n, fuel = n + 1 := ⟨fuel - 1, by omega⟩
    simp only [Outcome.iterate, (iho honce hs).run_eq]
    exact (ih hrest (once.lt_size honce hs)).run_eq
  | again once rest iho ih =>
    obtain ⟨hturn, hfine⟩ := List.forall_mem_cons.mp hfine
    obtain ⟨honce, hrest⟩ := List.forall_mem_append.mp hfine
    intro fuel hfuel
    obtain ⟨fuel, rfl⟩ : ∃ n, fuel = n + 1 := ⟨fuel - 1, by omega⟩
    simp only [Outcome.iterate, (iho honce hs).run_eq]
    have hforward : _ < _ := hturn
    rw [if_pos hforward]
    exact ih hrest (once.lt_size honce hs) fuel (by omega)
  | bodyRefused once iho =>
    intro fuel hfuel
    obtain ⟨fuel, rfl⟩ : ∃ n, fuel = n + 1 := ⟨fuel - 1, by omega⟩
    simp only [Outcome.iterate, (iho hfine hs).run_eq]
    rfl
  | refuse => rfl

/-- A rule that all goes well with is carried out as if it were not guarded. -/
theorem Rule.run_of_runs {rule : Rule} {s : State} {o : Outcome Unit} {log : List Event}
    (h : rule.production.Runs source (some limit) .lookup (rule, s.read) s o log)
    (hfine : ∀ ev ∈ log, ev.Fine source) (hs : s.read < source.tokens.size) :
    rule.run source limit s = o :=
  (rule.run_eq source limit s).trans (h.endsAs hfine hs).run_eq

end JavaSource.Grammar
