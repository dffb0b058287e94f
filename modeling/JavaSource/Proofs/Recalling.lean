import JavaSource.Proofs.Termination

/-!
# What is recalled makes no difference

What a probe found at a token is found again without trying.  `Rule.runBy` leaves open how: with
`Recall.lookup` it is `Rule.runWithin` (`Rule.runBy_lookup`), and with `Recall.never` every probe
tries its rule anew, however often the same rule was tried at the same place.

What a rule reads does not depend on the depth at which it is tried, as long as no limit is met,
nor on what has been found before (`Move.Runs.anew`).  So all that is remembered is what would be
found anew, and it stays so (`Move.Runs.recalling`).

* **`JavaSource.parseTree_recalling`**: where the limit is not met, a source has the same parse
  tree, or the same fault, whether probes are recalled or tried anew.
-/

namespace JavaSource.Grammar

/-! ### A recognizer that recalls in some way -/

/-- Carries out moves up to where they meet the limit, recalling in a given way. -/
def Move.runBy (source : Source) (limit : Nat) (recalls : Recall)
    (other : Rule → State → Within Unit) {α : Type} : Move α → State → Within α
  | .done value, s => .ok (.done value s)
  | .look next, s  => (next (source.ahead s)).runBy source limit recalls other s
  | .shift next, s =>
    match source.tokens[s.read]? with
    | none   => .ok (.refused s.read Refusal.noViableAlternative s.memo)
    | some t =>
      if t.kind = .eof then .ok (.refused s.read Refusal.noViableAlternative s.memo)
      else
        next.runBy source limit recalls other
          { s with read := s.read + 1, parts := .leaf t :: s.parts }
  | .join kind width next, s =>
    match source.joined kind s.read width with
    | none   => .ok (.refused s.read Refusal.noViableAlternative s.memo)
    | some t =>
      next.runBy source limit recalls other
        { s with read := s.read + width, parts := .leaf t :: s.parts }
  | .call rule next, s =>
    match other rule { s with parts := [] } with
    | .error met                    => .error met
    | .ok (.refused place why memo) => .ok (.refused place why memo)
    | .ok (.done () s')             =>
      next.runBy source limit recalls other
        { s with read := s'.read, parts := s'.parts ++ s.parts, memo := s'.memo }
  | .probe what next, s =>
    match recalls s.memo (s.read, what) with
    | some width => (next width).runBy source limit recalls other s
    | none       =>
      match other what.rule { s with parts := [] } with
      | .error _  => .error .trying
      | .ok found =>
        (next (found.width s.read)).runBy source limit recalls other
          { s with memo := ((s.read, what), found.width s.read) :: found.memo }
  | .wrap kind next, s =>
    let phrase := Tree.ofParts kind s.parts.reverse (source.location s.read)
    next.runBy source limit recalls other { s with parts := [phrase] }
  | .deepen next, s =>
    if s.depth < limit then next.runBy source limit recalls other { s with depth := s.depth + 1 }
    else .error .reading
  | .iterate body next, s =>
    match Outcome.iterateWithin (body.runBy source limit recalls other) source.tokens.size s with
    | .error met                    => .error met
    | .ok (.refused place why memo) => .ok (.refused place why memo)
    | .ok (.done () s')             => next.runBy source limit recalls other s'
  | .refuse place why, s => .ok (.refused place why s.memo)

/-- Carries out a rule up to where it meets the limit, recalling in a given way. -/
def Rule.runBy (source : Source) (limit : Nat) (recalls : Recall) (rule : Rule) (s : State) :
    Within Unit :=
  rule.production.runBy source limit recalls (fun rule' s' =>
    if source.work rule' s'.read < source.work rule s.read then
      rule'.runBy source limit recalls s'
    else .ok (.refused s'.read Refusal.noViableAlternative s'.memo)) s
termination_by source.work rule s.read

variable {source : Source} {limit : Nat} {recalls : Recall} {α : Type}

theorem Move.runBy_lookup {other : Rule → State → Within Unit} (m : Move α) (s : State) :
    m.runBy source limit .lookup other s = m.runWithin source limit other s := by
  induction m generalizing s with
  | done value => rfl
  | look next ih => exact ih _ s
  | shift next ih =>
    simp only [runBy, runWithin]
    cases source.tokens[s.read]? with
    | none => rfl
    | some t => simp only [ih]
  | join kind width next ih =>
    simp only [runBy, runWithin]
    cases source.joined kind s.read width with
    | none => rfl
    | some t => exact ih _
  | call rule next ih =>
    simp only [runBy, runWithin]
    cases other rule { s with parts := [] } with
    | error met => rfl
    | ok found =>
      cases found with
      | refused place why memo => rfl
      | done value s' => exact ih _
  | probe what next ih =>
    simp only [runBy, runWithin, ih, Recall.lookup]
    cases s.memo.lookup (s.read, what) with
    | some width => rfl
    | none =>
      dsimp only
      cases other what.rule { s with parts := [] } with
      | error met => rfl
      | ok found => cases found <;> rfl
  | wrap kind next ih => exact ih _
  | deepen next ih => simp only [runBy, runWithin, ih]
  | iterate body next ihb ih =>
    have hbody : body.runBy source limit .lookup other = body.runWithin source limit other :=
      funext ihb
    simp only [runBy, runWithin, hbody]
    cases Outcome.iterateWithin (body.runWithin source limit other) source.tokens.size s with
    | error met => rfl
    | ok found =>
      cases found with
      | refused place why memo => rfl
      | done value s' => exact ih s'
  | refuse place why => rfl

/-- By looking up, a rule is carried out as it is anyway. -/
theorem Rule.runBy_lookup (rule : Rule) (s : State) :
    rule.runBy source limit .lookup s = rule.runWithin source limit s := by
  rw [runBy, runWithin, Move.runBy_lookup]
  congr 1
  funext r s'
  split
  · exact Rule.runBy_lookup r s'
  · rfl
termination_by source.work rule s.read

/-! ### Computations that meet no limit -/

/-- Carries out what a rule has other rules do, guarded. -/
def Entry.guardedBy (source : Source) (limit : Nat) (recalls : Recall) (e : Entry) (rule : Rule)
    (s : State) : Within Unit :=
  if source.work rule s.read < source.work e.1 e.2 then rule.runBy source limit recalls s
  else .ok (.refused s.read Refusal.noViableAlternative s.memo)

theorem Rule.runBy_eq (rule : Rule) (s : State) :
    rule.runBy source limit recalls s =
      rule.production.runBy source limit recalls
        (Entry.guardedBy source limit recalls (rule, s.read)) s := by
  rw [Rule.runBy]
  rfl

theorem Entry.guardedBy_eq (limit : Nat) (recalls : Recall) {e : Entry} {rule : Rule} {s : State}
    (h : (Event.call e (rule, s.read)).Fine source) : e.guardedBy source limit recalls rule s =
      rule.production.runBy source limit recalls
        (Entry.guardedBy source limit recalls (rule, s.read)) s :=
  (if_pos h).trans (rule.runBy_eq s)

/-- Where moves lead behind a loop, unless it meets the limit. -/
def Within.andThen (r : Within Unit) (next : State → Within α) : Within α :=
  match r with
  | .error met                    => .error met
  | .ok (.refused place why memo) => .ok (.refused place why memo)
  | .ok (.done () s)              => next s

/-- Carried out, moves have an outcome or meet the limit; if they start with a loop, then with any
fuel that is as much as the source is long. -/
def Move.EndsWithin (source : Source) (limit : Nat) (recalls : Recall)
    (other : Rule → State → Within Unit) (m : Move α) (s : State) (r : Within α) : Prop :=
  match m with
  | .iterate body next => ∀ fuel, source.tokens.size ≤ s.read + fuel →
      Within.andThen (Outcome.iterateWithin (body.runBy source limit recalls other) fuel s)
        (next.runBy source limit recalls other) = r
  | m => m.runBy source limit recalls other s = r

theorem Move.EndsWithin.runBy_eq {other : Rule → State → Within Unit} {m : Move α} {s : State}
    {r : Within α} (h : m.EndsWithin source limit recalls other s r) :
    m.runBy source limit recalls other s = r := by
  cases m with
  | iterate body next =>
    rw [← h source.tokens.size (Nat.le_add_left ..)]
    simp only [runBy, Within.andThen]
  | _ => exact h

/-- What comes of moves with an outcome and a log: the outcome, unless the limit was met. -/
inductive Event.Tells (log : List Event) (o : Outcome α) : Within α → Prop where
  | met (met : LimitMet) (h : Event.tooDeep ∈ log) : Tells log o (.error met)
  | whole (h : Event.tooDeep ∉ log) : Tells log o (.ok o)

theorem Event.Tells.behind (front : List Event) {log : List Event} {o : Outcome α} {r : Within α}
    (h : Tells log o r) (hfront : Event.tooDeep ∉ front) : Tells (front ++ log) o r := by
  cases h with
  | met met hmem => exact .met met (List.mem_append_right _ hmem)
  | whole hmem => exact .whole fun h => (List.mem_append.mp h).elim hfront hmem

/-- **A computation is carried out up to where it meets the limit.** -/
theorem Move.Runs.endsWithin {e : Entry} {m : Move α} {s : State} {o : Outcome α}
    {log : List Event} (h : m.Runs source (some limit) recalls e s o log)
    (hfine : ∀ ev ∈ log, ev.Fine source) (hs : s.read < source.tokens.size) :
    ∃ r, m.EndsWithin source limit recalls (e.guardedBy source limit recalls) s r ∧
      Event.Tells log o r := by
  induction h with
  | done => exact ⟨_, rfl, .whole List.not_mem_nil⟩
  | look rest ih =>
    obtain ⟨r, hr, htells⟩ := ih hfine hs
    exact ⟨r, hr.runBy_eq, htells⟩
  | @shift e _ next s _ log inside rest ih =>
    obtain ⟨hreach, hfine⟩ := List.forall_mem_cons.mp hfine
    obtain ⟨r, hr, htells⟩ := ih hfine hreach.2
    refine ⟨r, ?_, htells.behind [_] (by simp)⟩
    show Move.runBy .. = _
    simp only [runBy, Source.getElem?_tokens hs, if_neg inside]
    exact hr.runBy_eq
  | shiftEnd atEnd rest ih => exact (hfine _ List.mem_cons_self).elim
  | join joined rest ih =>
    obtain ⟨hreach, hfine⟩ := List.forall_mem_cons.mp hfine
    obtain ⟨r, hr, htells⟩ := ih hfine hreach.2
    refine ⟨r, ?_, htells.behind [_] (by simp)⟩
    show Move.runBy .. = _
    simp only [runBy, joined]
    exact hr.runBy_eq
  | @call e _ rule _ s _ _ _ _ callee rest ihc ih =>
    obtain ⟨hcall, hfine⟩ := List.forall_mem_cons.mp hfine
    obtain ⟨hcallee, hrest⟩ := List.forall_mem_append.mp hfine
    have hfound := Entry.guardedBy_eq limit recalls
      (s := { s with parts := [] }) hcall
    obtain ⟨rc, hrc, htells⟩ := ihc hcallee hs
    cases htells with
    | met met hmem =>
      refine ⟨.error met, ?_, .met met (List.mem_cons_of_mem _ (List.mem_append_left _ hmem))⟩
      show Move.runBy .. = _
      simp only [runBy, hfound, hrc.runBy_eq]
    | whole hmem =>
      obtain ⟨r, hr, htells⟩ := ih hrest (callee.lt_size hcallee hs)
      refine ⟨r, ?_, htells.behind (_ :: _) (by simpa using hmem)⟩
      show Move.runBy .. = _
      simp only [runBy, hfound, hrc.runBy_eq]
      exact hr.runBy_eq
  | @callRefused e _ rule _ s _ _ _ _ callee ihc =>
    obtain ⟨hcall, hcallee⟩ := List.forall_mem_cons.mp hfine
    have hfound := Entry.guardedBy_eq limit recalls
      (s := { s with parts := [] }) hcall
    obtain ⟨rc, hrc, htells⟩ := ihc hcallee hs
    cases htells with
    | met met hmem =>
      refine ⟨.error met, ?_, .met met (List.mem_cons_of_mem _ hmem)⟩
      show Move.runBy .. = _
      simp only [runBy, hfound, hrc.runBy_eq]
    | whole hmem =>
      refine ⟨_, ?_, .whole (by simpa using hmem)⟩
      show Move.runBy .. = _
      simp only [runBy, hfound, hrc.runBy_eq]
  | recalled known rest ih =>
    obtain ⟨-, hfine⟩ := List.forall_mem_cons.mp hfine
    obtain ⟨r, hr, htells⟩ := ih hfine hs
    refine ⟨r, ?_, htells.behind [_] (by simp)⟩
    show Move.runBy .. = _
    simp only [runBy, known]
    exact hr.runBy_eq
  | @tried e _ what _ s _ found _ _ unknown callee rest ihc ih =>
    obtain ⟨hcall, hfine⟩ := List.forall_mem_cons.mp hfine
    obtain ⟨hcallee, hrest⟩ := List.forall_mem_append.mp hfine
    have hfound := Entry.guardedBy_eq limit recalls
      (s := { s with parts := [] }) hcall
    obtain ⟨rc, hrc, htells⟩ := ihc hcallee hs
    cases htells with
    | met met hmem =>
      refine ⟨.error .trying, ?_, .met _ (List.mem_cons_of_mem _ (List.mem_append_left _ hmem))⟩
      show Move.runBy .. = _
      simp only [runBy, unknown, hfound, hrc.runBy_eq]
    | whole hmem =>
      obtain ⟨r, hr, htells⟩ := ih hrest hs
      refine ⟨r, ?_, htells.behind (_ :: _) (by simpa using hmem)⟩
      show Move.runBy .. = _
      simp only [runBy, unknown, hfound, hrc.runBy_eq]
      exact hr.runBy_eq
  | wrap rest ih =>
    obtain ⟨r, hr, htells⟩ := ih hfine hs
    exact ⟨r, hr.runBy_eq, htells⟩
  | deepen within rest ih =>
    obtain ⟨r, hr, htells⟩ := ih hfine hs
    refine ⟨r, ?_, htells⟩
    show Move.runBy .. = _
    simp only [runBy, if_pos (within limit rfl)]
    exact hr.runBy_eq
  | tooDeep beyond =>
    refine ⟨.error .reading, ?_, .met _ (List.mem_singleton_self _)⟩
    show Move.runBy .. = _
    simp only [runBy]
    exact if_neg fun hlt => beyond fun n hn => Option.some.inj hn ▸ hlt
  | leave once rest iho ih =>
    obtain ⟨honce, hrest⟩ := List.forall_mem_append.mp hfine
    obtain ⟨rb, hrb, htells⟩ := iho honce hs
    cases htells with
    | met met hmem =>
      refine ⟨.error met, fun fuel hfuel => ?_, .met met (List.mem_append_left _ hmem)⟩
      obtain ⟨fuel, rfl⟩ : ∃ n, fuel = n + 1 := ⟨fuel - 1, by omega⟩
      simp only [Outcome.iterateWithin, hrb.runBy_eq, Within.andThen]
    | whole hmem =>
      obtain ⟨r, hr, htells⟩ := ih hrest (once.lt_size honce hs)
      refine ⟨r, fun fuel hfuel => ?_, htells.behind _ hmem⟩
      obtain ⟨fuel, rfl⟩ : ∃ n, fuel = n + 1 := ⟨fuel - 1, by omega⟩
      simp only [Outcome.iterateWithin, hrb.runBy_eq, Within.andThen]
      exact hr.runBy_eq
  | again once rest iho ih =>
    obtain ⟨hturn, hfine⟩ := List.forall_mem_cons.mp hfine
    obtain ⟨honce, hrest⟩ := List.forall_mem_append.mp hfine
    have hforward : _ < _ := hturn
    obtain ⟨rb, hrb, htells⟩ := iho honce hs
    cases htells with
    | met met hmem =>
      refine ⟨.error met, fun fuel hfuel => ?_,
        .met met (List.mem_cons_of_mem _ (List.mem_append_left _ hmem))⟩
      obtain ⟨fuel, rfl⟩ : ∃ n, fuel = n + 1 := ⟨fuel - 1, by omega⟩
      simp only [Outcome.iterateWithin, hrb.runBy_eq, Within.andThen]
    | whole hmem =>
      obtain ⟨r, hr, htells⟩ := ih hrest (once.lt_size honce hs)
      refine ⟨r, fun fuel hfuel => ?_, htells.behind (_ :: _) (by simpa using hmem)⟩
      obtain ⟨fuel, rfl⟩ : ∃ n, fuel = n + 1 := ⟨fuel - 1, by omega⟩
      simp only [Outcome.iterateWithin, hrb.runBy_eq, if_pos hforward]
      exact hr fuel (by omega)
  | bodyRefused once iho =>
    obtain ⟨rb, hrb, htells⟩ := iho hfine hs
    cases htells with
    | met met hmem =>
      refine ⟨.error met, fun fuel hfuel => ?_, .met met hmem⟩
      obtain ⟨fuel, rfl⟩ : ∃ n, fuel = n + 1 := ⟨fuel - 1, by omega⟩
      simp only [Outcome.iterateWithin, hrb.runBy_eq, Within.andThen]
    | whole hmem =>
      refine ⟨_, fun fuel hfuel => ?_, .whole hmem⟩
      obtain ⟨fuel, rfl⟩ : ∃ n, fuel = n + 1 := ⟨fuel - 1, by omega⟩
      simp only [Outcome.iterateWithin, hrb.runBy_eq, Within.andThen]
  | refuse => exact ⟨_, rfl, .whole List.not_mem_nil⟩

/-! ### Depth and memory make no difference -/

/-- An outcome at another depth and with another memory. -/
def Outcome.at_ (depth : Nat) (memo : Memo) : Outcome α → Outcome α
  | .done value s        => .done value { s with depth, memo }
  | .refused place why _ => .refused place why memo

@[simp] theorem Outcome.width_at {depth : Nat} {memo : Memo} {start : Nat} (o : Outcome Unit) :
    (o.at_ depth memo).width start = o.width start := by
  cases o <;> rfl

/-- What is tried anew does not depend on the depth, nor on what has been found, as long as no
limit is met. -/
theorem Move.Runs.anew {limit : Option Nat} {e : Entry} {m : Move α} {s : State} {o : Outcome α}
    {log : List Event} (h : m.Runs source limit .never e s o log) (hwhole : .tooDeep ∉ log)
    (depth : Nat) (memo : Memo) :
    ∃ depth' memo', m.Runs source none .never e { s with depth, memo }
      (o.at_ depth' memo') log := by
  induction h generalizing depth memo with
  | done => exact ⟨_, _, .done⟩
  | look rest ih =>
    obtain ⟨_, _, h⟩ := ih hwhole depth memo
    exact ⟨_, _, .look h⟩
  | shift inside rest ih =>
    obtain ⟨_, _, h⟩ := ih (fun h => hwhole (List.mem_cons_of_mem _ h)) depth memo
    exact ⟨_, _, .shift inside h⟩
  | shiftEnd atEnd rest ih =>
    obtain ⟨_, _, h⟩ := ih (fun h => hwhole (List.mem_cons_of_mem _ h)) depth memo
    exact ⟨_, _, .shiftEnd atEnd h⟩
  | join joined rest ih =>
    obtain ⟨_, _, h⟩ := ih (fun h => hwhole (List.mem_cons_of_mem _ h)) depth memo
    exact ⟨_, _, .join joined h⟩
  | call callee rest ihc ih =>
    simp only [List.mem_cons, List.mem_append, not_or] at hwhole
    obtain ⟨_, memo', hc⟩ := ihc hwhole.2.1 depth memo
    obtain ⟨_, _, h⟩ := ih hwhole.2.2 depth memo'
    exact ⟨_, _, .call hc h⟩
  | callRefused callee ihc =>
    obtain ⟨_, _, hc⟩ := ihc (fun h => hwhole (List.mem_cons_of_mem _ h)) depth memo
    exact ⟨depth, _, .callRefused hc⟩
  | recalled known rest ih => cases known
  | @tried _ _ what _ s _ found _ _ unknown callee rest ihc ih =>
    simp only [List.mem_cons, List.mem_append, not_or] at hwhole
    obtain ⟨depth', memo', hc⟩ := ihc hwhole.2.1 depth memo
    obtain ⟨_, _, h⟩ := ih hwhole.2.2 depth
      (((s.read, what), found.width s.read) :: (found.at_ depth' memo').memo)
    exact ⟨_, _, .tried rfl hc (by rw [Outcome.width_at]; exact h)⟩
  | wrap rest ih =>
    obtain ⟨_, _, h⟩ := ih hwhole depth memo
    exact ⟨_, _, .wrap h⟩
  | deepen within rest ih =>
    obtain ⟨_, _, h⟩ := ih hwhole (depth + 1) memo
    exact ⟨_, _, .deepen (fun _ hn => nomatch hn) h⟩
  | tooDeep beyond => exact absurd (List.mem_singleton_self _) hwhole
  | leave once rest iho ih =>
    simp only [List.mem_append, not_or] at hwhole
    obtain ⟨depth', memo', ho⟩ := iho hwhole.1 depth memo
    obtain ⟨_, _, h⟩ := ih hwhole.2 depth' memo'
    exact ⟨_, _, .leave ho h⟩
  | again once rest iho ih =>
    simp only [List.mem_cons, List.mem_append, not_or] at hwhole
    obtain ⟨depth', memo', ho⟩ := iho hwhole.2.1 depth memo
    obtain ⟨_, _, h⟩ := ih hwhole.2.2 depth' memo'
    have hagain := Move.Runs.again ho h
    exact ⟨_, _, hagain⟩
  | bodyRefused once iho =>
    obtain ⟨_, _, ho⟩ := iho hwhole depth memo
    exact ⟨depth, _, .bodyRefused ho⟩
  | refuse => exact ⟨depth, _, .refuse⟩

/-- All that is remembered is what would be found anew. -/
def Memo.Holds (source : Source) (memo : Memo) : Prop :=
  ∀ place what width, memo.lookup (place, what) = some width →
    ∃ o log, what.rule.production.Runs source none .never (what.rule, place)
      ⟨place, 0, [], []⟩ o log ∧ o.width place = width

theorem Memo.Holds.cons {memo : Memo} {place : Nat} {what : Probe} {o : Outcome Unit}
    {log : List Event} (h : memo.Holds source)
    (hfound : what.rule.production.Runs source none .never (what.rule, place)
      ⟨place, 0, [], []⟩ o log) :
    Memo.Holds source (((place, what), o.width place) :: memo) := by
  intro place' what' width hlookup
  rw [List.lookup_cons] at hlookup
  split at hlookup
  · rename_i heq
    cases eq_of_beq heq
    exact ⟨o, log, hfound, Option.some.inj hlookup⟩
  · exact h place' what' width hlookup

/-- An outcome with another memory. -/
def Outcome.remembering (memo : Memo) : Outcome α → Outcome α
  | .done value s        => .done value { s with memo }
  | .refused place why _ => .refused place why memo

@[simp] theorem Outcome.width_remembering {memo : Memo} {start : Nat} (o : Outcome Unit) :
    (o.remembering memo).width start = o.width start := by
  cases o <;> rfl

@[simp] theorem Outcome.memo_remembering {memo : Memo} (o : Outcome α) :
    (o.remembering memo).memo = memo := by
  cases o <;> rfl

/-- **What is remembered makes no difference, and stays what would be found anew.** -/
theorem Move.Runs.recalling {limit : Option Nat} {e : Entry} {m : Move α} {s : State}
    {o : Outcome α} {log : List Event} (h : m.Runs source limit .never e s o log)
    (hwhole : .tooDeep ∉ log) (memo : Memo) (hmemo : memo.Holds source) :
    ∃ memo' log', m.Runs source limit .lookup e { s with memo } (o.remembering memo') log' ∧
      Memo.Holds source memo' ∧ .tooDeep ∉ log' := by
  induction h generalizing memo with
  | done => exact ⟨memo, _, .done, hmemo, List.not_mem_nil⟩
  | look rest ih =>
    obtain ⟨memo', log', h, hholds, hnot⟩ := ih hwhole memo hmemo
    exact ⟨memo', _, .look h, hholds, hnot⟩
  | shift inside rest ih =>
    obtain ⟨memo', log', h, hholds, hnot⟩ :=
      ih (fun h => hwhole (List.mem_cons_of_mem _ h)) memo hmemo
    exact ⟨memo', _, .shift inside h, hholds, by simpa using hnot⟩
  | shiftEnd atEnd rest ih =>
    obtain ⟨memo', log', h, hholds, hnot⟩ :=
      ih (fun h => hwhole (List.mem_cons_of_mem _ h)) memo hmemo
    exact ⟨memo', _, .shiftEnd atEnd h, hholds, by simpa using hnot⟩
  | join joined rest ih =>
    obtain ⟨memo', log', h, hholds, hnot⟩ :=
      ih (fun h => hwhole (List.mem_cons_of_mem _ h)) memo hmemo
    exact ⟨memo', _, .join joined h, hholds, by simpa using hnot⟩
  | call callee rest ihc ih =>
    simp only [List.mem_cons, List.mem_append, not_or] at hwhole
    obtain ⟨memo', logc, hc, hholds, hnotc⟩ := ihc hwhole.2.1 memo hmemo
    obtain ⟨memo'', log', h, hholds', hnot⟩ := ih hwhole.2.2 _ hholds
    exact ⟨memo'', _, .call hc h, hholds', by simp [hnotc, hnot]⟩
  | callRefused callee ihc =>
    obtain ⟨memo', logc, hc, hholds, hnotc⟩ :=
      ihc (fun h => hwhole (List.mem_cons_of_mem _ h)) memo hmemo
    exact ⟨memo', _, .callRefused hc, hholds, by simpa using hnotc⟩
  | recalled known rest ih => cases known
  | @tried _ _ what _ s _ found _ _ unknown callee rest ihc ih =>
    simp only [List.mem_cons, List.mem_append, not_or] at hwhole
    obtain ⟨_, _, hanew⟩ := callee.anew hwhole.2.1 0 []
    cases hlookup : memo.lookup (s.read, what) with
    | some width =>
      -- What was found before is what is found now.
      obtain ⟨o, _, hbefore, hwidth⟩ := hmemo _ _ _ hlookup
      obtain ⟨rfl, -⟩ := hbefore.unique hanew
      rw [Outcome.width_at] at hwidth
      obtain ⟨memo', log', h, hholds, hnot⟩ := ih hwhole.2.2 memo hmemo
      exact ⟨memo', _, .recalled (hlookup.trans (congrArg some hwidth.symm)) h, hholds,
        by simpa using hnot⟩
    | none =>
      obtain ⟨memo', logc, hc, hholds, hnotc⟩ := ihc hwhole.2.1 memo hmemo
      have hholds' := hholds.cons hanew
      rw [Outcome.width_at] at hholds'
      obtain ⟨memo'', log', h, hholds'', hnot⟩ := ih hwhole.2.2 _ hholds'
      refine ⟨memo'', _ :: (logc ++ log'), .tried hlookup hc ?_, hholds'', by simp [hnotc, hnot]⟩
      rw [Outcome.width_remembering, Outcome.memo_remembering]
      exact h
  | wrap rest ih =>
    obtain ⟨memo', log', h, hholds, hnot⟩ := ih hwhole memo hmemo
    exact ⟨memo', _, .wrap h, hholds, hnot⟩
  | deepen within rest ih =>
    obtain ⟨memo', log', h, hholds, hnot⟩ := ih hwhole memo hmemo
    exact ⟨memo', _, .deepen within h, hholds, hnot⟩
  | tooDeep beyond => exact absurd (List.mem_singleton_self _) hwhole
  | leave once rest iho ih =>
    simp only [List.mem_append, not_or] at hwhole
    obtain ⟨memo', logo, ho, hholds, hnoto⟩ := iho hwhole.1 memo hmemo
    obtain ⟨memo'', log', h, hholds', hnot⟩ := ih hwhole.2 _ hholds
    exact ⟨memo'', _, .leave ho h, hholds', by simp [hnoto, hnot]⟩
  | again once rest iho ih =>
    simp only [List.mem_cons, List.mem_append, not_or] at hwhole
    obtain ⟨memo', logo, ho, hholds, hnoto⟩ := iho hwhole.2.1 memo hmemo
    obtain ⟨memo'', log', h, hholds', hnot⟩ := ih hwhole.2.2 _ hholds
    exact ⟨memo'', _, .again ho h, hholds', by simp [hnoto, hnot]⟩
  | bodyRefused once iho =>
    obtain ⟨memo', logo, ho, hholds, hnoto⟩ := iho hwhole memo hmemo
    exact ⟨memo', _, .bodyRefused ho, hholds, hnoto⟩
  | refuse => exact ⟨memo, _, .refuse, hmemo, List.not_mem_nil⟩

/-! ### Reading with and without recalling -/

/-- Without a limit none is met. -/
theorem Move.Runs.not_tooDeep {e : Entry} {m : Move α} {s : State} {o : Outcome α}
    {log : List Event} (h : m.Runs source none recalls e s o log) : .tooDeep ∉ log := by
  induction h with
  | tooDeep beyond => exact absurd (fun _ hn => nomatch hn) beyond
  | _ => simp_all

variable {mode : Mode} {init : List Token} {last : Token}

/-- A computation is what is carried out from a mode's rule on, unless it meets the limit. -/
theorem tells_of_runs (hlast : last.kind = .eof) {o : Outcome Unit} {log : List Event}
    (h : mode.start.production.Runs (.ofTokens (init ++ [last])) (some limit) recalls
      (mode.start, 0) ⟨0, 0, [], []⟩ o log) :
    Event.Tells log o
      (mode.start.runBy (.ofTokens (init ++ [last])) limit recalls ⟨0, 0, [], []⟩) := by
  obtain ⟨o', log', h', hfine⟩ := exists_runs mode (some limit) recalls init hlast
  obtain ⟨rfl, rfl⟩ := h.unique h'
  have hpos := (Source.whole_ofTokens init hlast).lt_size 0 fun i hi => nomatch hi
  obtain ⟨r, hr, htells⟩ := h.endsWithin hfine hpos
  rw [Rule.runBy_eq, hr.runBy_eq]
  exact htells

theorem Event.Tells.whole_of_ok {log : List Event} {o o' : Outcome α} (h : Tells log o (.ok o')) :
    o' = o ∧ .tooDeep ∉ log := by
  cases h with
  | whole hnot => exact ⟨rfl, hnot⟩

theorem Event.Tells.ok_of_whole {log : List Event} {o : Outcome α} {r : Within α}
    (h : Tells log o r) (hnot : .tooDeep ∉ log) : r = .ok o := by
  cases h with
  | met met hmem => exact absurd hmem hnot
  | whole _ => rfl

/-- What is found without recalling is found with recalling too. -/
theorem runBy_lookup_of_never (hlast : last.kind = .eof) {o : Outcome Unit}
    (h : mode.start.runBy (.ofTokens (init ++ [last])) limit .never ⟨0, 0, [], []⟩ = .ok o) :
    ∃ memo, mode.start.runBy (.ofTokens (init ++ [last])) limit .lookup ⟨0, 0, [], []⟩ =
      .ok (o.remembering memo) := by
  obtain ⟨o', log, hruns, -⟩ := exists_runs mode (some limit) .never init hlast
  have htells := tells_of_runs hlast hruns
  rw [h] at htells
  obtain ⟨rfl, hnot⟩ := htells.whole_of_ok
  obtain ⟨memo, log', hruns', -, hnot'⟩ := hruns.recalling hnot [] nofun
  exact ⟨memo, (tells_of_runs hlast hruns').ok_of_whole hnot'⟩

/-- From some limit on, reading without recalling meets none. -/
theorem exists_runBy_never (mode : Mode) (init : List Token) {last : Token}
    (hlast : last.kind = .eof) :
    ∃ enough o, ∀ limit, enough ≤ limit →
      mode.start.runBy (.ofTokens (init ++ [last])) limit .never ⟨0, 0, [], []⟩ = .ok o := by
  obtain ⟨o, log, hruns, -⟩ := exists_runs mode none .never init hlast
  obtain ⟨enough, hlarge⟩ := hruns.exists_limit
  exact ⟨enough, o, fun limit hle =>
    (tells_of_runs hlast (hlarge limit hle)).ok_of_whole hruns.not_tooDeep⟩

/-- Limits that are not met lead to one outcome. -/
theorem Rule.runWithin_unique {rule : Rule} {s : State} {limit limit' : Nat} {o o' : Outcome Unit}
    (h : rule.runWithin source limit s = .ok o) (h' : rule.runWithin source limit' s = .ok o') :
    o = o' :=
  (run_of_runWithin (Nat.le_max_left limit limit') rule s h).symm.trans
    (run_of_runWithin (Nat.le_max_right limit limit') rule s h')

@[simp] theorem Outcome.verdict_remembering {memo : Memo} {tokens : List Token}
    (o : Outcome Unit) : (o.remembering memo).verdict limit tokens = o.verdict limit tokens := by
  cases o <;> rfl

end JavaSource.Grammar

namespace JavaSource

open Grammar

theorem map_eq_ok {ε α β : Type} {f : α → β} {x : Except ε α} {b : β} (h : x.map f = .ok b) :
    ∃ a, x = .ok a ∧ f a = b := by
  cases x with
  | error e => cases h
  | ok a => exact ⟨a, rfl, Except.ok.inj h⟩

/-- The parse tree of a source, recalling in a given way, unless the limit is met. -/
def parseTreeBy (recalls : Recall) (mode : Mode) (limit : Nat) (source : String) :
    Except LimitMet (Except Fault Tree) :=
  match tokenize source with
  | .error fault => .ok (.error fault)
  | .ok tokens   =>
    (mode.start.runBy (.ofTokens tokens) limit recalls ⟨0, 0, [], []⟩).map (·.verdict limit tokens)

/-- By looking up, a source has the parse tree that it has anyway. -/
theorem parseTreeBy_lookup (mode : Mode) (limit : Nat) (source : String) :
    parseTreeBy .lookup mode limit source = parseTreeWithin mode limit source := by
  unfold parseTreeBy parseTreeWithin
  cases tokenize source with
  | error fault => rfl
  | ok tokens => exact congrArg (Except.map _) (Rule.runBy_lookup ..)

/-- **What is recalled makes no difference.**  Every source has one parse tree, or one fault, that
it has under all large limits, whether probes are recalled or always tried anew; and under any limit
that is not met it has that one.  A limit that is not met by trying anew is not met by recalling
either. -/
theorem parseTree_recalling (mode : Mode) (source : String) : ∃ whole enough,
    (∀ limit, enough ≤ limit → parseTreeBy .never mode limit source = .ok whole) ∧
    ∀ limit result,
      (parseTreeBy .never mode limit source = .ok result →
        result = whole ∧ parseTreeBy .lookup mode limit source = .ok result) ∧
      (parseTreeBy .lookup mode limit source = .ok result →
        result = whole ∧ parseTree mode limit source = result) := by
  cases htok : tokenize source with
  | error fault =>
    refine ⟨.error fault, 0, fun limit _ => by simp only [parseTreeBy, htok], ?_⟩
    intro limit result
    simp only [parseTreeBy, htok, Except.ok.injEq, parseTree]
    exact ⟨fun h => ⟨h.symm, h⟩, fun h => ⟨h.symm, h⟩⟩
  | ok tokens =>
    obtain ⟨init, last, htokens, hlast, -⟩ := (Scan.ofTokenize htok).ended
    obtain rfl : tokens = init ++ [last] := htokens
    obtain ⟨_, o, hwhole, hsettled⟩ : Settles fun limit =>
        mode.start.runWithin (.ofTokens (init ++ [last])) limit ⟨0, 0, [], []⟩ :=
      mode.start.runWithin_settles ⟨0, 0, [], []⟩
    have hlookup (limit : Nat) (o' : Outcome Unit) (h : mode.start.runBy
        (.ofTokens (init ++ [last])) limit .lookup ⟨0, 0, [], []⟩ = .ok o') : o' = o := by
      rw [Rule.runBy_lookup] at h
      exact Rule.runWithin_unique h (hsettled _ (Nat.le_refl _))
    have hnever (limit : Nat) (o' : Outcome Unit) (h : mode.start.runBy
        (.ofTokens (init ++ [last])) limit .never ⟨0, 0, [], []⟩ = .ok o') :
        o'.verdict limit (init ++ [last]) = o.verdict 0 (init ++ [last]) ∧
          parseTreeBy .lookup mode limit source = .ok (o'.verdict limit (init ++ [last])) := by
      obtain ⟨memo, hrun⟩ := runBy_lookup_of_never hlast h
      refine ⟨?_, ?_⟩
      · rw [← hwhole.verdict_eq limit 0, ← hlookup limit _ hrun, Outcome.verdict_remembering]
      · simp only [parseTreeBy, htok, hrun, Except.map, Outcome.verdict_remembering]
    obtain ⟨enough, o', hanew⟩ := exists_runBy_never mode init hlast
    refine ⟨o.verdict 0 (init ++ [last]), enough, fun limit hle => ?_, fun limit result =>
      ⟨fun h => ?_, fun h => ?_⟩⟩
    · have hverdict := (hnever limit o' (hanew limit hle)).1
      simp only [parseTreeBy, htok, hanew limit hle, Except.map, hverdict]
    · simp only [parseTreeBy, htok] at h
      obtain ⟨o₁, ho₁, rfl⟩ := map_eq_ok h
      exact hnever limit o₁ ho₁
    · simp only [parseTreeBy, htok] at h
      obtain ⟨o₁, ho₁, rfl⟩ := map_eq_ok h
      obtain rfl := hlookup limit o₁ ho₁
      rw [Rule.runBy_lookup] at ho₁
      rw [parseTree_of_tokenize htok, Rule.run_of_runWithin (Nat.le_refl limit) _ _ ho₁]
      exact ⟨hwhole.verdict_eq limit 0 _, rfl⟩

end JavaSource
