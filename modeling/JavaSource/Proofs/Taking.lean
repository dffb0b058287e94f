import JavaSource.Proofs.Recalling

/-!
# What a rule takes

Where no limit is met, it does not matter for what a rule reads how deep it is nested and what has
been found before.  `r.Takes source i parts j` says that the rule `r`, read at the place `i`, comes
to the place `j` and makes some parts.  What the moves of a rule do is told by what other rules
take: `m.Leads source e s a s'` follows the moves `m` of the entry `e` from one stand to another,
by recursion on the moves.

* `Rule.takes_iff`: a rule takes what its moves lead to.
* `Rule.takes_iff_run`: and that is what is carried out under every large limit.
-/

namespace JavaSource.Grammar

variable {source : Source} {e : Entry} {α β : Type}

/-- Where moves stand: how much has been read, and the parts of the phrase being read, the latest
first. -/
structure Stand where
  read : Nat
  parts : List Tree

/-- Where moves stand in a state. -/
def State.stand (s : State) : Stand := ⟨s.read, s.parts⟩

/-- What the grammar sees from a stand. -/
def Source.view (source : Source) (s : Stand) : Ahead :=
  ⟨source.symbols, s.read, s.parts.head?.bind Tree.phrase?⟩

/-- Read at a place, a rule makes some parts and comes to another place. -/
def Rule.Takes (source : Source) (r : Rule) (i : Nat) (parts : List Tree) (j : Nat) : Prop :=
  ∃ depth memo log, r.production.Runs source none .never (r, i) ⟨i, 0, [], []⟩
    (.done () ⟨j, depth, parts, memo⟩) log ∧ ∀ ev ∈ log, ev.Fine source

/-- What a probe finds at a place. -/
def Probe.Finds (source : Source) (what : Probe) (i : Nat) : Option Nat → Prop
  | some width => ∃ parts, what.rule.Takes source i parts (i + width)
  | none       => ∀ parts j, ¬ what.rule.Takes source i parts j

/-- Further on, a rule may have any rule read; where it starts, only those of lower rank. -/
def Entry.Allows (e : Entry) (r : Rule) (i : Nat) : Prop :=
  e.2 < i ∨ e.2 = i ∧ r.rank < e.1.rank

/-- Turns of a loop: the last one says so, and any other one reads something. -/
inductive Turns (turn : Stand → Bool → Stand → Prop) : Stand → Stand → Prop where
  | last {s s' : Stand} (h : turn s false s') : Turns turn s s'
  | more {s s₁ s' : Stand} (h : turn s true s₁) (forward : s.read < s₁.read)
    (rest : Turns turn s₁ s') : Turns turn s s'

/-- Moves of a rule lead from one stand to another, with a value. -/
def Move.Leads (source : Source) (e : Entry) {α : Type} : Move α → Stand → α → Stand → Prop
  | .done value, s, a, s' => a = value ∧ s' = s
  | .look next, s, a, s'  => (next (source.view s)).Leads source e s a s'
  | .shift next, s, a, s' =>
    (source.tokenAt s.read).kind ≠ .eof ∧
      next.Leads source e ⟨s.read + 1, .leaf (source.tokenAt s.read) :: s.parts⟩ a s'
  | .join kind width next, s, a, s' =>
    ∃ t, source.joined kind s.read width = some t ∧ source.Clear (s.read + width) ∧
      next.Leads source e ⟨s.read + width, .leaf t :: s.parts⟩ a s'
  | .call rule next, s, a, s' =>
    ∃ parts j, e.Allows rule s.read ∧ rule.Takes source s.read parts j ∧
      next.Leads source e ⟨j, parts ++ s.parts⟩ a s'
  | .probe what next, s, a, s' =>
    ∃ width, e.Allows what.rule s.read ∧ what.Finds source s.read width ∧
      (next width).Leads source e s a s'
  | .wrap kind next, s, a, s' =>
    next.Leads source e
      ⟨s.read, [Tree.ofParts kind s.parts.reverse (source.location s.read)]⟩ a s'
  | .deepen next, s, a, s' => next.Leads source e s a s'
  | .iterate body next, s, a, s' =>
    ∃ s₁, Turns (body.Leads source e) s s₁ ∧ next.Leads source e s₁ a s'
  | .refuse _ _, _, _, _ => False

/-! ### Going forward -/

theorem Move.Runs.forward {limit : Option Nat} {recalls : Recall} {m : Move α} {s s' : State}
    {value : α} {log : List Event} (h : m.Runs source limit recalls e s (.done value s') log) :
    s.read ≤ s'.read := by
  generalize ho : Outcome.done value s' = o at h
  induction h generalizing s' with
  | done => cases ho; exact Nat.le_refl _
  | shift inside rest ih => exact Nat.le_of_succ_le (ih ho)
  | join joined rest ih => exact Nat.le_trans (Nat.le_add_right ..) (ih ho)
  | call callee rest ihc ih => exact Nat.le_trans (ihc rfl) (ih ho)
  | leave once rest iho ih => exact Nat.le_trans (iho rfl) (ih ho)
  | again once rest iho ih => exact Nat.le_trans (iho rfl) (ih ho)
  | look rest ih | shiftEnd atEnd rest ih | recalled known rest ih | wrap rest ih => exact ih ho
  | tried unknown callee rest ihc ih | deepen within rest ih => exact ih ho
  | callRefused | tooDeep | bodyRefused | refuse => cases ho

theorem Rule.Takes.le {r : Rule} {i j : Nat} {parts : List Tree} (h : r.Takes source i parts j) :
    i ≤ j := by
  obtain ⟨depth, memo, log, hrun, -⟩ := h
  exact hrun.forward

/-- A rule takes nothing behind the end. -/
theorem Rule.Takes.clear {r : Rule} {i j : Nat} {parts : List Tree}
    (h : r.Takes source i parts j) (hi : source.Clear i) : source.Clear j := by
  obtain ⟨depth, memo, log, hrun, hfine⟩ := h
  rcases hrun.ends_reached with heq | hreach
  · exact (show j = i from heq) ▸ hi
  · exact (hfine _ hreach).1

/-- A rule takes one thing at a place. -/
theorem Rule.Takes.unique {r : Rule} {i j j' : Nat} {parts parts' : List Tree}
    (h : r.Takes source i parts j) (h' : r.Takes source i parts' j') :
    parts = parts' ∧ j = j' := by
  obtain ⟨depth, memo, log, hrun, -⟩ := h
  obtain ⟨depth', memo', log', hrun', -⟩ := h'
  cases (hrun.unique hrun').1
  exact ⟨rfl, rfl⟩

namespace Turns

variable {turn turn' : Stand → Bool → Stand → Prop} {s s' : Stand}

theorem le (h : Turns turn s s') (hturn : ∀ s a s', turn s a s' → s.read ≤ s'.read) :
    s.read ≤ s'.read := by
  induction h with
  | last h => exact hturn _ _ _ h
  | more h forward rest ih => exact Nat.le_trans (Nat.le_of_lt forward) ih

theorem invariant (h : Turns turn s s') {Q : Stand → Prop} (hs : Q s)
    (hturn : ∀ s a s', Q s → turn s a s' → Q s') : Q s' := by
  induction h with
  | last h => exact hturn _ _ _ hs h
  | more h _ _ ih => exact ih (hturn _ _ _ hs h)

end Turns

namespace Move

variable {m : Move α} {f : α → Move β} {s s' : Stand} {a : α} {b : β}

theorem leads_bind : (m >>= f).Leads source e s b s' ↔
    ∃ a s₁, m.Leads source e s a s₁ ∧ (f a).Leads source e s₁ b s' := by
  change (m.bind f).Leads source e s b s' ↔ _
  induction m generalizing s with
  | done value =>
    simp only [bind, Leads]
    exact ⟨fun h => ⟨value, s, ⟨rfl, rfl⟩, h⟩, fun ⟨_, _, ⟨ha, hs⟩, h⟩ => ha ▸ hs ▸ h⟩
  | look next ih => exact ih _
  | shift next ih => simp only [bind, Leads, ih, and_assoc, exists_and_left]
  | join kind width next ih =>
    simp only [bind, Leads, ih]
    grind
  | call rule next ih =>
    simp only [bind, Leads, ih]
    grind
  | probe what next ih =>
    simp only [bind, Leads, ih]
    grind
  | wrap kind next ih => exact ih
  | deepen next ih => exact ih
  | iterate body next _ ih =>
    simp only [bind, Leads, ih]
    grind
  | refuse place why => simp only [bind, Leads, false_and, exists_false]

theorem Leads.le (h : m.Leads source e s a s') : s.read ≤ s'.read := by
  induction m generalizing s s' with
  | done value => exact Nat.le_of_eq (congrArg Stand.read h.2.symm)
  | look next ih => exact ih _ h
  | shift next ih => exact Nat.le_of_succ_le (ih h.2)
  | join kind width next ih =>
    obtain ⟨t, -, -, hnext⟩ := h
    exact Nat.le_trans (Nat.le_add_right ..) (ih hnext)
  | call rule next ih =>
    obtain ⟨parts, j, -, htakes, hnext⟩ := h
    exact Nat.le_trans htakes.le (ih hnext)
  | probe what next ih =>
    obtain ⟨width, -, -, hnext⟩ := h
    exact ih width hnext
  | wrap kind next ih => exact (ih h :)
  | deepen next ih => exact ih h
  | iterate body next ihb ih =>
    obtain ⟨s₁, hturns, hnext⟩ := h
    exact Nat.le_trans (hturns.le fun _ _ _ hbody => ihb hbody) (ih hnext)
  | refuse place why => exact h.elim

/-- Moves lead nowhere behind the end. -/
theorem Leads.clear (h : m.Leads source e s a s') (hclear : source.Clear s.read) :
    source.Clear s'.read := by
  induction m generalizing s s' with
  | done value => exact (congrArg Stand.read h.2).symm ▸ hclear
  | look next ih => exact ih _ h hclear
  | shift next ih => exact ih h.2 (hclear.succ h.1)
  | join kind width next ih =>
    obtain ⟨t, -, hclear', hnext⟩ := h
    exact ih hnext hclear'
  | call rule next ih =>
    obtain ⟨parts, j, -, htakes, hnext⟩ := h
    exact ih hnext (htakes.clear hclear)
  | probe what next ih =>
    obtain ⟨width, -, -, hnext⟩ := h
    exact ih width hnext hclear
  | wrap kind next ih => exact (ih h hclear :)
  | deepen next ih => exact ih h hclear
  | iterate body next ihb ih =>
    obtain ⟨s₁, hturns, hnext⟩ := h
    exact ih hnext (hturns.invariant (Q := fun s => source.Clear s.read) hclear
      fun _ _ _ hs hbody => ihb hbody hs)
  | refuse place why => exact h.elim

end Move

/-- What is expected stands there, and is read. -/
theorem Move.Leads.of_expect {kind : TokenKind} {s s' : Stand} {a : Unit}
    (h : (Move.expect kind).Leads source e s a s') :
    (source.view s).kind = kind ∧ s'.read = s.read + 1 := by
  have hleads : (if (source.view s).isAt kind then take else mismatch kind.describe).Leads
      source e s a s' := h
  split at hleads
  · obtain ⟨-, -, rfl⟩ := hleads
    exact ⟨beq_iff_eq.mp ‹_›, rfl⟩
  · exact hleads.elim

/-! ### Leading and running -/

theorem Entry.Allows.of_fine {r : Rule} {i : Nat} (h : (Event.call e (r, i)).Fine source)
    (hle : e.2 ≤ i) : e.Allows r i := by
  have hwork : source.work r i < source.work e.1 e.2 := h
  have hr := e.1.rank_lt_ranks
  simp only [Source.work, Rule.ranks] at hwork hr
  rcases Nat.lt_or_eq_of_le hle with hlt | heq
  · exact .inl hlt
  · refine .inr ⟨heq, ?_⟩
    rw [heq] at hwork
    omega

theorem Rule.Takes.of_runs {r : Rule} {s s' : State} {log : List Event}
    (h : r.production.Runs source none .never (r, s.read) { s with parts := [] }
      (.done () s') log) (hfine : ∀ ev ∈ log, ev.Fine source) :
    r.Takes source s.read s'.parts s'.read := by
  obtain ⟨depth, memo, hanew⟩ := h.anew h.not_tooDeep 0 []
  exact ⟨depth, memo, log, hanew, hfine⟩

theorem Probe.Finds.of_runs {what : Probe} {s : State} {o : Outcome Unit} {log : List Event}
    (h : what.rule.production.Runs source none .never (what.rule, s.read) { s with parts := [] }
      o log) (hfine : ∀ ev ∈ log, ev.Fine source) :
    what.Finds source s.read (o.width s.read) := by
  cases o with
  | done value s' =>
    refine ⟨s'.parts, ?_⟩
    rw [Nat.add_sub_cancel' h.forward]
    exact .of_runs h hfine
  | refused place why memo =>
    rintro parts j ⟨depth, memo', log', hrun, -⟩
    obtain ⟨depth', memo'', hanew⟩ := h.anew h.not_tooDeep 0 []
    cases (hanew.unique hrun).1

/-- Where a run in which all is fine goes, the moves lead. -/
theorem Move.Runs.leads {m : Move α} {s s' : State} {value : α} {log : List Event}
    (h : m.Runs source none .never e s (.done value s') log) (hfine : ∀ ev ∈ log, ev.Fine source)
    (hle : e.2 ≤ s.read) :
    m.Leads source e s.stand value s'.stand := by
  generalize ho : Outcome.done value s' = o at h
  induction h generalizing s' with
  | done => cases ho; exact ⟨rfl, rfl⟩
  | look rest ih => exact ih hfine hle ho
  | shift inside rest ih =>
    obtain ⟨hreach, hfine⟩ := List.forall_mem_cons.mp hfine
    exact ⟨inside, ih hfine (Nat.le_succ_of_le hle) ho⟩
  | shiftEnd atEnd rest ih => exact (hfine _ List.mem_cons_self).elim
  | join joined rest ih =>
    obtain ⟨hreach, hfine⟩ := List.forall_mem_cons.mp hfine
    exact ⟨_, joined, hreach.1, ih hfine (Nat.le_trans hle (Nat.le_add_right ..)) ho⟩
  | call callee rest ihc ih =>
    obtain ⟨hcall, hfine⟩ := List.forall_mem_cons.mp hfine
    obtain ⟨hcallee, hrest⟩ := List.forall_mem_append.mp hfine
    exact ⟨_, _, .of_fine hcall hle, .of_runs callee hcallee,
      ih hrest (Nat.le_trans hle callee.forward) ho⟩
  | recalled known rest ih => cases known
  | tried unknown callee rest ihc ih =>
    obtain ⟨hcall, hfine⟩ := List.forall_mem_cons.mp hfine
    obtain ⟨hcallee, hrest⟩ := List.forall_mem_append.mp hfine
    exact ⟨_, .of_fine hcall hle, .of_runs callee hcallee, ih hrest hle ho⟩
  | wrap rest ih => exact ih hfine hle ho
  | deepen within rest ih => exact ih hfine hle ho
  | leave once rest iho ih =>
    obtain ⟨honce, hrest⟩ := List.forall_mem_append.mp hfine
    exact ⟨_, .last (iho honce hle rfl),
      ih hrest (Nat.le_trans hle once.forward) ho⟩
  | again once rest iho ih =>
    obtain ⟨hturn, hfine⟩ := List.forall_mem_cons.mp hfine
    obtain ⟨honce, hrest⟩ := List.forall_mem_append.mp hfine
    obtain ⟨s₂, hturns, hnext⟩ :=
      ih hrest (Nat.le_trans hle once.forward) ho
    exact ⟨s₂, .more (iho honce hle rfl) hturn hturns, hnext⟩
  | callRefused | tooDeep | bodyRefused | refuse => cases ho

/-- A rule that is only tried may be tried anywhere. -/
theorem Probe.expects (what : Probe) (kind : TokenKind) : what.rule.Expects kind := by
  cases what <;> trivial

/-- A run of a probe to what it finds. -/
theorem Probe.Finds.runs {what : Probe} {width : Option Nat} {s : State} (hwhole : source.Whole)
    (h : what.Finds source s.read width) (hclear : source.Clear s.read) :
    ∃ o log, what.rule.production.Runs source none .never (what.rule, s.read)
      { s with parts := [] } o log ∧ (∀ ev ∈ log, ev.Fine source) ∧ o.width s.read = width := by
  obtain ⟨o, log, hrun, hfine, -⟩ := Rule.finishes none .never hwhole what.rule
    { s with parts := [] } (what.expects _) hclear
  refine ⟨o, log, hrun, hfine, ?_⟩
  have hfinds := Probe.Finds.of_runs hrun hfine
  generalize o.width s.read = width' at hfinds
  cases width' with
  | none =>
    cases width with
    | none => rfl
    | some n =>
      obtain ⟨parts, htakes⟩ := h
      exact absurd htakes (hfinds _ _)
  | some n' =>
    obtain ⟨parts', htakes'⟩ := hfinds
    cases width with
    | none => exact absurd htakes' (h _ _)
    | some n =>
      obtain ⟨parts, htakes⟩ := h
      have heq : s.read + n = s.read + n' := (htakes.unique htakes').2
      exact congrArg some (Nat.add_left_cancel heq).symm

/-- Where moves lead, a run goes in which all is fine, at any depth and whatever has been found. -/
theorem Move.Leads.runs {m : Move α} {s : State} {t : Stand} {value : α} (hwhole : source.Whole)
    (h : m.Leads source e s.stand value t) (hclear : source.Clear s.read) (hle : e.2 ≤ s.read) :
    ∃ s' log, m.Runs source none .never e s (.done value s') log ∧
      (∀ ev ∈ log, ev.Fine source) ∧ s'.stand = t ∧ source.Clear t.read := by
  induction m generalizing s t with
  | done a =>
    obtain ⟨rfl, rfl⟩ := h
    exact ⟨s, _, .done, List.forall_mem_nil _, rfl, hclear⟩
  | look next ih =>
    obtain ⟨s', log, hrun, hrest⟩ := ih _ h hclear hle
    exact ⟨s', log, .look hrun, hrest⟩
  | shift next ih =>
    obtain ⟨hkind, hnext⟩ := h
    have hclear' : source.Clear (s.read + 1) := hclear.succ hkind
    obtain ⟨s', log, hrun, hfine, hrest⟩ := ih
      (s := { s with read := s.read + 1, parts := .leaf (source.tokenAt s.read) :: s.parts })
      hnext hclear' (Nat.le_succ_of_le hle)
    exact ⟨s', _, .shift hkind hrun,
      List.forall_mem_cons.mpr ⟨⟨hclear', hwhole.lt_size _ hclear'⟩, hfine⟩, hrest⟩
  | join kind width next ih =>
    obtain ⟨t', hjoined, hclear', hnext⟩ := h
    obtain ⟨s', log, hrun, hfine, hrest⟩ := ih
      (s := { s with read := s.read + width, parts := .leaf t' :: s.parts })
      hnext hclear' (Nat.le_trans hle (Nat.le_add_right ..))
    exact ⟨s', _, .join hjoined hrun,
      List.forall_mem_cons.mpr ⟨⟨hclear', hwhole.lt_size _ hclear'⟩, hfine⟩, hrest⟩
  | call rule next ih =>
    obtain ⟨parts, j, hallows, htakes, hnext⟩ := h
    have hclear' := htakes.clear hclear
    obtain ⟨_, _, log, hcallee, hfine⟩ := htakes
    obtain ⟨depth, memo, hanew⟩ := hcallee.anew hcallee.not_tooDeep s.depth s.memo
    obtain ⟨s', log', hrun, hfine', hrest⟩ := ih
      (s := { s with read := j, parts := parts ++ s.parts, memo })
      hnext hclear' (Nat.le_trans hle hcallee.forward)
    have hcall : (Event.call e (rule, s.read)).Fine source :=
      Source.work_lt hle (hwhole.lt_size _ hclear) (hallows.imp_right And.right)
    exact ⟨s', _, .call hanew hrun, List.forall_mem_cons.mpr
      ⟨hcall, List.forall_mem_append.mpr ⟨hfine, hfine'⟩⟩, hrest⟩
  | probe what next ih =>
    obtain ⟨width, hallows, hfinds, hnext⟩ := h
    obtain ⟨o, log, hprobe, hfine, rfl⟩ := hfinds.runs hwhole hclear
    obtain ⟨s', log', hrun, hfine', hrest⟩ := ih _
      (s := { s with memo := ((s.read, what), o.width s.read) :: o.memo }) hnext hclear hle
    have hcall : (Event.call e (what.rule, s.read)).Fine source :=
      Source.work_lt hle (hwhole.lt_size _ hclear) (hallows.imp_right And.right)
    exact ⟨s', _, .tried rfl hprobe hrun, List.forall_mem_cons.mpr
      ⟨hcall, List.forall_mem_append.mpr ⟨hfine, hfine'⟩⟩, hrest⟩
  | wrap kind next ih =>
    obtain ⟨s', log, hrun, hrest⟩ := ih
      (s := { s with parts := [Tree.ofParts kind s.parts.reverse (source.location s.read)] })
      h hclear hle
    exact ⟨s', log, .wrap hrun, hrest⟩
  | deepen next ih =>
    obtain ⟨s', log, hrun, hrest⟩ := ih (s := { s with depth := s.depth + 1 }) h hclear hle
    exact ⟨s', log, .deepen nofun hrun, hrest⟩
  | iterate body next ihb ih =>
    obtain ⟨s₁, hturns, hnext⟩ := h
    generalize hstand : s.stand = s₀ at hturns
    induction hturns generalizing s with
    | last hbody =>
      obtain ⟨s₂, log, hrun, hfine, rfl, hclear'⟩ := ihb (hstand ▸ hbody) hclear hle
      obtain ⟨s', log', hrun', hfine', hrest⟩ :=
        ih hnext hclear' (Nat.le_trans hle hrun.forward)
      exact ⟨s', _, .leave hrun hrun', List.forall_mem_append.mpr ⟨hfine, hfine'⟩, hrest⟩
    | more hbody forward _ ihturns =>
      obtain ⟨s₂, log, hrun, hfine, rfl, hclear'⟩ := ihb (hstand ▸ hbody) hclear hle
      obtain ⟨s', log', hrun', hfine', hrest⟩ :=
        ihturns hclear' (Nat.le_trans hle hrun.forward) hnext rfl
      have hturn : (Event.turn s.read s₂.read).Fine source := by
        subst hstand
        exact forward
      exact ⟨s', _, .again hrun hrun', List.forall_mem_cons.mpr
        ⟨hturn, List.forall_mem_append.mpr ⟨hfine, hfine'⟩⟩, hrest⟩
  | refuse place why => exact h.elim

/-- **A rule takes what its moves lead to.** -/
theorem Rule.takes_iff (hwhole : source.Whole) {r : Rule} {i j : Nat} {parts : List Tree}
    (hclear : source.Clear i) : r.Takes source i parts j ↔
      r.production.Leads source (r, i) ⟨i, []⟩ () ⟨j, parts⟩ := by
  refine ⟨fun ⟨depth, memo, log, hrun, hfine⟩ => ?_, fun h => ?_⟩
  · exact hrun.leads hfine (Nat.le_refl i)
  · obtain ⟨⟨_, depth, _, memo⟩, log, hrun, hfine, heq, -⟩ :=
      Move.Leads.runs (s := ⟨i, 0, [], []⟩) hwhole h hclear (Nat.le_refl i)
    cases heq
    exact ⟨depth, memo, log, hrun, hfine⟩

/-- A rule takes as much as it reads at least. -/
theorem Rule.Takes.least (hwhole : source.Whole) {r : Rule} {i j : Nat} {parts : List Tree}
    (h : r.Takes source i parts j) (hexpects : r.Expects (source.kindAt i))
    (hclear : source.Clear i) : i + r.least ≤ j := by
  obtain ⟨depth, memo, log, hrun, -⟩ := h
  obtain ⟨o, log', hrun', -, hmeets⟩ :=
    Rule.finishes none .never hwhole r ⟨i, 0, [], []⟩ hexpects hclear
  cases (hrun.unique hrun').1
  exact hmeets.1

/-! ### How much is read -/

/-- Moves read some symbols at least, in any source. -/
def Move.Reads (c : Nat) (m : Move α) : Prop :=
  ∀ (source : Source) (e : Entry) (s : Stand) (a : α) (s' : Stand), source.Whole →
    source.Clear s.read → m.Leads source e s a s' → s.read + c ≤ s'.read

namespace Move.Reads

variable {c : Nat} {m : Move α} {f : α → Move β}

theorem none : m.Reads 0 := fun _ _ _ _ _ _ _ hleads => hleads.le

theorem first (h : m.Reads c) : (m >>= f).Reads c := by
  intro source e s b s' hwhole hclear hleads
  obtain ⟨a, s₁, hm, hf⟩ := leads_bind.mp hleads
  exact Nat.le_trans (h source e s a s₁ hwhole hclear hm) hf.le

theorem later (h : ∀ a, (f a).Reads c) : (m >>= f).Reads c := by
  intro source e s b s' hwhole hclear hleads
  obtain ⟨a, s₁, hm, hf⟩ := leads_bind.mp hleads
  exact Nat.le_trans (Nat.add_le_add_right hm.le c)
    (h a source e s₁ b s' hwhole (hm.clear hclear) hf)

theorem take : Move.take.Reads 1 := by
  rintro source e s a s' - - ⟨-, -, rfl⟩
  exact Nat.le_refl _

theorem fail {why : Refusal} : (Move.fail why : Move α).Reads c := nofun

theorem mismatch {expecting : String} : (Move.mismatch expecting : Move α).Reads c := fail

theorem ite {p : Prop} [Decidable p] {m' : Move α} (h : m.Reads c) (h' : m'.Reads c) :
    (if p then m else m').Reads c := by
  split
  · exact h
  · exact h'

theorem expect {kind : TokenKind} : (Move.expect kind).Reads 1 := later fun _ => ite take mismatch

theorem takeTwo : Move.takeTwo.Reads 1 := first take

theorem readFree {r : Rule} (hleast : r.least = 1) (hexpects : ∀ kind, r.Expects kind) :
    (Move.read r).Reads 1 := by
  rintro source e s a s' hwhole hclear ⟨parts, j, -, htakes, -, rfl⟩
  have hle := htakes.least hwhole (hexpects _) hclear
  rwa [hleast] at hle

theorem superAccess : Production.superAccess.Reads 1 := by
  refine later fun a => ?_
  split
  · exact readFree rfl fun _ => trivial
  · exact first takeTwo
  · exact first expect

end Move.Reads

/-- Every rule but three reads something. -/
theorem Rule.Takes.lt (hwhole : source.Whole) {r : Rule} {i j : Nat} {parts : List Tree}
    (h : r.Takes source i parts j) (hclear : source.Clear i) (hleast : r.least = 1) : i < j := by
  by_cases hr : r = .superAccess
  · subst hr
    exact Move.Reads.superAccess source _ _ _ _ hwhole hclear ((takes_iff hwhole hclear).mp h)
  · have hexpects : r.Expects (source.kindAt i) := by
      cases r with
      | superAccess => exact absurd rfl hr
      | _ => trivial
    have hle := h.least hwhole hexpects hclear
    omega

theorem Move.Reads.read {r : Rule} (hleast : r.least = 1) : (Move.read r).Reads 1 := by
  rintro source e s a s' hwhole hclear ⟨parts, j, -, htakes, -, rfl⟩
  exact htakes.lt hwhole hclear hleast

/-! ### Under large limits -/

/-- From some limit on, a rule is carried out as it runs without a limit. -/
theorem Rule.exists_run (hwhole : source.Whole) (r : Rule) {i : Nat}
    (hexpects : r.Expects (source.kindAt i)) (hclear : source.Clear i) :
    ∃ o log memo enough, r.production.Runs source none .never (r, i) ⟨i, 0, [], []⟩ o log ∧
      (∀ ev ∈ log, ev.Fine source) ∧
      ∀ limit, enough ≤ limit → r.run source limit ⟨i, 0, [], []⟩ = o.remembering memo := by
  obtain ⟨o, log, hrun, hfine, -⟩ :=
    Rule.finishes none .never hwhole r ⟨i, 0, [], []⟩ hexpects hclear
  obtain ⟨memo, log', hrecalled, -, -⟩ := hrun.recalling hrun.not_tooDeep [] nofun
  obtain ⟨o', log'', hrun', hfine', -⟩ :=
    Rule.finishes none .lookup hwhole r ⟨i, 0, [], []⟩ hexpects hclear
  obtain ⟨rfl, rfl⟩ := hrecalled.unique hrun'
  obtain ⟨enough, hlarge⟩ := hrecalled.exists_limit
  exact ⟨o, log, memo, enough, hrun, hfine, fun limit hle =>
    run_of_runs (hlarge limit hle) hfine' (hwhole.lt_size i hclear)⟩

/-- **What a rule takes is what is carried out under every large limit.** -/
theorem Rule.takes_iff_run (hwhole : source.Whole) {r : Rule} {i j : Nat} {parts : List Tree}
    (hexpects : r.Expects (source.kindAt i)) (hclear : source.Clear i) :
    r.Takes source i parts j ↔ ∃ enough, ∀ limit, enough ≤ limit → ∃ depth memo,
      r.run source limit ⟨i, 0, [], []⟩ = .done () ⟨j, depth, parts, memo⟩ := by
  obtain ⟨o, log, memo, enough, hrun, hfine, hlarge⟩ := r.exists_run hwhole hexpects hclear
  refine ⟨fun ⟨depth, memo', log', htakes, _⟩ => ⟨enough, fun limit hle => ⟨depth, memo, ?_⟩⟩,
    fun ⟨enough', h⟩ => ?_⟩
  · rw [hlarge limit hle, (hrun.unique htakes).1]
    rfl
  · obtain ⟨depth, memo', hdone⟩ := h (max enough enough') (Nat.le_max_right ..)
    rw [hlarge _ (Nat.le_max_left ..)] at hdone
    cases o with
    | refused place why memo'' => cases hdone
    | done value s =>
      obtain ⟨j', depth', parts', memo''⟩ := s
      cases hdone
      exact ⟨depth', memo'', log, hrun, hfine⟩

/-- It is also what is carried out under any limit that is not met. -/
theorem Rule.takes_iff_runWithin (hwhole : source.Whole) {r : Rule} {i j : Nat}
    {parts : List Tree} (hexpects : r.Expects (source.kindAt i)) (hclear : source.Clear i) :
    r.Takes source i parts j ↔ ∃ limit depth memo,
      r.runWithin source limit ⟨i, 0, [], []⟩ = .ok (.done () ⟨j, depth, parts, memo⟩) := by
  rw [takes_iff_run hwhole hexpects hclear]
  constructor
  · rintro ⟨enough, hrun⟩
    obtain ⟨enough', o, -, hsettled⟩ := @Rule.runWithin_settles source r ⟨i, 0, [], []⟩
    have hwithin := hsettled (max enough enough') (Nat.le_max_right ..)
    obtain ⟨depth, memo, hdone⟩ := hrun (max enough enough') (Nat.le_max_left ..)
    rw [run_of_runWithin (Nat.le_refl _) r _ hwithin] at hdone
    exact ⟨_, depth, memo, hdone ▸ hwithin⟩
  · rintro ⟨limit, depth, memo, hwithin⟩
    exact ⟨limit, fun larger hle => ⟨depth, memo, run_of_runWithin hle r _ hwithin⟩⟩

end JavaSource.Grammar
