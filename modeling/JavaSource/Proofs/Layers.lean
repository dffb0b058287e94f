import JavaSource.Proofs.Operators.Parentheses
import JavaSource.Proofs.Operators.Recognized
import JavaSource.Proofs.Rules
import JavaSource.Proofs.Running

/-!
# The layers of binary operators

`Production.binary` reads the operators of all layers in one loop, and leaves to the rule of the
next tighter layer what stands to the right of each.  The layered grammar is written with a loop
for each layer: the chain of a layer is entered with a chain of the next tighter one, and goes on
as long as operators of its own layer come (`Production.chains`).

The recognizer reads what the layered grammar reads, with one exception.  To the right of
`instanceof` stands a type or a pattern, which takes no operators; those of tighter layers that
come behind it are taken by the one loop, with the test as their left operand.  In the layered
grammar this says that behind a type the chains of the tighter layers are resumed
(`Rule.layered true`), instead of being over (`Rule.layered false`).

* **`Rule.run_layered`**: with the chains resumed, the recognizer is the layered grammar.
* `Rule.run_ne_layered`: without, they differ on `a instanceof B + c`.
* `parseTree_layers`: in every tree the operands of an operator are of its layer or tighter.
-/

namespace JavaSource.Grammar

variable {source : Source} {limit : Nat} {α β γ : Type}

/-! ### The layered grammar -/

namespace Layer

/-- The layers, the loosest first. -/
def all : List Layer :=
  [conditionalOr, conditionalAnd, inclusiveOr, exclusiveOr, bitAnd, equality, relational, shift,
    additive, multiplicative]

/-- A layer and the tighter ones. -/
def andTighter (loosest : Layer) : List Layer := all.filter fun layer => loosest.rank ≤ layer.rank

theorem mem_all (layer : Layer) : layer ∈ all := by cases layer <;> decide

theorem mem_andTighter {loosest layer : Layer} :
    layer ∈ loosest.andTighter ↔ loosest.rank ≤ layer.rank := by
  rw [andTighter, List.mem_filter, decide_eq_true_iff]
  exact and_iff_right layer.mem_all

theorem andTighter_suffix (loosest : Layer) : loosest.andTighter <:+ all := by
  cases loosest <;> decide

theorem pairwise_all : all.Pairwise fun layer layer' => layer.rank < layer'.rank := by decide

/-- What stands behind a layer is tighter. -/
theorem mem_of_suffix {loosest : Layer} {tighter : List Layer} (h : loosest :: tighter <:+ all)
    (layer : Layer) : layer ∈ tighter ↔ loosest.rank < layer.rank := by
  obtain ⟨looser, hall⟩ := h
  obtain ⟨-, hbehind, hbefore⟩ := List.pairwise_append.mp (hall ▸ pairwise_all)
  refine ⟨(List.pairwise_cons.mp hbehind).1 layer, fun hlt => ?_⟩
  rcases List.mem_append.mp (hall ▸ layer.mem_all) with hlooser | hmem
  · have := hbefore layer hlooser loosest List.mem_cons_self
    omega
  · rcases List.mem_cons.mp hmem with rfl | htighter
    · exact absurd hlt (Nat.lt_irrefl _)
    · exact htighter

end Layer

namespace Production

open Move

/-- An operator with what stands to the right of it, and what comes behind the type if it is
`instanceof`. -/
def operationThen (behind : Move Unit) (layer : Layer) (op : TokenKind) (width : Nat) :
    Move Unit := do
  operation layer op width
  if op == .instanceOfKw then behind

/-- One more operator, if it is of certain layers. -/
def layersTurn (layers : List Layer) (behind : Move Unit) : Move Bool := do
  let (op, width) := (← ahead).operator
  match Layer.ofOperator op with
  | none       => return false
  | some layer =>
    if layer ∈ layers then
      operationThen behind layer op width
      return true
    else return false

/-- The chains of some layers behind an operand, the tightest layer first.  Behind the type of
`instanceof` the tighter chains may be resumed. -/
def chains (resumes : Bool) : List Layer → Move Unit
  | []               => return
  | layer :: tighter => do
    chains resumes tighter
    loop (layersTurn [layer] (if resumes then chains resumes tighter else return))

/-- A unary expression, and the chains of a layer and of all tighter ones. -/
def layered (resumes : Bool) (loosest : Layer) : Move Unit := do
  read .unary
  chains resumes loosest.andTighter

end Production

/-- What a rule does in the layered grammar. -/
def Rule.layered (resumes : Bool) : Rule → Move Unit
  | .binary loosest => Production.layered resumes loosest
  | rule            => rule.production

/-- Carries out a rule of a grammar. -/
def Rule.runIn (grammar : Rule → Move Unit) (source : Source) (limit : Nat) (rule : Rule)
    (s : State) : Outcome Unit :=
  (grammar rule).run source limit (fun rule' s' =>
    if source.work rule' s'.read < source.work rule s.read then
      rule'.runIn grammar source limit s'
    else .refused s'.read Refusal.noViableAlternative s'.memo) s
termination_by source.work rule s.read

/-! ### Loops that go forward -/

theorem Outcome.andThen_assoc (o : Outcome α) (f : α → State → Outcome β)
    (g : β → State → Outcome γ) :
    (o.andThen f).andThen g = o.andThen fun value s => (f value s).andThen g := by
  cases o <;> rfl

/-- What comes of going on depends only on how it goes on where moves lead. -/
theorem Outcome.andThen_congr {o : Outcome α} {f g : α → State → Outcome β}
    (h : ∀ value s, o = .done value s → f value s = g value s) : o.andThen f = o.andThen g := by
  cases o with
  | done value s => exact h value s rfl
  | refused place why memo => rfl

/-- A step that reads something as often as it says so, and stops at the end of the source. -/
structure Outcome.Turns (size : Nat) (step : State → Outcome Bool) : Prop where
  forward : ∀ {s s'}, step s = .done true s' → s.read < s'.read
  stops : ∀ {s}, size ≤ s.read → step s = .done false s

namespace Outcome.Turns

variable {size : Nat} {step : State → Outcome Bool}

/-- As much fuel as the source has left is enough. -/
theorem iterate_eq (h : Turns size step) (fuel fuel' : Nat) {s : State}
    (hfuel : size ≤ s.read + fuel) (hfuel' : size ≤ s.read + fuel') :
    iterate step fuel s = iterate step fuel' s := by
  induction fuel generalizing fuel' s with
  | zero =>
    cases fuel' with
    | zero => rfl
    | succ fuel' => simp only [iterate, h.stops hfuel]
  | succ fuel ih =>
    cases fuel' with
    | zero => simp only [iterate, h.stops hfuel']
    | succ fuel' =>
      simp only [iterate]
      cases hstep : step s with
      | refused place why memo => rfl
      | done more s' =>
        cases more with
        | false => rfl
        | true =>
          have hread := h.forward hstep
          simp only [if_pos hread]
          exact ih fuel' (by omega) (by omega)

theorem iterate_stop (h : Turns size step) {s : State} (hstep : step s = .done false s) :
    iterate step size s = .done () s := by
  rw [h.iterate_eq size (size + 1) (Nat.le_add_left ..) (by omega)]
  simp only [iterate, hstep]

theorem iterate_go (h : Turns size step) {s : State} {first : Outcome Unit}
    (hstep : step s = first.andThen fun _ s' => .done true s') :
    iterate step size s = first.andThen fun _ s' => iterate step size s' := by
  rw [h.iterate_eq size (size + 1) (Nat.le_add_left ..) (by omega)]
  simp only [iterate]
  cases first with
  | refused place why memo => rw [hstep]; rfl
  | done _ s' =>
    have hread : s.read < s'.read := h.forward hstep
    rw [hstep]
    simp only [andThen, if_pos hread]

/-- A loop ends where the step says so. -/
theorem exists_last (h : Turns size step) {s s' : State} (hloop : iterate step size s = .done () s') :
    ∃ s₁, step s₁ = .done false s' := by
  suffices hfuel : ∀ (fuel : Nat) {s : State}, size ≤ s.read + fuel →
      iterate step fuel s = .done () s' → ∃ s₁, step s₁ = .done false s' from
    hfuel size (Nat.le_add_left ..) hloop
  intro fuel
  induction fuel with
  | zero =>
    intro s hfuel hloop
    cases hloop
    exact ⟨_, h.stops hfuel⟩
  | succ fuel ih =>
    intro s hfuel hloop
    simp only [iterate] at hloop
    cases hstep : step s with
    | refused place why memo => simp only [hstep, reduceCtorEq] at hloop
    | done more s₁ =>
      simp only [hstep] at hloop
      cases more with
      | false =>
        cases hloop
        exact ⟨s, hstep⟩
      | true =>
        have hread := h.forward hstep
        simp only [if_pos hread] at hloop
        exact ih (by omega) hloop

end Outcome.Turns

/-! ### Moves that go forward -/

theorem Move.run_ahead {other : Rule → State → Outcome Unit} (f : Ahead → Move α) (s : State) :
    (Move.ahead >>= f).run source limit other s =
      (f (source.ahead s)).run source limit other s := rfl

theorem Move.read_le_of_run {bound : Nat} {m : Move α} {s s' : State} {value : α}
    (h : m.run source limit (source.others limit bound) s = .done value s') :
    s.read ≤ s'.read := by
  have hkeeps : source.Keeps fun _ => True := ⟨fun _ _ => trivial, fun _ _ => trivial⟩
  have hsound : (m.run source limit (source.others limit bound) s).Sound (fun _ => True) s.read :=
    m.sound hkeeps trivial
  rw [h] at hsound
  exact hsound.1

/-- The layer of the operator that comes next. -/
def Source.layerAhead (source : Source) (s : State) : Option Layer :=
  Layer.ofOperator (source.ahead s).operator.1

theorem Source.layerAhead_end (h : source.symbols.size ≤ s.read) : source.layerAhead s = none := by
  have hkind : (source.ahead s).kind = .eof := by
    simp [ahead, Ahead.kind, Ahead.kindAt, Ahead.at_, Array.getElem?_eq_none h, Symbol.final]
  simp [layerAhead, Ahead.operator, hkind, Layer.ofOperator]

section

open Production

variable {other : Rule → State → Outcome Unit} {bound : Nat} {layers : List Layer}
  {behind : Move Unit} {s s' : State} {op : TokenKind} {width : Nat} {layer : Layer}

theorem Ahead.operator_width_pos (a : Ahead) : 0 < a.operator.2 := by
  unfold operator
  split
  · exact Nat.one_pos
  split
  · exact Nat.one_pos
  split
  · exact Nat.two_pos
  · exact Nat.succ_pos 2

theorem operatorToken_lt (hwidth : 0 < width)
    (h : (operatorToken op width).run source limit other s = .done () s') : s.read < s'.read := by
  unfold operatorToken at h
  split at h
  · simp only [Move.take, Move.run] at h
    split at h
    · cases h
    split at h
    · cases h
    · cases h
      exact Nat.lt_succ_self _
  · simp only [Move.joined, Move.run] at h
    split at h
    · cases h
    · cases h
      exact Nat.lt_add_of_pos_right hwidth

theorem operationThen_lt (hwidth : 0 < width)
    (h : (operationThen behind layer op width).run source limit (source.others limit bound) s =
      .done () s') : s.read < s'.read := by
  unfold operationThen operation at h
  rw [Move.run_bind] at h
  obtain ⟨_, s₃, hoperation, hbehind⟩ := Outcome.andThen_eq_done h
  rw [Move.run_bind] at hoperation
  obtain ⟨_, s₁, hnest, hoperation⟩ := Outcome.andThen_eq_done hoperation
  rw [Move.run_bind] at hoperation
  obtain ⟨_, s₂, htoken, hright⟩ := Outcome.andThen_eq_done hoperation
  calc s.read ≤ s₁.read := Move.read_le_of_run hnest
    _ < s₂.read := operatorToken_lt hwidth htoken
    _ ≤ s₃.read := Move.read_le_of_run hright
    _ ≤ s'.read := Move.read_le_of_run hbehind

theorem layersTurn_of_mem (hop : (source.ahead s).operator = (op, width))
    (hlayer : Layer.ofOperator op = some layer) (hmem : layer ∈ layers) :
    (layersTurn layers behind).run source limit other s =
      ((operationThen behind layer op width).run source limit other s).andThen
        fun _ s' => .done true s' := by
  unfold layersTurn
  rw [Move.run_ahead]
  simp only [hop, hlayer, if_pos hmem]
  exact Move.run_bind ..

theorem layersTurn_of_notMem (h : ∀ layer, source.layerAhead s = some layer → layer ∉ layers) :
    (layersTurn layers behind).run source limit other s = .done false s := by
  unfold Source.layerAhead at h
  unfold layersTurn
  rw [Move.run_ahead]
  dsimp only
  split
  · rfl
  · rw [if_neg (h _ ‹_›)]
    rfl

theorem layersTurn_turns (hsize : source.symbols.size = source.tokens.size) :
    Outcome.Turns source.tokens.size
      ((layersTurn layers behind).run source limit (source.others limit bound)) where
  forward {s s'} h := by
    cases hlayer : source.layerAhead s with
    | none =>
      rw [layersTurn_of_notMem fun layer h => nomatch hlayer.symm.trans h] at h
      cases h
    | some layer =>
      by_cases hmem : layer ∈ layers
      · have hwidth := (source.ahead s).operator_width_pos
        rw [layersTurn_of_mem rfl hlayer hmem] at h
        obtain ⟨_, s₁, hrun, hdone⟩ := Outcome.andThen_eq_done h
        cases hdone
        exact operationThen_lt hwidth hrun
      · rw [layersTurn_of_notMem fun layer' h =>
          Option.some.inj (hlayer.symm.trans h) ▸ hmem] at h
        cases h
  stops {s} h := layersTurn_of_notMem fun layer hlayer => by
    rw [source.layerAhead_end (hsize ▸ h)] at hlayer
    cases hlayer

end

/-! ### One loop for many -/

section

open Production

variable {bound : Nat} {layers : List Layer} {behind : Move Unit} {s s' : State} {op : TokenKind}
  {width : Nat} {layer : Layer}

theorem Layer.rank_le_of_tighter_eq_none (h : layer.tighter = none) (next : Layer) :
    next.rank ≤ layer.rank := by
  cases layer <;> first
    | (cases h; done)
    | (cases next <;> decide)

theorem Layer.rank_of_tighter {tighter : Layer} (h : layer.tighter = some tighter) :
    tighter.rank = layer.rank + 1 := by
  cases layer <;> cases h <;> rfl

theorem operationThen_run {other : Rule → State → Outcome Unit} :
    (operationThen behind layer op width).run source limit other s =
      ((operationThen (return) layer op width).run source limit other s).andThen fun _ s' =>
        if op == .instanceOfKw then behind.run source limit other s' else .done () s' := by
  unfold operationThen
  rw [Move.run_bind, Move.run_bind, Outcome.andThen_assoc]
  refine Outcome.andThen_congr fun _ s' _ => ?_
  split <;> rfl

/-- Rules of layers leave off where no operator comes that is tight enough for them. -/
def Source.Exhausts (source : Source) (other : Rule → State → Outcome Unit) : Prop :=
  ∀ (layer : Layer) s s', other (.binary layer) s = .done () s' →
    ∀ next, source.layerAhead s' = some next → next.rank < layer.rank

/-- Behind the right operand of an operator no tighter one comes. -/
theorem layerAhead_of_operation {other : Rule → State → Outcome Unit}
    (hother : source.Exhausts other) (hop : op ≠ .instanceOfKw)
    (h : (operationThen behind layer op width).run source limit other s = .done () s')
    {next : Layer} (hnext : source.layerAhead s' = some next) : next.rank ≤ layer.rank := by
  have hne : ¬(op == .instanceOfKw) = true := fun he => hop (beq_iff_eq.mp he)
  unfold operationThen operation at h
  simp only [if_neg hne] at h
  rw [Move.run_bind] at h
  obtain ⟨_, s₃, h, hdone⟩ := Outcome.andThen_eq_done h
  cases hdone
  rw [Move.run_bind] at h
  obtain ⟨_, s₁, -, h⟩ := Outcome.andThen_eq_done h
  rw [Move.run_bind] at h
  obtain ⟨_, s₂, -, h⟩ := Outcome.andThen_eq_done h
  rw [Move.run_bind] at h
  obtain ⟨_, s₄, hright, hclose⟩ := Outcome.andThen_eq_done h
  cases hclose
  have hnext : source.layerAhead s₄ = some next := hnext
  unfold rightOperand at hright
  split at hright
  · rename_i tighter htighter
    simp only [Move.read, Move.run] at hright
    split at hright
    · cases hright
    · rename_i s₅ hread
      cases hright
      have hlt := hother tighter _ s₅ hread next hnext
      rw [Layer.rank_of_tighter htighter] at hlt
      exact Nat.le_of_lt_succ hlt
  · exact Layer.rank_le_of_tighter_eq_none ‹_› next

theorem Move.run_loop {other : Rule → State → Outcome Unit} (body : Move Bool) :
    (Move.loop body).run source limit other s =
      Outcome.iterate (body.run source limit other) source.tokens.size s := by
  simp only [Move.loop, run]
  cases Outcome.iterate (body.run source limit other) source.tokens.size s <;> rfl

/-- The loop over the operators of some layers. -/
def Source.operators (source : Source) (limit bound : Nat) (layers : List Layer)
    (behind : Move Unit) (s : State) : Outcome Unit :=
  (Move.loop (layersTurn layers behind)).run source limit (source.others limit bound) s

theorem operators_of_mem (hsize : source.symbols.size = source.tokens.size)
    (hop : (source.ahead s).operator = (op, width)) (hlayer : Layer.ofOperator op = some layer)
    (hmem : layer ∈ layers) : source.operators limit bound layers behind s =
      ((operationThen behind layer op width).run source limit (source.others limit bound) s).andThen
        fun _ s' => source.operators limit bound layers behind s' := by
  simp only [Source.operators, Move.run_loop]
  exact (layersTurn_turns hsize).iterate_go (layersTurn_of_mem hop hlayer hmem)

theorem operators_of_notMem (hsize : source.symbols.size = source.tokens.size)
    (h : ∀ layer, source.layerAhead s = some layer → layer ∉ layers) :
    source.operators limit bound layers behind s = .done () s := by
  simp only [Source.operators, Move.run_loop]
  exact (layersTurn_turns hsize).iterate_stop (layersTurn_of_notMem h)

/-- **A loop over the operators of a layer and of tighter ones is a loop over those of the tighter
ones and then a loop over those of the layer**, if behind the type of `instanceof` the tighter
operators come first again. -/
theorem operators_cons (hsize : source.symbols.size = source.tokens.size)
    (hother : source.Exhausts (source.others limit bound)) {tighter : List Layer}
    (hlayers : layer :: tighter <:+ Layer.all)
    (hbehind : ∀ s, behind.run source limit (source.others limit bound) s =
      source.operators limit bound tighter (return) s) (s : State) :
    ((source.operators limit bound tighter (return) s).andThen fun _ s' =>
      source.operators limit bound [layer] behind s') =
        source.operators limit bound (layer :: tighter) (return) s := by
  cases hnext : source.layerAhead s with
  | none =>
    have hnone (layers : List Layer) : ∀ layer, source.layerAhead s = some layer → layer ∉ layers :=
      fun layer h => nomatch hnext.symm.trans h
    rw [operators_of_notMem hsize (hnone _), operators_of_notMem hsize (hnone _)]
    exact operators_of_notMem hsize (hnone _)
  | some next =>
    have honly {layers : List Layer} (h : next ∉ layers) :
        ∀ layer, source.layerAhead s = some layer → layer ∉ layers :=
      fun layer h' => Option.some.inj (hnext.symm.trans h') ▸ h
    have hread : s.read < source.tokens.size := Nat.lt_of_not_le fun hle => by
      rw [source.layerAhead_end (hsize ▸ hle)] at hnext
      cases hnext
    obtain ⟨op, width, hop⟩ : ∃ op width, (source.ahead s).operator = (op, width) := ⟨_, _, rfl⟩
    have hwidth : 0 < width := Nat.lt_of_lt_of_eq (Ahead.operator_width_pos _) (congrArg Prod.snd hop)
    have hlayer : Layer.ofOperator op = some next := by rw [← hnext, Source.layerAhead, hop]
    by_cases htighter : next ∈ tighter
    · -- the first loop takes the operator
      rw [operators_of_mem hsize hop hlayer htighter, Outcome.andThen_assoc,
        operators_of_mem hsize hop hlayer (List.mem_cons_of_mem _ htighter)]
      refine Outcome.andThen_congr fun _ s' hrun => ?_
      have hlt := operationThen_lt hwidth hrun
      exact operators_cons hsize hother hlayers hbehind s'
    · rw [operators_of_notMem hsize (honly htighter)]
      change source.operators limit bound [layer] behind s = _
      by_cases heq : next = layer
      · -- the second loop takes it
        rw [heq] at hlayer
        rw [operators_of_mem hsize hop hlayer List.mem_cons_self,
          operators_of_mem hsize hop hlayer List.mem_cons_self, operationThen_run,
          Outcome.andThen_assoc]
        refine Outcome.andThen_congr fun _ s' hrun => ?_
        have hlt := operationThen_lt hwidth hrun
        rw [← operators_cons hsize hother hlayers hbehind s']
        by_cases htest : op = .instanceOfKw
        · rw [if_pos (beq_iff_eq.mpr htest), hbehind]
        · -- its right operand has taken the tighter ones
          have hover : ∀ layer', source.layerAhead s' = some layer' → layer' ∉ tighter :=
            fun layer' h' hmem => Nat.not_lt.mpr (layerAhead_of_operation hother htest hrun h')
              ((Layer.mem_of_suffix hlayers layer').mp hmem)
          rw [if_neg fun he => htest (beq_iff_eq.mp he), operators_of_notMem hsize hover]
      · rw [operators_of_notMem hsize (honly fun h => heq (List.mem_singleton.mp h)),
          operators_of_notMem hsize (honly fun h => (List.mem_cons.mp h).elim heq htighter)]
termination_by source.tokens.size - s.read

/-- The chains of some layers are one loop over their operators. -/
theorem chains_run (hsize : source.symbols.size = source.tokens.size)
    (hother : source.Exhausts (source.others limit bound)) {layers : List Layer}
    (hlayers : layers <:+ Layer.all) (s : State) :
    (chains true layers).run source limit (source.others limit bound) s =
      source.operators limit bound layers (return) s := by
  induction layers generalizing s with
  | nil => exact (operators_of_notMem hsize fun _ _ => List.not_mem_nil).symm
  | cons layer tighter ih =>
    have htighter := ih ((List.suffix_cons layer tighter).trans hlayers)
    rw [chains, Move.run_bind, htighter, ← operators_cons hsize hother hlayers htighter]
    rfl

/-- The one loop is that of the recognizer. -/
theorem operators_andTighter (loosest : Layer) (s : State) : source.operators limit bound loosest.andTighter (return) s =
      (Move.loop (operatorTurn loosest)).run source limit (source.others limit bound) s := by
  have hturn : (layersTurn loosest.andTighter (return)).run source limit
      (source.others limit bound) =
      (operatorTurn loosest).run source limit (source.others limit bound) := by
    funext s
    unfold operatorTurn layersTurn
    rw [Move.run_ahead, Move.run_ahead]
    cases hlayer : Layer.ofOperator (source.ahead s).operator.1 with
    | none => simp only [hlayer]
    | some layer =>
      simp only [hlayer, Layer.mem_andTighter]
      by_cases hle : loosest.rank ≤ layer.rank
      · rw [if_pos hle, if_neg (Nat.not_lt.mpr hle), Move.run_bind, Move.run_bind]
        unfold operationThen
        rw [Move.run_bind, Outcome.andThen_assoc]
        refine Outcome.andThen_congr fun _ s' _ => ?_
        split <;> rfl
      · rw [if_neg hle, if_pos (Nat.not_le.mp hle)]
  rw [Source.operators, Move.run_loop, Move.run_loop, hturn]

/-- A rule of a layer leaves off where no operator comes that is tight enough for it. -/
theorem Source.exhausts_others (hsize : source.symbols.size = source.tokens.size) :
    source.Exhausts (source.others limit bound) := by
  intro loosest s s' h next hnext
  rw [others] at h
  split at h
  · rw [Rule.run_production] at h
    change (binary loosest).run _ _ _ s = _ at h
    rw [binary_eq, Move.run_bind] at h
    obtain ⟨_, s₁, -, hloop⟩ := Outcome.andThen_eq_done h
    rw [← operators_andTighter, operators, Move.run_loop] at hloop
    obtain ⟨s₂, hlast⟩ := (layersTurn_turns hsize).exists_last hloop
    refine Nat.lt_of_not_le fun hle => ?_
    have hmem : next ∈ loosest.andTighter := Layer.mem_andTighter.mpr hle
    by_cases hturn : ∃ layer ∈ loosest.andTighter, source.layerAhead s₂ = some layer
    · obtain ⟨layer, hlayer, hahead⟩ := hturn
      rw [layersTurn_of_mem rfl hahead hlayer] at hlast
      obtain ⟨_, _, _, hdone⟩ := Outcome.andThen_eq_done hlast
      cases hdone
    · have hnone : ∀ layer, source.layerAhead s₂ = some layer → layer ∉ loosest.andTighter :=
        fun layer h hlayer => hturn ⟨layer, hlayer, h⟩
      rw [layersTurn_of_notMem hnone] at hlast
      cases hlast
      exact hnone next hnext hmem
  · cases h

/-- A rule of the layered grammar does what it does in the grammar of the recognizer. -/
theorem Rule.layered_run (hsize : source.symbols.size = source.tokens.size) (rule : Rule)
    (s : State) : (rule.layered true).run source limit (source.others limit bound) s =
      rule.production.run source limit (source.others limit bound) s := by
  cases rule with
  | binary loosest =>
    change (Production.layered true loosest).run _ _ _ s = (Production.binary loosest).run _ _ _ s
    rw [Production.layered, binary_eq, Move.run_bind, Move.run_bind]
    refine Outcome.andThen_congr fun _ s' _ => ?_
    rw [chains_run hsize (source.exhausts_others hsize) loosest.andTighter_suffix,
      operators_andTighter]
  | _ => rfl

theorem Rule.runIn_layered (hsize : source.symbols.size = source.tokens.size) (rule : Rule)
    (s : State) : rule.runIn (Rule.layered true) source limit s = rule.run source limit s := by
  rw [runIn, run_production, ← Rule.layered_run hsize]
  congr 1
  funext rule' s'
  rw [Source.others]
  split
  · exact Rule.runIn_layered hsize rule' s'
  · rfl
termination_by source.work rule s.read

end

theorem length_symbols : (tokens : List Token) → (symbols tokens).length = tokens.length
  | []           => rfl
  | [_]          => rfl
  | _ :: u :: ts => congrArg (· + 1) (length_symbols (u :: ts))

/-- **The recognizer is the layered grammar**, if behind the type of `instanceof` the chains of the
tighter layers are resumed: any rule leads from any state to the same state, or is refused at the
same place for the same reason. -/
theorem Rule.run_layered (tokens : List Token) (limit : Nat) (rule : Rule) (s : State) :
    rule.run (.ofTokens tokens) limit s =
      rule.runIn (Rule.layered true) (.ofTokens tokens) limit s := by
  have hsize : (Source.ofTokens tokens).symbols.size = (Source.ofTokens tokens).tokens.size := by
    simp only [Source.ofTokens, List.size_toArray, length_symbols]
  exact (rule.runIn_layered hsize s).symm

/-- If the chains are not resumed, the layered grammar stops behind the type of `instanceof`, where
the recognizer takes a sum. -/
theorem Rule.run_ne_layered : ∃ tokens, tokenize "a instanceof B + c" = .ok tokens ∧
    ((Rule.binary .conditionalOr).run (.ofTokens tokens) 100 ⟨0, 0, [], []⟩).width 0 = some 5 ∧
    ((Rule.binary .conditionalOr).runIn (Rule.layered false) (.ofTokens tokens) 100
      ⟨0, 0, [], []⟩).width 0 = some 3 := by
  have hwidths : (tokenize "a instanceof B + c").toOption.map (fun tokens =>
      (((Rule.binary .conditionalOr).run (.ofTokens tokens) 100 ⟨0, 0, [], []⟩).width 0,
        ((Rule.binary .conditionalOr).runIn (Rule.layered false) (.ofTokens tokens) 100
          ⟨0, 0, [], []⟩).width 0)) = some (some 5, some 3) := by decide +kernel
  cases htokens : tokenize "a instanceof B + c" with
  | error fault => rw [htokens] at hwidths; cases hwidths
  | ok tokens =>
    rw [htokens] at hwidths
    exact ⟨tokens, rfl, Prod.mk.inj (Option.some.inj hwidths)⟩

end JavaSource.Grammar

namespace JavaSource

open Grammar

/-- A phrase of a layer has an operator of the layer between two operands. -/
theorem Grammar.Layer.shape_eq (layer : Layer) : ∃ kinds, layer.phrase.shape =
    Phrase.operation layer.phrase.level kinds ∧
    ∀ kind ∈ kinds, Layer.ofOperator kind = some layer := by
  cases layer <;> exact ⟨_, rfl, by decide⟩

theorem Grammar.Layer.level_lt_next (layer : Layer) :
    layer.phrase.level.rank < layer.phrase.level.next.rank := by
  cases layer <;> decide

/-- **The operands of an operator are of its layer or tighter, and to its right tighter**, in every
phrase of every tree.  The phrase of `instanceof` is of no layer: it may be any left operand. -/
theorem parseTree_layers {mode : Mode} {limit : Nat} {source : String} {tree : Tree}
    (h : parseTree mode limit source = .ok tree) {n : Nat × Tree} (hn : n ∈ tree.preorder 0)
    {layer : Layer} (hphrase : n.2.phrase? = some layer.phrase) :
    ∃ left op right, n.2.parts = [left, .leaf op, right] ∧ Layer.ofOperator op.kind = some layer ∧
      (∀ kind, left.phrase? = some kind → layer.phrase.level.rank ≤ kind.level.rank) ∧
      (∀ kind, right.phrase? = some kind → layer.phrase.level.rank < kind.level.rank) := by
  obtain ⟨tokens, -, hregular, -, -⟩ := parseTree_regular h
  have hholds := (hregular.preorder 0 n hn).holds_of hphrase
  obtain ⟨kinds, hshape, hkinds⟩ := layer.shape_eq
  rw [hshape] at hholds
  obtain ⟨left, op, right, hparts, hleft, hop, hright⟩ := Tree.parts_of_operation hholds
  refine ⟨left, op, right, hparts, hkinds _ hop, fun kind hkind => ?_, fun kind hkind => ?_⟩
  · exact of_decide_eq_true (List.mem_filter.mp (Item.mem_kinds_of_fits hleft hkind)).2
  · have hle := of_decide_eq_true (List.mem_filter.mp (Item.mem_kinds_of_fits hright hkind)).2
    exact Nat.lt_of_lt_of_le layer.level_lt_next hle

end JavaSource
