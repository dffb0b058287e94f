import JavaSource.Proofs.Advancing.Expressions
import JavaSource.Proofs.Scan

/-!
# Reading comes to an end

`Rule.run` reads with a guard and with fuel.  Neither is needed: moves that advance lead somewhere
although nothing holds them back (`Move.Advances.finishes`), every rule advances (`Rule.advances`),
and so by induction on the tokens left and the rank of the rule every rule comes to an end
(`Rule.finishes`).

* **`JavaSource.reading_terminates`**: from any tokens that end with the end, in any mode and under
  any limit or none, reading leads to one tree or one fault, which is the one that is recognized.
  It never passes the end, a loop that goes around has read something, and no rule comes back to
  itself at the same place.
-/

namespace JavaSource.Grammar

variable {source : Source} {α : Type}

/-! ### Moves that advance come to an end -/

/-- A source whose last token is its end, and whose symbols are its tokens. -/
structure Source.Whole (source : Source) : Prop where
  kind_eq : ∀ i, source.kindAt i = (source.tokenAt i).kind
  lt_size : ∀ i, source.Clear i → i < source.tokens.size

/-- Where moves lead satisfies a property, unless they refuse the source. -/
def Outcome.Meets (P : α → State → Prop) : Outcome α → Prop
  | .done value s  => P value s
  | .refused _ _ _ => True

theorem Outcome.Meets.mono {P P' : α → State → Prop} {o : Outcome α} (h : o.Meets P)
    (hP : ∀ value s, P value s → P' value s) : o.Meets P' := by
  cases o with
  | done value s => exact hP value s h
  | refused place why memo => trivial

/-- Moves come to an end, where a property holds, and all that happens is fine. -/
def Move.Finishes (source : Source) (limit : Option Nat) (recalls : Recall) (e : Entry)
    (m : Move α) (s : State) (P : α → State → Prop) : Prop :=
  ∃ o log, m.Runs source limit recalls e s o log ∧ (∀ ev ∈ log, ev.Fine source) ∧ o.Meets P

variable {limit : Option Nat} {recalls : Recall} {e : Entry} {s : State}

/-- A rule that is read further on, or that ranks below, has less work left. -/
theorem Source.work_lt {r : Rule} {place : Nat} (hle : e.2 ≤ place)
    (hlt : place < source.tokens.size) (h : e.2 < place ∨ r.rank < e.1.rank) :
    source.work r place < source.work e.1 e.2 := by
  have hr := r.rank_lt_ranks
  simp only [work, Rule.ranks] at hr ⊢
  omega

theorem Source.Clear.succ {i : Nat} (h : source.Clear i) (hi : (source.tokenAt i).kind ≠ .eof) :
    source.Clear (i + 1) := fun j hj => by
  rcases Nat.lt_succ_iff_lt_or_eq.mp hj with hj | rfl
  · exact h j hj
  · exact hi

theorem Source.Clear.add {i width : Nat} (h : source.Clear i)
    (hi : ∀ n < width, (source.tokenAt (i + n)).kind ≠ .eof) : source.Clear (i + width) := by
  induction width with
  | zero => exact h
  | succ width ih =>
    exact (ih fun n hn => hi n (Nat.lt_succ_of_lt hn)).succ (hi width (Nat.lt_succ_self width))

theorem exists_mapM {α β : Type} {f : α → Option β} {l : List α} (h : ∀ a ∈ l, ∃ b, f a = some b) :
    ∃ bs, l.mapM f = some bs ∧ bs.length = l.length := by
  induction l with
  | nil => exact ⟨[], rfl, rfl⟩
  | cons a l ih =>
    obtain ⟨hfirst, hrest⟩ := List.forall_mem_cons.mp h
    obtain ⟨b, hb⟩ := hfirst
    obtain ⟨bs, hbs, hlength⟩ := ih hrest
    refine ⟨b :: bs, ?_, congrArg Nat.succ hlength⟩
    rw [List.mapM_cons, hb, hbs]
    rfl

/-- Tokens in front of the end can be joined. -/
theorem Source.exists_joined (kind : TokenKind) {i width : Nat}
    (hlt : i + width < source.tokens.size) (hpos : 0 < width) :
    ∃ t, source.joined kind i width = some t := by
  have hget (n : Nat) (hn : n ∈ List.range width) : ∃ t, source.tokens[i + n]? = some t :=
    ⟨_, Array.getElem?_eq_getElem (by have := List.mem_range.mp hn; omega)⟩
  obtain ⟨parts, hparts, hlength⟩ := exists_mapM hget
  rw [List.length_range] at hlength
  cases parts with
  | nil => exact absurd hlength (Nat.ne_of_lt hpos)
  | cons first rest =>
    simp only [joined, hparts, List.head?_cons, List.getLast?_cons, Option.bind_eq_bind,
      Option.bind_some]
    exact ⟨_, rfl⟩

/-- A rule comes to an end, has read as much as it should and stays in front of the end. -/
def Rule.Finishes (source : Source) (limit : Option Nat) (recalls : Recall) (r : Rule)
    (s : State) : Prop :=
  r.production.Finishes source limit recalls (r, s.read) s fun _ s' =>
    s.read + r.least ≤ s'.read ∧ source.Clear s'.read

/-- **Moves that advance come to an end, if the rules that they read do.** -/
theorem Move.Advances.finishes (hwhole : source.Whole)
    (hrules : ∀ (r : Rule) (s : State), source.work r s.read < source.work e.1 e.2 →
      r.Expects (source.kindAt s.read) → source.Clear s.read → r.Finishes source limit recalls s)
    {m : Move α} {Q : α → Nat → Prop} (hm : m.Advances source e.1.rank e.2 Q s.read)
    (hle : e.2 ≤ s.read) (hclear : source.Clear s.read) :
    m.Finishes source limit recalls e s fun value s' =>
      Q value s'.read ∧ s.read ≤ s'.read ∧ source.Clear s'.read := by
  induction m generalizing s with
  | done value => exact ⟨_, _, .done, List.forall_mem_nil _, hm, Nat.le_refl _, hclear⟩
  | look next ih =>
    obtain ⟨o, log, hrun, hfine, hmeets⟩ := ih _ (hm _) hle hclear
    exact ⟨o, log, .look hrun, hfine, hmeets⟩
  | shift next ih =>
    obtain ⟨hinside, hnext⟩ := hm
    rw [hwhole.kind_eq] at hinside
    have hclear' := hclear.succ hinside
    obtain ⟨o, log, hrun, hfine, hmeets⟩ := ih
      (s := { s with read := s.read + 1, parts := .leaf (source.tokenAt s.read) :: s.parts })
      hnext (Nat.le_succ_of_le hle) hclear'
    refine ⟨o, _, .shift hinside hrun, ?_, hmeets.mono fun _ _ h => ?_⟩
    · exact List.forall_mem_cons.mpr ⟨⟨hclear', hwhole.lt_size _ hclear'⟩, hfine⟩
    · exact ⟨h.1, Nat.le_of_succ_le h.2.1, h.2.2⟩
  | join kind width next ih =>
    obtain ⟨hpos, hinside, hnext⟩ := hm
    have hclear' := hclear.add fun n hn => hwhole.kind_eq _ ▸ hinside n hn
    have hlt := hwhole.lt_size _ hclear'
    obtain ⟨t, ht⟩ := Source.exists_joined kind hlt hpos
    obtain ⟨o, log, hrun, hfine, hmeets⟩ := ih
      (s := { s with read := s.read + width, parts := .leaf t :: s.parts })
      hnext (Nat.le_trans hle (Nat.le_add_right ..)) hclear'
    refine ⟨o, _, .join ht hrun, ?_, hmeets.mono fun _ _ h => ?_⟩
    · exact List.forall_mem_cons.mpr ⟨⟨hclear', hlt⟩, hfine⟩
    · exact ⟨h.1, Nat.le_trans (Nat.le_add_right ..) h.2.1, h.2.2⟩
  | call rule next ih =>
    obtain ⟨hallowed, hexpects, hnext⟩ := hm
    have hwork := Source.work_lt hle (hwhole.lt_size _ hclear) hallowed
    obtain ⟨o, log, hrun, hfine, hmeets⟩ :=
      hrules rule { s with parts := [] } hwork hexpects hclear
    cases o with
    | refused place why memo =>
      exact ⟨_, _, .callRefused hrun, List.forall_mem_cons.mpr ⟨hwork, hfine⟩, trivial⟩
    | done value s' =>
      have hforward : s.read ≤ s'.read := Nat.le_trans (Nat.le_add_right ..) hmeets.1
      obtain ⟨o, log', hrun', hfine', hmeets'⟩ := ih
        (s := { s with read := s'.read, parts := s'.parts ++ s.parts, memo := s'.memo })
        (hnext _ hmeets.1) (Nat.le_trans hle hforward) hmeets.2
      refine ⟨o, _, .call hrun hrun', ?_, hmeets'.mono fun _ _ h => ?_⟩
      · exact List.forall_mem_cons.mpr ⟨hwork, List.forall_mem_append.mpr ⟨hfine, hfine'⟩⟩
      · exact ⟨h.1, Nat.le_trans hforward h.2.1, h.2.2⟩
  | probe what next ih =>
    obtain ⟨hallowed, hnext⟩ := hm
    have hwork := Source.work_lt hle (hwhole.lt_size _ hclear) hallowed
    cases hfound : recalls s.memo (s.read, what) with
    | some width =>
      obtain ⟨o, log, hrun, hfine, hmeets⟩ := ih width (hnext width) hle hclear
      exact ⟨o, _, .recalled hfound hrun, List.forall_mem_cons.mpr ⟨hwork, hfine⟩, hmeets⟩
    | none =>
      have hexpects : what.rule.Expects (source.kindAt s.read) := by cases what <;> trivial
      obtain ⟨found, log, hrun, hfine, -⟩ :=
        hrules what.rule { s with parts := [] } hwork hexpects hclear
      obtain ⟨o, log', hrun', hfine', hmeets⟩ := ih (found.width s.read)
        (s := { s with memo := ((s.read, what), found.width s.read) :: found.memo })
        (hnext _) hle hclear
      exact ⟨o, _, .tried hfound hrun hrun', List.forall_mem_cons.mpr
        ⟨hwork, List.forall_mem_append.mpr ⟨hfine, hfine'⟩⟩, hmeets⟩
  | wrap kind next ih =>
    obtain ⟨o, log, hrun, hfine, hmeets⟩ := ih
      (s := { s with parts := [Tree.ofParts kind s.parts.reverse (source.location s.read)] })
      hm hle hclear
    exact ⟨o, log, .wrap hrun, hfine, hmeets⟩
  | deepen next ih =>
    by_cases hwithin : ∀ n ∈ limit, s.depth < n
    · obtain ⟨o, log, hrun, hfine, hmeets⟩ := ih
        (s := { s with depth := s.depth + 1 }) hm hle hclear
      exact ⟨o, log, .deepen hwithin hrun, hfine, hmeets⟩
    · exact ⟨_, _, .tooDeep hwithin, List.forall_mem_singleton.mpr trivial, trivial⟩
  | iterate body next ihb ih =>
    obtain ⟨I, hI, hbody⟩ := hm
    -- A turn reads something, so there are no more turns than tokens left.
    generalize hleft : source.tokens.size - s.read = left
    induction left using Nat.strongRecOn generalizing s with
    | ind left iht =>
    obtain ⟨o, log, hrun, hfine, hmeets⟩ := ihb (hbody _ hI) hle hclear
    cases o with
    | refused place why memo => exact ⟨_, _, .bodyRefused hrun, hfine, trivial⟩
    | done more s' =>
      obtain ⟨hmore, hforward, hclear'⟩ := hmeets
      cases more with
      | false =>
        obtain ⟨o, log', hrun', hfine', hmeets'⟩ :=
          ih hmore (Nat.le_trans hle hforward) hclear'
        refine ⟨o, _, .leave hrun hrun', List.forall_mem_append.mpr ⟨hfine, hfine'⟩, ?_⟩
        exact hmeets'.mono fun _ _ h => ⟨h.1, Nat.le_trans hforward h.2.1, h.2.2⟩
      | true =>
        have hlt := hwhole.lt_size _ hclear'
        have hread : s.read < s'.read := hmore.1
        obtain ⟨o, log', hrun', hfine', hmeets'⟩ :=
          iht (source.tokens.size - s'.read) (by omega) (Nat.le_trans hle hforward) hclear'
            hmore.2 rfl
        refine ⟨o, _, .again hrun hrun', ?_, ?_⟩
        · exact List.forall_mem_cons.mpr ⟨hread, List.forall_mem_append.mpr ⟨hfine, hfine'⟩⟩
        · exact hmeets'.mono fun _ _ h => ⟨h.1, Nat.le_trans hforward h.2.1, h.2.2⟩
  | refuse place why => exact ⟨_, _, .refuse, List.forall_mem_nil _, trivial⟩

/-! ### Every rule comes to an end -/

/-- Every rule but `superAccess` advances wherever it starts. -/
theorem Rule.steps : ∀ r : Rule, r.Expects .eof → r.Steps source
  | .compilationUnit, _              => compilationUnit_steps
  | .declarationStart, _             => declarationStart_steps
  | .statementStart, _               => statementStart_steps
  | .expressionStart, _              => expressionStart_steps
  | .qualifiedName, _                => qualifiedName_steps
  | .qualifiedNames, _               => qualifiedNames_steps
  | .modifiers, _                    => modifiers_steps
  | .annotations, _                  => annotations_steps
  | .annotationUse, _                => annotationUse_steps
  | .elementValuePair, _             => elementValuePair_steps
  | .elementValue, _                 => elementValue_steps
  | .type, _                         => type_steps
  | .bareType, _                     => bareType_steps
  | .resultType, _                   => resultType_steps
  | .classType, _                    => classType_steps
  | .coit, _                         => coit_steps
  | .typeArguments, _                => typeArguments_steps
  | .typeArgument, _                 => typeArgument_steps
  | .dim, _                          => dim_steps
  | .typeList, _                     => typeList_steps
  | .typeParameters, _               => typeParameters_steps
  | .typeParameter, _                => typeParameter_steps
  | .typeBound, _                    => typeBound_steps
  | .modifiedType, _                 => modifiedType_steps
  | .packageDeclaration, _           => packageDeclaration_steps
  | .importDeclaration, _            => importDeclaration_steps
  | .moduleDeclaration, _            => moduleDeclaration_steps
  | .moduleDirective, _              => moduleDirective_steps
  | .classBodyDeclaration setting, _ => classBodyDeclaration_steps setting
  | .memberDeclaration setting, _    => memberDeclaration_steps setting
  | .memberBody setting, _           => memberBody_steps setting
  | .classBody setting, _            => classBody_steps setting
  | .enumBody, _                     => enumBody_steps
  | .enumConstant, _                 => enumConstant_steps
  | .recordHeader, _                 => recordHeader_steps
  | .recordComponent, _              => recordComponent_steps
  | .formalParameters ofLambda, _    => formalParameters_steps ofLambda
  | .formalParameter, _              => formalParameter_steps
  | .variableDeclarators, _          => variableDeclarators_steps
  | .variableDeclarator, _           => variableDeclarator_steps
  | .variableDeclaratorId, _         => variableDeclaratorId_steps
  | .variableInitializer, _          => variableInitializer_steps
  | .arrayInitializer, _             => arrayInitializer_steps
  | .block, _                        => block_steps
  | .blockStatement, _               => blockStatement_steps
  | .localVariableDeclaration, _     => localVariableDeclaration_steps
  | .statement, _                    => statement_steps
  | .expressionStatement, _          => expressionStatement_goes
  | .forInit, _                      => forInit_steps
  | .forUpdate, _                    => forUpdate_steps
  | .finallyClause, _                => finallyClause_steps
  | .resourceSpecification, _        => resourceSpecification_steps
  | .resource, _                     => resource_steps
  | .resourceVariable, _             => resourceVariable_steps
  | .catchClause, _                  => catchClause_steps
  | .catchType, _                    => catchType_steps
  | .switchBlock, _                  => switchBlock_steps
  | .switchEntry, _                  => switchEntry_steps
  | .switchLabel, _                  => switchLabel_steps
  | .caseItem, _                     => caseItem_steps
  | .pattern, _                      => pattern_steps
  | .expression, _                   => expression_steps
  | .lambda, _                       => lambda_steps
  | .lambdaParameters, _             => lambdaParameters_steps
  | .ternary, _                      => ternary_steps
  | .binary loosest, _               => binary_steps loosest
  | .unary, _                        => unary_steps
  | .castHead, _                     => castHead_steps
  | .postfixed, _                    => postfixed_steps
  | .primary, _                      => primary_steps
  | .selected, _                     => selected_steps
  | .methodCall, _                   => methodCall_steps
  | .arguments, _                    => arguments_steps
  | .superAccess, h                  => nomatch h
  | .genericInvocation, _            => genericInvocation_steps
  | .dimExpr, _                      => dimExpr_steps

theorem Rule.advances (r : Rule) {start : Nat} (h : r.Expects (source.kindAt start)) :
    r.Advances source start := by
  cases r with
  | superAccess =>
    have hsuper : (Ahead.mk source.symbols start none).kind = .superKw := h
    exact advances_of_goes (superAccess_goes hsuper) ⟨Nat.le_refl _, rfl, rfl⟩
  | _ =>
    refine (steps _ ?_).advances
    trivial

/-- **Every rule comes to an end where it may be read**: by induction on the tokens left, and on
the rank of the rule. -/
theorem Rule.finishes (limit : Option Nat) (recalls : Recall) (hwhole : source.Whole) (r : Rule)
    (s : State) (hexpects : r.Expects (source.kindAt s.read)) (hclear : source.Clear s.read) :
    r.Finishes source limit recalls s := by
  obtain ⟨o, log, hrun, hfine, hmeets⟩ := Move.Advances.finishes (e := (r, s.read)) hwhole
    (fun r' s' _ hexpects' hclear' => Rule.finishes limit recalls hwhole r' s' hexpects' hclear')
    (r.advances hexpects) (Nat.le_refl _) hclear
  exact ⟨o, log, hrun, hfine, hmeets.mono fun _ _ h => ⟨h.1, h.2.2⟩⟩
termination_by source.work r s.read

/-! ### Sources that end -/

/-- Tokens that end with the end make a whole source. -/
theorem Source.whole_ofTokens (init : List Token) {last : Token} (hlast : last.kind = .eof) :
    (Source.ofTokens (init ++ [last])).Whole := by
  have hsize : (Source.ofTokens (init ++ [last])).tokens.size = init.length + 1 := by
    simp [ofTokens]
  have hend : (Source.ofTokens (init ++ [last])).tokenAt init.length = last := by
    simp [tokenAt, ofTokens]
  refine ⟨fun i => ?_, fun i hclear => Nat.lt_of_not_le fun hle => ?_⟩
  · have hsymbol : (Source.ofTokens (init ++ [last])).symbols[i]? =
        (Grammar.symbols (init ++ [last]))[i]? := List.getElem?_toArray
    rw [kindAt, hsymbol, Scan.getElem?_symbols]
    rcases Nat.lt_or_ge i (init.length + 1) with hi | hi
    · have ht : (init ++ [last])[i]? = some ((Source.ofTokens (init ++ [last])).tokenAt i) :=
        List.getElem?_toArray.symm.trans (getElem?_tokens (hsize ▸ hi))
      rw [ht]
      rfl
    · have ht : (init ++ [last])[i]? = none := List.getElem?_eq_none (by simpa using hi)
      have hat : (Source.ofTokens (init ++ [last])).tokenAt i = last := by
        simp [tokenAt, ofTokens, ht]
      rw [ht, hat]
      exact hlast.symm
  · have hkind := hclear init.length (by omega)
    rw [hend] at hkind
    exact hkind hlast

/-- From a mode's rule on, tokens that end with the end are read to some outcome. -/
theorem exists_runs (mode : Mode) (limit : Option Nat) (recalls : Recall) (init : List Token)
    {last : Token} (hlast : last.kind = .eof) :
    ∃ o log, mode.start.production.Runs (.ofTokens (init ++ [last])) limit recalls (mode.start, 0)
      ⟨0, 0, [], []⟩ o log ∧ ∀ ev ∈ log, ev.Fine (.ofTokens (init ++ [last])) := by
  have hexpects : mode.start.Expects ((Source.ofTokens (init ++ [last])).kindAt 0) := by
    cases mode <;> trivial
  obtain ⟨o, log, hruns, hfine, -⟩ := Rule.finishes limit recalls
    (Source.whole_ofTokens init hlast) mode.start ⟨0, 0, [], []⟩ hexpects (fun i hi => nomatch hi)
  exact ⟨o, log, hruns, hfine⟩

/-- The calls among what happened. -/
def Event.Calls (log : List Event) (caller callee : Entry) : Prop :=
  .call caller callee ∈ log

theorem Event.Calls.work_lt {log : List Event} (hfine : ∀ ev ∈ log, ev.Fine source)
    {caller callee : Entry} (h : Relation.TransGen (Event.Calls log) caller callee) :
    source.work callee.1 callee.2 < source.work caller.1 caller.2 := by
  induction h with
  | single hcall => exact hfine _ hcall
  | tail _ hcall ih => exact Nat.lt_trans (hfine _ hcall) ih

/-- No token before a place that may be reached is the end. -/
theorem Source.Clear.kind_ne_eof {tokens : List Token} {place : Nat}
    (h : (Source.ofTokens tokens).Clear place) {t : Token} (ht : t ∈ tokens.take place) :
    t.kind ≠ .eof := by
  obtain ⟨i, hi⟩ := List.mem_iff_getElem?.mp ht
  rw [List.getElem?_take] at hi
  split at hi
  · have hat : (Source.ofTokens tokens).tokenAt i = t := by simp [tokenAt, ofTokens, hi]
    exact hat ▸ h i ‹_›
  · cases hi

/-- What reading leads to if all is fine is what is recognized. -/
theorem recognize_of_runs {mode : Mode} {tokens : List Token} {o : Outcome Unit}
    {log : List Event}
    (h : mode.start.production.Runs (.ofTokens tokens) limit .lookup (mode.start, 0)
      ⟨0, 0, [], []⟩ o log)
    (hfine : ∀ ev ∈ log, ev.Fine (.ofTokens tokens)) (htokens : tokens ≠ []) :
    ∃ enough, ∀ n, (limit = some n ∨ limit = none ∧ enough ≤ n) →
      recognize n mode.start tokens = o.verdict n tokens := by
  have hpos : 0 < (Source.ofTokens tokens).tokens.size := by
    simpa [Source.ofTokens] using List.length_pos_iff.mpr htokens
  cases limit with
  | some n =>
    refine ⟨0, fun n' hn' => ?_⟩
    rcases hn' with hn' | ⟨hn', -⟩
    · cases hn'
      rw [recognize_eq_verdict, Rule.run_of_runs h hfine hpos]
    · cases hn'
  | none =>
    obtain ⟨enough, hlarge⟩ := h.exists_limit
    refine ⟨enough, fun n hn => ?_⟩
    rcases hn with hn | ⟨-, hn⟩
    · cases hn
    · rw [recognize_eq_verdict, Rule.run_of_runs (hlarge n hn) hfine hpos]

/-- Reading tokens from a mode's rule on comes to an end although nothing holds it back: with a
tree or a fault, in one way. -/
structure Terminates (mode : Mode) (limit : Option Nat) (tokens : List Token) (o : Outcome Unit)
    (log : List Event) : Prop where
  /-- Reading leads there, -/
  runs : mode.start.production.Runs (.ofTokens tokens) limit .lookup (mode.start, 0)
    ⟨0, 0, [], []⟩ o log
  /-- and nowhere else. -/
  only : ∀ o' log', mode.start.production.Runs (.ofTokens tokens) limit .lookup (mode.start, 0)
    ⟨0, 0, [], []⟩ o' log' → o' = o ∧ log' = log
  /-- The tree or the fault is what is recognized under the limit, and without a limit, under every
  large one. -/
  verdict : ∃ enough, ∀ n, (limit = some n ∨ limit = none ∧ enough ≤ n) →
    recognize n mode.start tokens = o.verdict n tokens
  /-- No place behind the end is reached, -/
  inside : ∀ place, .reach place ∈ log →
    place < tokens.length ∧ ∀ t ∈ tokens.take place, t.kind ≠ .eof
  /-- and the end is not read. -/
  unread : .readEnd ∉ log
  /-- A loop that goes around has read something. -/
  forward : ∀ before after, .turn before after ∈ log → before < after
  /-- A rule that is read or tried has less work left, in tokens and then in rules, -/
  down : ∀ caller callee, Event.Calls log caller callee →
    (Source.ofTokens tokens).work callee.1 callee.2 <
      (Source.ofTokens tokens).work caller.1 caller.2
  /-- so none comes back to itself without having read anything. -/
  acyclic : ∀ e, ¬ Relation.TransGen (Event.Calls log) e e

end JavaSource.Grammar

namespace JavaSource

open Grammar

/-- **Reading comes to an end**, whatever the tokens, the mode and the limit. -/
theorem reading_terminates (mode : Mode) (limit : Option Nat) (init : List Token) (last : Token)
    (hlast : last.kind = .eof) : ∃ o log, Terminates mode limit (init ++ [last]) o log := by
  obtain ⟨o, log, hruns, hfine⟩ :=
    exists_runs mode limit .lookup init hlast
  refine ⟨o, log, ?_⟩
  exact
    { runs := hruns
      only := fun o' log' h => h.unique hruns
      verdict := recognize_of_runs hruns hfine (List.append_ne_nil_of_right_ne_nil _ nofun)
      inside := fun place h => by
        obtain ⟨hclear, hlt⟩ := hfine _ h
        exact ⟨by simpa [Source.ofTokens] using hlt, fun t ht => hclear.kind_ne_eof ht⟩
      unread := fun h => hfine _ h
      forward := fun before after h => hfine _ h
      down := fun caller callee h => hfine _ h
      acyclic := fun e h => Nat.lt_irrefl _ (Event.Calls.work_lt hfine h) }

/-- The body of an enumeration that is never closed is given up at the end. -/
theorem reading_terminates_unclosed : ∃ init last : Token,
    last.kind = .eof ∧ ∃ o log, Terminates .decl none
      ([{ init with kind := .enumKw }, { init with kind := .identifier },
        { init with kind := .lbrace }] ++ [last]) o log := by
  refine ⟨default, { (default : Token) with kind := .eof }, rfl, ?_⟩
  exact reading_terminates .decl none _ _ rfl

end JavaSource
