import JavaSource.Proofs.Makes
import JavaSource.Proofs.Parenthesized
import JavaSource.Proofs.Positions.Statements
import JavaSource.Proofs.Wholes

/-!
# Expressions where a conditional is asked for

The values of annotations and the items of labels are read as conditionals, so neither as
assignments nor as lambdas.  Any other expression is read there as it is read alone.

* `ternary_of_expression`: what is no lambda and no assignment is a conditional to the grammar.
* `caseItem_of_ternary`: a conditional is an item of a label, unless a pattern stands at its start.
-/

namespace JavaSource

open Grammar

variable {ss source rest : List Symbol} {parts : List Tree} {t : Tree} {e : Expr}

/-- Symbols start as an expression does, and not with a name that something is assigned to. -/
structure Grammar.HeadsValue (ss : List Symbol) : Prop where
  ne_nil : ss ≠ []
  starts : startsExpression (kindAhead ss 0) = true
  unnamed : kindAhead ss 0 = .identifier → kindAhead ss 1 ≠ .assign

theorem Grammar.kindAhead_append (h : ss ≠ []) (rest : List Symbol) :
    kindAhead (ss ++ rest) 0 = kindAhead ss 0 := by
  rw [kindAhead, List.getElem?_append_left (List.length_pos_iff.mpr h), kindAhead]

/-- It is not taken for a name that something is assigned to, nor for the end of an annotation. -/
theorem Grammar.HeadsValue.ahead (h : HeadsValue ss) (rest : List Symbol) :
    (kindAhead (ss ++ TokenKind.rparen.symbol :: rest) 0 == .identifier &&
        kindAhead (ss ++ TokenKind.rparen.symbol :: rest) 1 == .assign) = false ∧
      (kindAhead (ss ++ TokenKind.rparen.symbol :: rest) 0 == .rparen) = false := by
  rw [kindAhead_append h.ne_nil]
  refine ⟨(Bool.and_eq_false_imp ..).mpr fun hname => beq_eq_false_iff_ne.mpr ?_,
    beq_eq_false_iff_ne.mpr fun hkind => ?_⟩
  · have hunnamed := h.unnamed (beq_iff_eq.mp hname)
    obtain ⟨x, others, rfl⟩ := List.exists_cons_of_ne_nil h.ne_nil
    cases others with
    | nil => exact TokenKind.noConfusion
    | cons y others => exact hunnamed
  · have hstarts := h.starts
    rw [hkind] at hstarts
    cases hstarts

/-! ### Phrases -/

theorem Opened.lambda_makes (o : Opened) : Makes (fun e : Expr => e.level = .lambda) o.lambda := by
  unfold Opened.lambda
  refine Makes.any.bind fun _ _ => Makes.any.bind fun _ _ => ?_
  dsimp only
  split <;> exact Makes.any.bind fun _ _ => Node.checked_makes fun _ => rfl

theorem Opened.assignment_makes (o : Opened) :
    Makes (fun e : Expr => e.level = .assignment) o.assignment := by
  unfold Opened.assignment
  refine Makes.any.bind fun _ _ => ?_
  dsimp only
  split
  · exact Makes.any.bind fun _ _ => Makes.any.bind fun _ _ => Makes.any.map fun _ _ => rfl
  · exact Makes.any.bind fun _ _ => Makes.any.bind fun _ _ => Makes.any.bind fun _ _ =>
      Makes.any.bind fun _ _ => .ok rfl

/-- What holds together as tightly as a conditional was no lambda and no assignment. -/
theorem Tree.phrase?_of_level (hread : t.read .expr = .ok e)
    (htight : Level.ternary.rank ≤ e.level.rank) :
    t.phrase? ≠ some .lambda ∧ t.phrase? ≠ some .assignment := by
  rw [Tree.read_eq] at hread
  have hexpr : t.opened.expr = .ok e := hread
  rw [Opened.expr, Tree.tree_opened] at hexpr
  constructor
  all_goals
    intro hphrase
    rw [hphrase] at hexpr
  · rw [t.opened.lambda_makes e hexpr] at htight
    exact absurd htight (by decide)
  · rw [t.opened.assignment_makes e hexpr] at htight
    exact absurd htight (by decide)

/-- What is read as an expression was no value of an annotation and no pattern. -/
theorem Tree.phrase?_of_expr (hread : t.read .expr = .ok e) {kind : Phrase}
    (hkind : kind ∈
      [Phrase.annotationUse, .elementValueArrayInitializer, .pattern, .guardedPattern]) :
    t.phrase? ≠ some kind := by
  rw [Tree.read_eq] at hread
  have hexpr : t.opened.expr = .ok e := hread
  rw [Opened.expr, Tree.tree_opened] at hexpr
  intro hphrase
  rw [hphrase] at hexpr
  simp only [List.mem_cons, List.not_mem_nil, or_false] at hkind
  rcases hkind with rfl | rfl | rfl | rfl <;> cases hexpr

theorem Grammar.lambda_closes : Production.lambda.Closes .lambda :=
  .bind fun _ => .bind fun _ => .bind fun _ => .close _

section

variable (hscan : Scanned (ss ++ [Symbol.final]))

include hscan

/-- **An expression that is no lambda and no assignment is a conditional to the grammar.** -/
theorem Grammar.ternary_of_expression
    (h : Rule.expression.Takes (.ofSymbols (ss ++ [Symbol.final])) 0 [t] ss.length)
    (hphrase : t.phrase? ≠ some .lambda ∧ t.phrase? ≠ some .assignment) :
    Rule.ternary.Takes (.ofSymbols (ss ++ [Symbol.final])) 0 [t] ss.length := by
  have hclear := Source.clear_zero (.ofSymbols (ss ++ [Symbol.final]))
  obtain ⟨_, _, ⟨-, rfl⟩, h⟩ := Move.leads_bind.mp ((Rule.takes_iff hscan.whole hclear).mp h)
  obtain ⟨_, _, ⟨rfl, rfl⟩, h⟩ := Move.leads_bind.mp h
  split at h
  · obtain ⟨parts, k, -, htakes, -, hstand⟩ := h
    obtain ⟨rfl, hparts⟩ := Stand.mk.inj hstand
    rw [List.append_nil] at hparts
    have hleads := (Rule.takes_iff hscan.whole hclear).mp (hparts ▸ htakes)
    exact absurd (lambda_closes _ _ _ _ _ hleads) hphrase.1
  · obtain ⟨_, _, ⟨parts, k, -, htakes, -, rfl⟩, h⟩ := Move.leads_bind.mp h
    obtain ⟨_, _, ⟨rfl, rfl⟩, h⟩ := Move.leads_bind.mp h
    split at h
    · have hcloses : (Move.take >>= fun _ => Move.read .expression >>= fun _ =>
          Move.close .assignment).Closes .assignment :=
        .bind fun _ => .bind fun _ => .close _
      exact absurd (hcloses _ _ _ _ _ h) hphrase.2
    · obtain ⟨-, hstand⟩ := h
      obtain ⟨rfl, hparts⟩ := Stand.mk.inj hstand
      rw [List.append_nil] at hparts
      exact hparts ▸ htakes

/-- **A conditional starts as an expression does**, and not with a name that something is assigned
to. -/
theorem Grammar.headsValue_of_ternary
    (h : Rule.ternary.Takes (.ofSymbols (ss ++ [Symbol.final])) 0 parts ss.length) :
    HeadsValue ss := by
  have hstarts := ternary_starts hscan.whole 0 _ _ (Source.clear_zero _) h
  rw [Ahead.kind, kindAt_ofSymbols _ rfl] at hstarts
  have hne : ss ≠ [] := by
    rintro rfl
    exact absurd hstarts Bool.false_ne_true
  refine ⟨hne, by rwa [← kindAhead_append hne [Symbol.final]], fun hname hassign => ?_⟩
  -- The name in front of the sign is the whole of a conditional.
  cases ss with
  | nil => exact hne rfl
  | cons x behind =>
    cases behind with
    | nil => cases hassign
    | cons y others =>
      have hbehind : y :: (others ++ [Symbol.final]) ≠ [] := List.cons_ne_nil _ _
      have hkind : kindAhead (y :: (others ++ [Symbol.final])) 0 = .assign := hassign
      have hdims : NoDims (x :: y :: others ++ [Symbol.final]) (y :: (others ++ [Symbol.final])) :=
        noDims_of_ne hscan hbehind (by rw [hkind]; decide) (by rw [hkind]; decide)
      have hmatches := name_ternary hscan hbehind hname (by rw [hkind]; rfl) hdims
      have hlength := ((hmatches 0 rfl).unique h).2
      simp at hlength

/-- **A conditional is an item of a label**, unless a pattern stands at its start. -/
theorem Grammar.caseItem_of_ternary
    (h : Rule.ternary.Takes (.ofSymbols (ss ++ [Symbol.final])) 0 parts ss.length)
    (hpattern : ∀ parts n, ¬ Rule.pattern.Takes (.ofSymbols (ss ++ [Symbol.final])) 0 parts n) :
    Rule.caseItem.Takes (.ofSymbols (ss ++ [Symbol.final])) 0 parts ss.length := by
  refine (Rule.takes_iff hscan.whole (Source.clear_zero _)).mpr ?_
  have hnone : Probe.pattern.Finds (.ofSymbols (ss ++ [Symbol.final])) 0 none := hpattern
  exact ⟨none, .inr ⟨rfl, by decide⟩, hnone, parts, _, .inr ⟨rfl, by decide⟩, h, rfl,
    congrArg _ (List.append_nil parts).symm⟩

end

end JavaSource
