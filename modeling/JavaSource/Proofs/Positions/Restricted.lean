import JavaSource.Proofs.Positions.Annotated
import JavaSource.Proofs.Positions.Constants
import JavaSource.Proofs.Positions.Stated

/-!
# Expressions in restricted positions

The values of annotations and the constants of labels are printed as expressions are printed alone,
but read as conditionals.  So an assignment or a lambda is not read back there, as
`same_annotated_assignment` shows.

* `Node.parse_print_restricted`: any other expression is, if it is read back alone.
-/

namespace JavaSource

open Grammar (Symbol Rule)

variable {e v : Expr} {indent depth : Nat} {text text' : String} {ss : List Symbol}

/-- An expression is written somewhere as a text that is parsed to it alone. -/
def Node.WrittenAs (e : Expr) (indent depth : Nat) (text : String) : Prop :=
  (Doc.concat e.docs).write indent depth "" = .ok text ∧
    ∃ limit n, (parseTreeWithin .expr limit text).isOk ∧ parse .expr limit text = .ok n ∧
      n.Alike ⟨.expr, e⟩

theorem Node.Alike.level_eq (h : v.Alike e) : v.level = e.level := by
  cases h with
  | binary _ hop => cases hop; rfl
  | _ => rfl

/-- What is no assignment and no lambda is taken as a conditional. -/
theorem Node.WrittenAs.exists_ternary (h : e.WrittenAs indent depth text)
    (htight : Level.ternary.rank ≤ e.level.rank) (hlexes : Lexes text.toList ss) :
    ∃ (t : Tree) (v : Expr), t.phrase?.isSome = true ∧ t.read .expr = .ok v ∧ v.Alike e ∧
      Rule.ternary.Takes (.ofSymbols (ss ++ [Symbol.final])) 0 [t.unplaced] ss.length := by
  obtain ⟨-, limit, n, hlimit, hparse, halike⟩ := h
  obtain ⟨ss', t, v, hlexes', ht, htakes, hread, rfl⟩ := whole_expression.of_parse hlimit hparse
  obtain rfl := hlexes.unique hlexes'
  cases halike with
  | mk halike =>
    have hphrase := Tree.phrase?_of_level hread (halike.level_eq ▸ htight)
    rw [← Tree.phrase?_unplaced] at hphrase
    exact ⟨t, v, ht, hread, halike, Grammar.ternary_of_expression hlexes.scanned htakes hphrase⟩

/-- **An expression that is no assignment and no lambda is read back as the value of an annotation
and as the constant of a rule**, if it is read back alone: named or not and in an array or not, and
in front of a colon or of an arrow, wherever it may be a constant.  The statements of the rule have
braces around the branches that dangle. -/
theorem Node.parse_print_restricted (htight : Level.ternary.rank ≤ e.level.rank)
    (hwritten : e.WrittenAs indent 0 text) (hstated : ∃ ss, LexesStated text ss)
    (hnested : e.WrittenAs indent 1 text') :
    (∀ p : ElementPlace, ∃ source, (p.node e).print indent = .ok source ∧
      ∀ limit, (parseTreeWithin .decl limit source).isOk →
        ∃ n, parse .decl limit source = .ok n ∧ n.Alike ⟨.decl, p.node e⟩) ∧
    ∀ (value : Expr) (isArrow : Bool) (body : Nodes .stmt), value.Operational →
      body.Labelled isArrow → MayBeConstant isArrow text' →
        ∃ source, (choosing value (constantRule e isArrow body)).print indent = .ok source ∧
          ∀ limit, (parseTreeWithin .expr limit source).isOk →
            ∃ n, parse .expr limit source = .ok n ∧
              n.Alike ⟨.expr, choosing value (constantRule e isArrow body.braced)⟩ := by
  constructor
  · intro p
    obtain ⟨ss, hstated⟩ := hstated
    obtain ⟨t, v, ht, hread, halike, htakes⟩ := hwritten.exists_ternary htight hstated.1
    exact ElementPlace.parse_node hwritten.1 hstated htakes ht hread halike
  · intro value isArrow body hvalue hbody hconstant
    obtain ⟨ss, hstated, -⟩ := id hconstant
    obtain ⟨t, v, ht, hread, halike, htakes⟩ := hnested.exists_ternary htight hstated.1
    obtain ⟨o, values, rfl⟩ := hvalue.exists_node
    obtain ⟨b, bodies, rfl, rfl⟩ := hbody.exists_node
    exact b.parse_constant o hnested.1 hstated hconstant htakes ht hread halike values bodies

/-- A conditional in an array with a name, and in front of a colon. -/
theorem Node.parse_print_restricted_conditional : ∃ (e value : Expr) (body : Nodes .stmt)
    (p : ElementPlace), e.WrittenAs 0 0 "a ? b : c" ∧ e.WrittenAs 0 1 "a ? b : c" ∧
      (∃ ss, LexesStated "a ? b : c" ss) ∧ MayBeConstant false "a ? b : c" ∧
      (p.node e).print 0 = .ok "@A(x = \x7ba ? b : c\x7d) class B \x7b\x7d" ∧
      (∃ n, parse .decl 20 "@A(x = \x7ba ? b : c\x7d) class B \x7b\x7d" = .ok n ∧
        n.Alike ⟨.decl, p.node e⟩) ∧
      (choosing value (constantRule e false body)).print 0 =
        .ok "switch (d) \x7b case a ? b : c: f(); \x7d" ∧
      ∃ n, parse .expr 30 "switch (d) \x7b case a ? b : c: f(); \x7d" = .ok n ∧
        n.Alike ⟨.expr, choosing value (constantRule e false body.braced)⟩ := by
  let t : OpTree := .conditional (.head (.name (.letter 'a' rfl (by decide))))
    (.head (.name (.letter 'b' rfl (by decide)))) (.head (.name (.letter 'c' rfl (by decide))))
  let e : Expr := .conditional none (.letter 'a') (.letter 'b') (.letter 'c')
  let p : ElementPlace := ⟨.letter 'A' rfl (by decide), some (.letter 'x' rfl (by decide)), true,
    .letter 'B' rfl (by decide)⟩
  have htext : String.ofList t.grouped.chars = "a ? b : c" := by decide +kernel
  obtain ⟨hprint, hparse⟩ := t.parse_grouped (fun _ => none) 0
  rw [htext] at hprint hparse
  obtain ⟨n, hn, halike⟩ := hparse 20 (by decide +kernel)
  have halone : ∃ limit n, (parseTreeWithin .expr limit "a ? b : c").isOk ∧
      parse .expr limit "a ? b : c" = .ok n ∧ n.Alike ⟨.expr, e⟩ :=
    ⟨20, n, by decide +kernel, hn, halike⟩
  have hwritten : e.WrittenAs 0 0 "a ? b : c" := ⟨hprint, halone⟩
  have hnested : e.WrittenAs 0 1 "a ? b : c" := ⟨rfl, halone⟩
  have hstated : LexesStated "a ? b : c" t.grouped.symbols := htext ▸ t.lexesStated
  have hconstant : MayBeConstant false "a ? b : c" := by
    have hoff : SetsOff ':' t.grouped.symbols := ⟨by decide, fun _ => by decide⟩
    refine ⟨_, hstated, fun parts j htakes => ?_, hoff⟩
    obtain ⟨limit, depth, memo, hdone⟩ := (Rule.takes_iff_runWithin hstated.1.scanned.whole
      (r := .pattern) (i := 0) trivial (Grammar.Source.clear_zero _)).mp htakes
    have heval : (match Rule.pattern.runWithin
        (.ofSymbols (t.grouped.symbols ++ [Symbol.final])) 9 ⟨0, 0, [], []⟩ with
      | .ok (.refused _ _ _) => true
      | _                    => false) = true := by decide +kernel
    split at heval
    · cases Rule.runWithin_unique hdone ‹_›
    · cases heval
  let value : Expr := .letter 'd'
  let body : Nodes .stmt := .cons (.exprStmt none (.call none (.letter 'f') .nil)) .nil
  obtain ⟨hannotated, hchosen⟩ :=
    Node.parse_print_restricted (by decide) hwritten ⟨_, hstated⟩ hnested
  have hbody : body.Labelled false :=
    .colon (.cons (.call (.letter 'f' rfl (by decide)) (by decide) .nil) .nil)
  have hprint : (p.node e).print 0 = .ok "@A(x = \x7ba ? b : c\x7d) class B \x7b\x7d" := by
    decide +kernel
  have hprint' : (choosing value (constantRule e false body)).print 0 =
      .ok "switch (d) \x7b case a ? b : c: f(); \x7d" := by decide +kernel
  obtain ⟨source, hsource, hdecl⟩ := hannotated p
  obtain ⟨source', hsource', hexpr⟩ :=
    hchosen value false body (.letter 'd' rfl (by decide)) hbody hconstant
  obtain rfl := Except.ok.inj (hsource.symm.trans hprint)
  obtain rfl := Except.ok.inj (hsource'.symm.trans hprint')
  exact ⟨e, value, body, p, hwritten, hnested, ⟨_, hstated⟩, hconstant, hprint,
    hdecl 20 (by decide +kernel), hprint', hexpr 30 (by decide +kernel)⟩

/-- As the only value of an annotation, an assignment is taken for a value with a name. -/
theorem same_annotated_assignment : ∃ (e : Expr) (p : ElementPlace), e.print 0 = .ok "x = y" ∧
    (∃ n, parse .expr 20 "x = y" = .ok n ∧ n.same ⟨.expr, e⟩ = true) ∧
    (p.node e).print 0 = .ok "@A(x = y) class B \x7b\x7d" ∧
    (parseTreeWithin .decl 20 "@A(x = y) class B \x7b\x7d").isOk ∧
    ∃ n, parse .decl 20 "@A(x = y) class B \x7b\x7d" = .ok n ∧
      n.same ⟨.decl, p.node e⟩ = false := by
  let e : Expr := .assignment none (.letter 'x') .absent (.letter 'y')
  let p : ElementPlace := ⟨.letter 'A' rfl (by decide), none, false, .letter 'B' rfl (by decide)⟩
  have halone : (parse .expr 20 "x = y").toOption.any (·.same ⟨.expr, e⟩) = true := by
    decide +kernel
  have hannotated : (parse .decl 20 "@A(x = y) class B \x7b\x7d").toOption.any
      (!·.same ⟨.decl, p.node e⟩) = true := by decide +kernel
  have hprint : (p.node e).print 0 = .ok "@A(x = y) class B \x7b\x7d" := by decide +kernel
  obtain ⟨n, hn, hsame⟩ := exists_of_toOption_any hannotated
  exact ⟨e, p, rfl, exists_of_toOption_any halone, hprint, by decide +kernel, n, hn,
    (Bool.not_eq_true' _).mp hsame⟩

end JavaSource
