import JavaSource.Proofs.Matching
import JavaSource.Proofs.Operators.Follow
import JavaSource.Proofs.Operators.Meaning
import JavaSource.Proofs.Operators.Parentheses
import JavaSource.Proofs.Parsing

/-!
# Whole sources

A source that is one statement or one expression is read by a rule that stands in front of its end
(`Whole`).  What the rule takes of all of the symbols is what the text is parsed to, and nothing
else is.

* `Whole.parse`: a text is parsed to what the rule takes.
* `Whole.of_parse`: what it is parsed to was taken by the rule.
-/

namespace JavaSource

open Grammar

variable {ss : List Symbol} {mode : Mode} {first : Rule} {c : Category} {goal : Goal c}
  {limit : Nat} {source : String} {n : AnyNode}

/-- A whole source that is one thing. -/
theorem Grammar.takes_of_finish {start : Rule} {kind : Phrase} {moves : Move Unit} {t : Tree}
    {j : Nat} (hstart : start.production =
      (moves >>= fun _ => Production.finish >>= fun _ => Move.close kind))
    (hscan : Scanned (ss ++ [Symbol.final]))
    (h : start.Takes (.ofSymbols (ss ++ [Symbol.final])) 0 [t] j) :
    ∃ parts, t = kind.over parts.reverse ∧
      moves.Leads (.ofSymbols (ss ++ [Symbol.final])) (start, 0) ⟨0, []⟩ () ⟨ss.length, parts⟩ := by
  have hclear := Source.clear_zero (.ofSymbols (ss ++ [Symbol.final]))
  have hleads := (Rule.takes_iff hscan.whole hclear).mp h
  rw [hstart] at hleads
  obtain ⟨_, ⟨k, parts⟩, hfirst, hrest⟩ := Move.leads_bind.mp hleads
  obtain ⟨_, s', hfinish, hclose⟩ := Move.leads_bind.mp hrest
  have hfinish : (if !((Source.ofSymbols (ss ++ [Symbol.final])).view ⟨k, parts⟩).isAt .eof then
    Move.fail .extraneous else Pure.pure () : Move Unit).Leads _ _ ⟨k, parts⟩ _ s' := hfinish
  split at hfinish
  · exact hfinish.elim
  · rename_i heof
    obtain ⟨-, rfl⟩ := hfinish
    have hkind : kindAhead (ss ++ [Symbol.final]) k = .eof := by
      rw [Bool.not_eq_true', Bool.not_eq_false, Ahead.isAt, beq_iff_eq, Ahead.kind,
        kindAt_ofSymbols _ rfl] at heof
      exact heof
    have hge : ss.length ≤ k := Nat.le_of_not_lt fun hlt => by
      rw [kindAhead, List.getElem?_append_left hlt, List.getElem?_eq_getElem hlt] at hkind
      exact hscan.ne_eof (List.cons_ne_nil _ _) _ (List.getElem_mem hlt) hkind
    have hle : k ≤ ss.length := Nat.le_of_not_lt fun hlt => by
      have hsize := hscan.whole.lt_size k (hfirst.clear hclear)
      rw [Source.size_ofSymbols, List.length_append, List.length_singleton] at hsize
      omega
    obtain rfl : k = ss.length := Nat.le_antisymm hle hge
    refine ⟨parts, ?_, hfirst⟩
    have hstand : (⟨j, [t]⟩ : Stand) = ⟨ss.length, [Tree.ofParts kind parts.reverse
        ((Source.ofSymbols (ss ++ [Symbol.final])).location ss.length)]⟩ := hclose.2
    rw [Source.location_ofSymbols] at hstand
    exact List.head_eq_of_cons_eq (congrArg Stand.parts hstand)

/-- What a rule takes of all symbols it matches in front of the end. -/
theorem Grammar.Rule.Takes.matches_all {r : Rule} {parts : List Tree}
    (h : r.Takes (.ofSymbols (ss ++ [Symbol.final])) 0 parts ss.length) :
    r.Matches (ss ++ [Symbol.final]) ss parts [Symbol.final] := fun i hi => by
  obtain rfl : i = 0 := by
    have hlength := congrArg List.length hi
    rw [List.length_drop, List.length_append, List.length_singleton] at hlength
    omega
  rwa [Nat.zero_add]

/-- A whole source of some mode is what one rule reads, as something of one category. -/
structure Whole (mode : Mode) (first : Rule) {c : Category} (goal : Goal c) : Prop where
  start_eq : mode.start.production =
    (Move.read first >>= fun _ => Production.finish >>= fun _ => Move.close mode.phrase)
  rank_lt : first.rank < mode.start.rank
  one : ∀ parts, mode.phrase.shape.Holds parts → ∃ t, parts = [t] ∧ t.phrase?.isSome = true
  readWhole : ∀ t start stop, t.phrase?.isSome = true →
    (Tree.node mode.phrase [t] start stop).readWhole = t.readAny goal

theorem Tree.phrases_head?_one {t : Tree} (ht : t.phrase?.isSome = true) (kind : Phrase)
    (start stop : Location) : (Tree.node kind [t] start stop).phrases.head? = some t := by
  simp [Tree.phrases_node, ht]

theorem whole_expression : Whole .expr .expression .expr where
  start_eq := rfl
  rank_lt := by decide
  one := by
    rintro parts ⟨t, rfl, ht⟩
    exact ⟨t, rfl, Tree.isSome_of_fits ht⟩
  readWhole t start stop ht := by
    change (Tree.node .expressionStart [t] start stop).readOnly (·.readAny .expr) = _
    rw [Tree.readOnly, Tree.phrases_head?_one ht]

theorem whole_statement : Whole .stmt .blockStatement .stmt where
  start_eq := rfl
  rank_lt := by decide
  one := by
    rintro parts ⟨t, rfl, ht⟩
    exact ⟨t, rfl, Tree.isSome_of_fits ht⟩
  readWhole t start stop ht := by
    change (Tree.node .statementStart [t] start stop).readOnly (·.readAny .stmt) = _
    rw [Tree.readOnly, Tree.phrases_head?_one ht]

namespace Whole

variable (w : Whole mode first goal)

include w

/-- What the rule takes of all symbols is the whole source. -/
theorem start_takes {parts : List Tree} (hscan : Scanned (ss ++ [Symbol.final]))
    (hfirst : first.Takes (.ofSymbols (ss ++ [Symbol.final])) 0 parts ss.length) :
    mode.start.Takes (.ofSymbols (ss ++ [Symbol.final])) 0 [mode.phrase.over parts.reverse]
      ss.length := by
  have hstart : mode.start.Matches (ss ++ [Symbol.final]) ss
      [mode.phrase.over parts.reverse] [Symbol.final] :=
    .of_production hscan (List.cons_ne_nil _ _) fun i s he h => by
      rw [w.start_eq]
      refine h.read hfirst.matches_all (he.same h (by simp) w.rank_lt) fun h => ?_
      refine .bind (.isAt ?_)
      rw [h.isAt_eq]
      exact .pure (h.closeLast (by rw [List.append_nil]))
  simpa using hstart 0 rfl

/-- **A text is parsed to what the rule takes of all its symbols.** -/
theorem parse {t : Tree} {v : Node c} (hlexes : Lexes source.toList ss)
    (htakes : first.Takes (.ofSymbols (ss ++ [Symbol.final])) 0 [t.unplaced] ss.length)
    (ht : t.phrase?.isSome = true) (hread : t.read goal = .ok v)
    (hlimit : (parseTreeWithin mode limit source).isOk) :
    ∃ n, JavaSource.parse mode limit source = .ok n ∧ n.Alike ⟨c, v⟩ := by
  have hstart : mode.start.Takes (.ofSymbols (ss ++ [Symbol.final])) 0
      [(mode.phrase.over [t]).unplaced] ss.length := by
    rw [Phrase.unplaced_over]
    exact w.start_takes hlexes.scanned htakes
  refine parse_of_takes hlexes hstart ?_ hlimit
  refine (w.readWhole t _ _ ht).trans ?_
  rw [Tree.readAny, hread]
  rfl

/-- **What a text is parsed to was taken of all its symbols by the rule.** -/
theorem of_parse (hlimit : (parseTreeWithin mode limit source).isOk)
    (h : JavaSource.parse mode limit source = .ok n) :
    ∃ (ss : List Symbol) (t : Tree) (v : Node c), Lexes source.toList ss ∧ t.phrase?.isSome = true ∧
      first.Takes (.ofSymbols (ss ++ [Symbol.final])) 0 [t.unplaced] ss.length ∧
      t.read goal = .ok v ∧ n = ⟨c, v⟩ := by
  cases htree : parseTree mode limit source with
  | error fault =>
    rw [JavaSource.parse, htree] at h
    cases h
  | ok tree =>
    rw [JavaSource.parse, htree] at h
    obtain ⟨-, -, hregular, hphrase, -⟩ := parseTree_regular htree
    cases hregular with
    | leaf => cases hphrase
    | @node kind parts start stop holds =>
      obtain rfl := Option.some.inj hphrase
      obtain ⟨t, rfl, ht⟩ := w.one _ holds
      obtain ⟨ss, j, hlexes, hstart⟩ := takes_of_parseTree htree hlimit
      obtain ⟨parts, hover, hleads⟩ := takes_of_finish w.start_eq hlexes.scanned hstart
      obtain ⟨parts', k, -, htakes, -, hstand⟩ := hleads
      obtain ⟨rfl, rfl⟩ := Stand.mk.inj hstand
      have hreverse : [t.unplaced] = parts'.reverse := by
        rw [List.append_nil] at hover
        exact (Tree.node.inj hover).2.1
      rw [List.reverse_eq_iff.mp hreverse.symm] at htakes
      change (Tree.node mode.phrase [t] start stop).readWhole.mapError Failure.node = _ at h
      rw [w.readWhole t _ _ ht, Tree.readAny] at h
      cases hread : t.read goal with
      | error e =>
        rw [hread] at h
        cases h
      | ok v =>
        rw [hread] at h
        exact ⟨ss, t, v, hlexes, ht, htakes, hread, (Except.ok.inj h).symm⟩

end Whole

end JavaSource
