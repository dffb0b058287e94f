import JavaSource.Proofs.Matching.Exchange
import JavaSource.Proofs.Operators.Recognized
import JavaSource.Proofs.Operators.Scanned
import JavaSource.Proofs.Parsing

/-!
# Operator trees in any source

A layered tree is recognized in a source that holds little else (`OpTree.recognized`).  What is read
of it there is read of it in any source, wherever its symbols stand in front of a stopper.

* `OpTree.matches_symbols`: an expression.
* `OpTrees.matched`, `OpTrees.matches_forUpdate`: several expressions with commas between them.
-/

namespace JavaSource

open Grammar (Symbol Rule Scanned Tame Ends Faces Entered Entry Stand Move kindAhead)

variable {ss rest : List Symbol} {first t : OpTree} {others ts : OpTrees}

namespace OpTrees

/-- Each expression is read in front of those behind it. -/
def Matched (ss rest : List Symbol) : OpTrees → Prop
  | .nil               => True
  | .cons first others => Rule.expression.Matches ss first.symbols [first.tree]
      (others.symbols [TokenKind.comma.symbol] ++ rest) ∧ others.Matched ss rest

/-! ### A source of their own -/

/-- Expressions with commas between them, in front of a parenthesis. -/
def alone (ts : OpTrees) : List Symbol := ts.symbols [] ++ [TokenKind.rparen.symbol, Symbol.final]

theorem scanned_alone (hts : ts.Layered) : Scanned ts.alone := by
  have hclose : Lexes [')'] [TokenKind.rparen.symbol] := Lexes.nil.single rfl
  have hlead {cs : List Char} {ss : List Symbol} (h : Lexes cs ss) : Lexes ([] ++ cs) ([] ++ ss) := h
  have hlexes := ts.lexes hlead (.cons rfl (by decide) []) hclose hts
  have hscanned := hlexes.scanned
  rwa [List.append_assoc] at hscanned

theorem tame_alone : Tame ts.alone := by
  have hlead {rest : List Symbol} (h : Tame rest) : Tame ([] ++ rest) := h
  exact ts.tame hlead ⟨rfl, fun _ => rfl, rfl, by decide, trivial⟩ rfl

/-- There each expression is read. -/
theorem matched_alone (hscan : Scanned ss) (htame : Tame ss) (ts : OpTrees)
    (hlayered : ts.Layered) : ts.Matched ss [TokenKind.rparen.symbol, Symbol.final] := by
  cases ts with
  | nil => exact trivial
  | cons first others =>
    have hread := (first.recognized htame hlayered.1).expression.reads
      (OpTree.follows_comma_or_rparen others [Symbol.final])
    exact ⟨.of_reads hscan (fun _ => trivial) (by simp) hread,
      matched_alone hscan htame others hlayered.2⟩

end OpTrees

/-- An expression has symbols. -/
theorem OpTree.length_symbols_pos (hlayered : t.Layered) : 0 < t.symbols.length := by
  have halone : Scanned (OpTrees.cons t .nil).alone := OpTrees.scanned_alone ⟨hlayered, trivial⟩
  have hmatched := OpTrees.matched_alone halone OpTrees.tame_alone (.cons t .nil) ⟨hlayered, trivial⟩
  have htakes := hmatched.1 0 (by simp [OpTrees.alone, OpTrees.symbols])
  have hlt := htakes.lt halone.whole (Grammar.Source.clear_zero _) rfl
  rwa [Nat.zero_add] at hlt

namespace OpTrees

/-! ### The update of a loop -/

/-- The loop reads the expressions behind the first one. -/
theorem cycles {total : List Symbol} {e : Entry} {Q : Stand → Prop}
    (hrest : (kindAhead rest 0 == .comma) = false) (he : Entered ss e total) :
    (ts : OpTrees) → ts.Matched ss rest → {parts : List Tree} → {s : Stand} →
    Faces ss parts (ts.symbols [TokenKind.comma.symbol] ++ rest) s →
    (ts.symbols [TokenKind.comma.symbol] ++ rest).length < total.length →
    (∀ {s'}, Faces ss ((ts.trees [TokenKind.comma.leaf]).reverse ++ parts) rest s' → Q s') →
    (do if ← Move.eat .comma then
          Move.read .expression
          return true
        else return false).Cycles (.ofSymbols ss) e Q s
  | .nil, _, _, _, h, _, k => .stop (h.eatNone hrest (.pure ⟨rfl, k h⟩))
  | .cons first others, hmatched, parts, s, h, hlt, k => by
    have hassoc : (cons first others).symbols [TokenKind.comma.symbol] ++ rest =
        TokenKind.comma.symbol :: (first.symbols ++
          (others.symbols [TokenKind.comma.symbol] ++ rest)) := by
      simp [symbols]
    rw [hassoc] at h hlt
    simp only [List.length_cons, List.length_append] at hlt
    refine .go (h.eat rfl rfl fun h' => ?_)
    refine h'.read hmatched.1 (he.fewer h' (by grind)) fun h'' => .pure ⟨rfl, ?_, ?_⟩
    · exact h.read_lt_read h'' (by grind)
    · refine cycles hrest he others hmatched.2 h'' (by grind) fun h => k ?_
      simpa [trees, TokenKind.leaf] using h

/-- Expressions are read as the update of a loop. -/
theorem matches_forUpdate (hscan : Scanned ss) (hrest : (kindAhead rest 0 == .comma) = false)
    (hne : rest ≠ []) (hfirst : first.Layered) (hmatched : (cons first others).Matched ss rest) :
    Rule.forUpdate.Matches ss ((cons first others).symbols [])
      [Phrase.forUpdate.over ((cons first others).trees [])] rest := by
  have hpos := OpTree.length_symbols_pos hfirst
  refine .of_production hscan hne fun i s he h => ?_
  have hassoc : (cons first others).symbols [] ++ rest =
      first.symbols ++ (others.symbols [TokenKind.comma.symbol] ++ rest) := by
    simp [symbols]
  rw [hassoc] at he h
  change ((Move.read .expression >>= fun _ => Move.loop _) >>= fun _ => _).Gets ..
  refine .bind (h.read hmatched.1 (he.same h ?_ (by decide)) fun h => .loop ?_)
  · exact List.append_ne_nil_of_left_ne_nil (List.length_pos_iff.mp hpos) _
  · refine others.cycles hrest he hmatched.2 h (by grind) fun h => h.closeLast ?_
    simp [trees]

/-! ### Any source -/

/-- **Expressions are read of their symbols in any source.** -/
theorem matched (hscan : Scanned ss) (hends : Ends rest) (ts : OpTrees)
    (hlayered : ts.Layered) : ts.Matched ss rest := by
  cases ts with
  | nil => exact trivial
  | cons first others =>
    have halone := scanned_alone hlayered
    have hmatched := matched_alone halone tame_alone _ hlayered
    have htakes := hmatched.1 0 (by simp [alone, symbols])
    have hupdate := matches_forUpdate halone rfl (List.cons_ne_nil _ _) hlayered.1 hmatched 0 rfl
    have hnested := Grammar.Window.nested_of_takes
      (W := ⟨(cons first others).symbols [], [], [TokenKind.rparen.symbol, Symbol.final], [], rest⟩)
      halone (List.cons_ne_nil _ _) rfl hupdate
    have halone : Scanned ([] ++ (cons first others).alone) := halone
    refine ⟨.of_takes_amid halone hscan rfl hends.stops hnested (fun before' => ?_)
      htakes, matched hscan hends others hlayered.2⟩
    rw [Grammar.Window.margin_of_isSteady rfl]
    · exact Nat.zero_le _
    · exact (Bool.or_eq_false_iff ..).mpr ⟨rfl, hends.arrow⟩

end OpTrees

/-- **An expression is read of its symbols in any source.** -/
theorem OpTree.matches_symbols (hscan : Scanned ss) (hlayered : t.Layered) (hends : Ends rest) :
    Rule.expression.Matches ss t.symbols [t.tree] rest :=
  (OpTrees.matched hscan hends (.cons t .nil) ⟨hlayered, trivial⟩).1

end JavaSource
