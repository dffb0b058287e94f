import JavaSource.Proofs.Balance
import JavaSource.Proofs.Layout.Members
import JavaSource.Proofs.Lexing.Breaks
import JavaSource.Proofs.Limit
import JavaSource.Proofs.Spelling
import JavaSource.Proofs.Taking

/-!
# What a text is parsed to

Unless the limit is met, a text is parsed to the tree that the rule of its mode takes from the
symbols of the text (`takes_of_parse`, `parse_of_takes`).  So what is shown of symbols holds of the
texts that lex to them.
-/

namespace JavaSource

open Grammar (Symbol Source Rule Outcome State LimitMet Scanned)

variable {mode : Mode} {limit : Nat} {source : String} {ss : List Symbol} {tree : Tree}

theorem Mode.expects_start (mode : Mode) (kind : TokenKind) : mode.start.Expects kind := by
  cases mode <;> trivial

theorem Mode.isFree_start (mode : Mode) : mode.start.isFree = true := by
  cases mode <;> rfl

theorem Grammar.Source.clear_zero (source : Source) : source.Clear 0 :=
  fun n hn => absurd hn (Nat.not_lt_zero n)

/-- The symbols of a text and the one behind them were scanned. -/
theorem Lexes.scanned {cs : List Char} (h : Lexes cs ss) : Scanned (ss ++ [Symbol.final]) := by
  have hsource : Lexes (String.ofList cs).toList ss := by rwa [String.toList_ofList]
  obtain ⟨ts, htokens, hunplaced⟩ := hsource.tokenize
  exact ⟨.ofTokenize htokens, hunplaced⟩

/-- What the rule of a mode takes is one tree. -/
theorem Mode.start_takes {parts : List Tree} {j : Nat} (hscan : Scanned ss)
    (h : mode.start.Takes (.ofSymbols ss) 0 parts j) : ∃ t, parts = [t] := by
  obtain ⟨new, rfl, hholds, -⟩ := hscan.takes h mode.isFree_start (Source.clear_zero _)
  rw [mode.start_shape] at hholds
  obtain ⟨t, rfl, -⟩ := hholds
  exact ⟨t.unplaced, rfl⟩

/-- Without places, a text is carried out as its symbols are. -/
theorem run_ofSymbols {ts : List Token}
    (hunplaced : (Source.ofTokens ts).unplaced = .ofSymbols (ss ++ [Symbol.final])) (r : Rule)
    (limit : Nat) : r.run (.ofSymbols (ss ++ [Symbol.final])) limit ⟨0, 0, [], []⟩ =
      (r.run (.ofTokens ts) limit ⟨0, 0, [], []⟩).unplaced := by
  have hcommutes : r.run (Source.ofTokens ts).unplaced limit ⟨0, 0, [], []⟩ =
      (r.run (.ofTokens ts) limit ⟨0, 0, [], []⟩).unplaced := r.run_unplaced ⟨0, 0, [], []⟩
  rwa [hunplaced] at hcommutes

/-- A text is parsed to the tree that is taken from its symbols. -/
theorem parseTree_of_takes {j : Nat} (hlexes : Lexes source.toList ss)
    (htakes : mode.start.Takes (.ofSymbols (ss ++ [Symbol.final])) 0 [tree] j)
    (hlimit : (parseTreeWithin mode limit source).isOk) :
    ∃ t, parseTree mode limit source = .ok t ∧ t.unplaced = tree := by
  obtain ⟨ts, htokens, hunplaced⟩ := hlexes.tokenize
  obtain ⟨enough, hlarge⟩ := (Rule.takes_iff_run hlexes.scanned.whole (mode.expects_start _)
    (Source.clear_zero _)).mp htakes
  obtain ⟨depth, memo, hrun⟩ := hlarge (max limit enough) (Nat.le_max_right ..)
  rw [run_ofSymbols hunplaced] at hrun
  have hparse : parseTree mode (max limit enough) source = _ := parseTree_of_tokenize htokens
  cases hactual : mode.start.run (.ofTokens ts) (max limit enough) ⟨0, 0, [], []⟩ with
  | refused place why memo' =>
    rw [hactual] at hrun
    cases hrun
  | done value s =>
    rw [hactual] at hrun hparse
    have hparts : s.parts.map Tree.unplaced = [tree] :=
      congrArg State.parts (Outcome.done.inj hrun).2
    obtain ⟨t, ht, htree⟩ := List.map_eq_singleton_iff.mp hparts
    rw [Outcome.verdict, ht] at hparse
    exact ⟨t, parseTree_of_isOk (Nat.le_max_left ..) hlimit hparse, htree⟩

/-- The tree that a text is parsed to is taken from its symbols. -/
theorem takes_of_parseTree (h : parseTree mode limit source = .ok tree)
    (hlimit : (parseTreeWithin mode limit source).isOk) : ∃ ss j, Lexes source.toList ss ∧
      mode.start.Takes (.ofSymbols (ss ++ [Symbol.final])) 0 [tree.unplaced] j := by
  cases htokens : tokenize source with
  | error fault =>
    simp only [parseTree, htokens] at h
    cases h
  | ok ts =>
    obtain ⟨ss, hlexes⟩ := exists_lexes htokens
    obtain ⟨ts', htokens', hunplaced⟩ := hlexes.tokenize
    obtain rfl : ts = ts' := Except.ok.inj (htokens.symm.trans htokens')
    simp only [parseTreeWithin, htokens] at hlimit
    rw [parseTree_of_tokenize htokens] at h
    cases hwithin : mode.start.runWithin (.ofTokens ts) limit ⟨0, 0, [], []⟩ with
    | error met =>
      rw [hwithin] at hlimit
      cases hlimit
    | ok o =>
      rw [Rule.run_of_runWithin (Nat.le_refl limit) _ _ hwithin] at h
      cases o with
      | refused place why memo => cases h
      | done value s =>
        have hlarge (larger : Nat) (hle : limit ≤ larger) := run_ofSymbols hunplaced mode.start larger
          |>.trans (congrArg Outcome.unplaced (Rule.run_of_runWithin hle _ _ hwithin))
        have htakes : mode.start.Takes (.ofSymbols (ss ++ [Symbol.final])) 0 (s.parts.map Tree.unplaced)
            s.read := (Rule.takes_iff_run hlexes.scanned.whole (mode.expects_start _)
          (Source.clear_zero _)).mpr ⟨limit, fun larger hle => ⟨_, _, hlarge larger hle⟩⟩
        obtain ⟨u, hparts⟩ := mode.start_takes hlexes.scanned htakes
        obtain ⟨t, ht, rfl⟩ := List.map_eq_singleton_iff.mp hparts
        rw [hparts] at htakes
        rw [Outcome.verdict, ht] at h
        cases h
        exact ⟨ss, s.read, hlexes, htakes⟩

/-- **What a text is parsed to is what the tree is read as that is taken from its symbols.** -/
theorem parse_of_takes {t : Tree} {n : AnyNode} {j : Nat} (hlexes : Lexes source.toList ss)
    (htakes : mode.start.Takes (.ofSymbols (ss ++ [Symbol.final])) 0 [t.unplaced] j)
    (hread : t.readWhole = .ok n) (hlimit : (parseTreeWithin mode limit source).isOk) :
    ∃ n', parse mode limit source = .ok n' ∧ n'.Alike n := by
  obtain ⟨tree, htree, hunplaced⟩ := parseTree_of_takes hlexes htakes hlimit
  have hagree := Tree.readWhole_agree hunplaced
  rw [hread] at hagree
  generalize hm : tree.readWhole = m at hagree
  cases hagree with
  | ok halike =>
    refine ⟨_, ?_, halike⟩
    rw [parse, htree]
    change tree.readWhole.mapError Failure.node = _
    rw [hm]
    rfl

end JavaSource
