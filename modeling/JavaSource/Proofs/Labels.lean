import JavaSource.Proofs.Windows.Rules

/-!
# Labels in front of a colon and of an arrow

What a label is does not depend on whether a colon or an arrow follows it, with one exception.  In
front of an arrow, the last part of a conditional, a lambda, a cast or an assignment is read as a
lambda if it is a lone name or stands in parentheses (`endsInHead`): `a ? b : c ->` goes on with the
lambda `c -> …`.

* `switchLabel_takes_iff`: any other label is the same in front of either.
-/

namespace JavaSource.Grammar

theorem arrow_spelledBefore (next : Symbol) : TokenKind.arrow.symbol.SpelledBefore next :=
  ⟨⟨nofun, nofun, nofun⟩, rfl, nofun⟩

/-- **A label is the same in front of an arrow as in front of a colon**, unless it ends in what may
stand in front of the arrow of a lambda, where a lambda may be the last part. -/
theorem switchLabel_takes_iff {before label behind : List Symbol} {parts : List Tree}
    (hscan : Scanned (before ++ (label ++ TokenKind.colon.symbol :: behind)))
    (hends : endsInHead label = false) :
    Rule.switchLabel.Takes (.ofSymbols (before ++ (label ++ TokenKind.colon.symbol :: behind)))
        before.length parts (before.length + label.length) ↔
      Rule.switchLabel.Takes (.ofSymbols (before ++ (label ++ TokenKind.arrow.symbol :: behind)))
        before.length parts (before.length + label.length) := by
  have hspelled := scanned_iff.mp hscan
  rw [← List.append_assoc] at hspelled
  have hscan' : Scanned (before ++ (label ++ TokenKind.arrow.symbol :: behind)) := by
    rw [scanned_iff, ← List.append_assoc]
    exact hspelled.exchange nofun nofun arrow_spelledBefore
  let W : Window :=
    ⟨label, before, TokenKind.colon.symbol :: behind, before, TokenKind.arrow.symbol :: behind⟩
  have hmargin : W.margin 0 .switchLabel = 0 := by
    change (bif W.hasArrow && endsInHead label then 1 else 0) = 0
    rw [hends, Bool.and_false]
    rfl
  exact Window.takes_iff (W := W) hscan hscan' rfl rfl rfl hmargin

/-- `case A b when c` in front of a colon, and in front of an arrow. -/
theorem switchLabel_takes_guard : ∃ label : List Symbol, ∃ parts : List Tree,
    label.map Symbol.text = ["case", "A", "b", "when", "c"] ∧
    Scanned (label ++ [TokenKind.colon.symbol, .final]) ∧ endsInHead label = false ∧
    Rule.switchLabel.Takes (.ofSymbols (label ++ [TokenKind.colon.symbol, .final])) 0 parts 5 ∧
    Rule.switchLabel.Takes (.ofSymbols (label ++ [TokenKind.arrow.symbol, .final])) 0 parts 5 := by
  let label : List Symbol := [TokenKind.caseKw.symbol, ⟨.identifier, "A", false⟩,
    ⟨.identifier, "b", false⟩, ⟨.identifier, "when", false⟩, ⟨.identifier, "c", false⟩]
  have hscan : Scanned (label ++ [TokenKind.colon.symbol, .final]) := scanned_iff.mpr (by decide)
  have heval : (match Rule.switchLabel.runWithin
      (.ofSymbols (label ++ [TokenKind.colon.symbol, .final])) 9 ⟨0, 0, [], []⟩ with
    | .ok (.done () s) => s.read == 5
    | _                => false) = true := by decide +kernel
  split at heval
  · rename_i s hrun
    obtain ⟨j, depth, parts, memo⟩ := s
    obtain rfl : j = 5 := beq_iff_eq.mp heval
    have htakes := (Rule.takes_iff_runWithin hscan.whole (r := .switchLabel) (i := 0) trivial
      fun n hn => nomatch hn).mpr ⟨9, depth, memo, hrun⟩
    exact ⟨label, parts, by decide, hscan, rfl, htakes,
      (@switchLabel_takes_iff [] label [.final] parts hscan rfl).mp htakes⟩
  · cases heval

/-- `case a ? b : c` in front of a colon.  In front of an arrow it is not read to its end, as the
arrow is taken for that of a lambda. -/
theorem switchLabel_not_takes_conditional : ∃ label : List Symbol, ∃ parts : List Tree,
    label.map Symbol.text = ["case", "a", "?", "b", ":", "c"] ∧
    Scanned (label ++ [TokenKind.colon.symbol, .final]) ∧
    Rule.switchLabel.Takes (.ofSymbols (label ++ [TokenKind.colon.symbol, .final])) 0 parts 6 ∧
    ∀ parts' j, ¬ Rule.switchLabel.Takes
      (.ofSymbols (label ++ [TokenKind.arrow.symbol, .final])) 0 parts' j := by
  let label : List Symbol := [TokenKind.caseKw.symbol, ⟨.identifier, "a", false⟩,
    TokenKind.question.symbol, ⟨.identifier, "b", false⟩, TokenKind.colon.symbol,
    ⟨.identifier, "c", false⟩]
  have hscan : Scanned (label ++ [TokenKind.colon.symbol, .final]) := scanned_iff.mpr (by decide)
  have hscan' : Scanned (label ++ [TokenKind.arrow.symbol, .final]) := scanned_iff.mpr (by decide)
  have heval : (match Rule.switchLabel.runWithin
        (.ofSymbols (label ++ [TokenKind.colon.symbol, .final])) 9 ⟨0, 0, [], []⟩,
      Rule.switchLabel.runWithin
        (.ofSymbols (label ++ [TokenKind.arrow.symbol, .final])) 9 ⟨0, 0, [], []⟩ with
    | .ok (.done () s), .ok (.refused _ _ _) => s.read == 6
    | _,                _                    => false) = true := by decide +kernel
  split at heval
  · rename_i s place why memo' hrun hrefused
    obtain ⟨j, depth, parts, memo⟩ := s
    obtain rfl : j = 6 := beq_iff_eq.mp heval
    refine ⟨label, parts, by decide, hscan, (Rule.takes_iff_runWithin hscan.whole
      (r := .switchLabel) (i := 0) trivial fun n hn => nomatch hn).mpr ⟨9, depth, memo, hrun⟩, ?_⟩
    intro parts' j htakes
    obtain ⟨limit, depth', memo'', hdone⟩ := (Rule.takes_iff_runWithin hscan'.whole
      (r := .switchLabel) (i := 0) trivial fun n hn => nomatch hn).mp htakes
    cases Rule.runWithin_unique hdone hrefused
  · cases heval

end JavaSource.Grammar
