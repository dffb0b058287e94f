import JavaSource.Proofs.Matching.Exchange
import JavaSource.Proofs.Wholes

/-!
# Expressions in parentheses

Parentheses around an expression change nothing.  The expression is read in front of the closing one
as it is at the end of a source (`Rule.Matches.of_takes`), and as nothing stands behind the
parentheses, they are neither those of a cast nor those of a lambda.

* `parse_enclosed`: a text is parsed to the same expression in any number of parentheses.
-/

namespace JavaSource.Grammar

variable {ss : List Symbol} {parts : List Tree}

/-- Symbols in parentheses. -/
def inParens (ss : List Symbol) : List Symbol :=
  TokenKind.lparen.symbol :: (ss ++ [TokenKind.rparen.symbol])

/-- Symbols in parentheses, at the end of a source. -/
def enclosedSource (ss : List Symbol) : List Symbol := inParens ss ++ [Symbol.final]

theorem enclosedSource_eq (ss : List Symbol) : enclosedSource ss =
    TokenKind.lparen.symbol :: (ss ++ [TokenKind.rparen.symbol, Symbol.final]) := by
  simp [enclosedSource, inParens]

/-- What is read of symbols in parentheses. -/
def parenthesized (parts : List Tree) : Tree :=
  Phrase.parenthesized.over (TokenKind.lparen.leaf :: (parts.reverse ++ [TokenKind.rparen.leaf]))

theorem length_inParens (ss : List Symbol) : (inParens ss).length = ss.length + 2 := by
  rw [inParens, List.length_cons, List.length_append, List.length_singleton]

/-- Nothing stands behind the parentheses. -/
theorem kindAhead_enclosed {n : Nat} (h : (inParens ss).length ≤ n) :
    kindAhead (enclosedSource ss) n = .eof := by
  rw [kindAhead, enclosedSource, List.getElem?_append_right h]
  cases n - (inParens ss).length <;> rfl

/-- Symbols in parentheses are as balanced as the symbols are. -/
theorem closing_enclosed {n : Nat} (hnested : parensBehind false 0 (ss.map Symbol.kind) = some 0)
    (h : Ahead.closing 0 (enclosedSource ss) = some n) : n = ss.length + 1 := by
  rw [enclosedSource_eq] at h
  obtain ⟨m, hm, rfl⟩ := Option.map_eq_some_iff.mp (show (Ahead.closing 1 _).map (· + 1) = _ from h)
  have hle := (Window.le_closing_iff (w := ss.length) hm).mpr ⟨0, by rwa [List.take_left]⟩
  have hgt : ¬ ss.length + 1 ≤ m := fun hgt => by
    obtain ⟨final, hfinal⟩ := (Window.le_closing_iff hm).mp hgt
    rw [List.take_length_add_append, List.map_append, parensBehind_append, hnested] at hfinal
    cases hfinal
  omega

/-- An expression at the end of a source is read in front of any stopper. -/
theorem expression_before {source rest : List Symbol} (hscan : Scanned (ss ++ [Symbol.final]))
    (hscan' : Scanned source) (hends : Ends rest)
    (h : Rule.expression.Takes (.ofSymbols (ss ++ [Symbol.final])) 0 parts ss.length) :
    Rule.expression.Matches source ss parts rest :=
  .of_takes_all hscan hscan' hends rfl rfl h

section

variable (hscan : Scanned (ss ++ [Symbol.final])) (hscan' : Scanned (enclosedSource ss))
  (htakes : Rule.expression.Takes (.ofSymbols (ss ++ [Symbol.final])) 0 parts ss.length)

include hscan htakes

theorem nested_of_expression : parensBehind false 0 (ss.map Symbol.kind) = some 0 :=
  Window.nested_of_takes (W := ⟨ss, [], [Symbol.final], [], [Symbol.final]⟩) hscan (List.cons_ne_nil _ _)
    (r := .expression) rfl (by simpa [Window.start, Window.size, Window.source, Window.symbols] using htakes)

include hscan'

theorem primary_enclosed :
    Rule.primary.Matches (enclosedSource ss) (inParens ss) [parenthesized parts] [Symbol.final] := by
  have hinner : Rule.expression.Matches (enclosedSource ss) ss parts
      [TokenKind.rparen.symbol, Symbol.final] :=
    expression_before hscan hscan' rfl htakes
  refine .of_production hscan' (List.cons_ne_nil _ _) fun i s he h => .ahead ?_
  rw [show inParens ss ++ [Symbol.final] = _ from enclosedSource_eq ss] at he h
  rw [h.kind_eq]
  exact h.take rfl fun h => h.read hinner (he.fewer h (by simp)) fun h => h.expect rfl rfl
    fun h => h.closeLast (by rw [List.reverse_cons, List.reverse_append]; rfl)

theorem postfixed_enclosed :
    Rule.postfixed.Matches (enclosedSource ss) (inParens ss) [parenthesized parts] [Symbol.final] := by
  refine .of_production hscan' (List.cons_ne_nil _ _) fun i s he h => ?_
  refine h.read (primary_enclosed hscan hscan' htakes) (he.same h (by simp) (by decide)) fun h => ?_
  refine .loopThen (.stop (.ahead ?_))
  rw [h.kind_eq]
  refine .pure ⟨rfl, .loop (.stop (.ahead ?_))⟩
  rw [h.isAt_eq, h.isAt_eq]
  exact .pure ⟨rfl, h⟩

/-- Only all of the symbols could be the type of a cast, in its parentheses. -/
theorem castHead_enclosed {parts' : List Tree} {j : Nat}
    (h : Rule.castHead.Takes (.ofSymbols (enclosedSource ss)) 0 parts' j) :
    j = (inParens ss).length := by
  have hnested := nested_of_expression hscan htakes
  have hclear := Source.clear_zero (.ofSymbols (enclosedSource ss))
  obtain ⟨s, -, hkind, rfl⟩ := Window.rparen_of_castHead hscan'.whole hclear h
  have hbalance := hscan'.nested h rfl hclear
  have hkind : kindAhead (enclosedSource ss) s.read = .rparen :=
    (kindAt_ofSymbols _ rfl 0).symm.trans hkind
  rw [length_inParens]
  rcases Nat.lt_or_ge ss.length s.read with hlt | hle
  · have hinside : s.read < (inParens ss).length := Nat.lt_of_not_le fun hle => by
      rw [kindAhead_enclosed hle] at hkind
      cases hkind
    rw [length_inParens] at hinside
    omega
  · -- The first parenthesis is not closed by then.
    obtain ⟨opened, hopened⟩ : ∃ n,
        parensBehind false 0 ((ss.take s.read).map Symbol.kind) = some n := by
      rw [← List.take_append_drop s.read ss, List.map_append, parensBehind_append] at hnested
      obtain ⟨n, hn, -⟩ := Option.bind_eq_some_iff.mp hnested
      exact ⟨n, hn⟩
    have hkinds : kindsBetween (enclosedSource ss) 0 (s.read + 1) =
        .lparen :: (ss.take s.read).map Symbol.kind := by
      rw [kindsBetween, enclosedSource_eq, List.take_succ_cons, List.drop_zero, List.map_cons,
        List.take_append_of_le_length hle]
      rfl
    rw [hkinds] at hbalance
    have hone := parensBehind_add hopened 1
    rw [Nat.zero_add] at hone
    cases hone.symm.trans hbalance

/-- Nothing is cast where nothing stands behind the parentheses. -/
theorem startsCast_enclosed {i : Nat} {s : Stand} {Q : Bool → Stand → Prop} (hQ : Q false s)
    (he : Entered (enclosedSource ss) (.unary, i) (enclosedSource ss))
    (h : Faces (enclosedSource ss) [] (enclosedSource ss) s) :
    Production.startsCast.Gets (.ofSymbols (enclosedSource ss)) (.unary, i) Q s := by
  have hs : s.read = 0 := by
    have hlength := congrArg List.length h.drop_eq
    rw [List.length_drop, enclosedSource, List.length_append, List.length_singleton] at hlength
    omega
  refine .ahead (.attempt (he.same h (by simp [enclosedSource]) (by decide)) fun width hfound => ?_)
  cases width with
  | none => exact .pure hQ
  | some width =>
    obtain ⟨parts', hfound⟩ := hfound
    rw [hs, Nat.zero_add] at hfound
    obtain rfl := castHead_enclosed hscan hscan' htakes hfound
    let b := ((Source.ofSymbols (enclosedSource ss)).view s).skip (inParens ss).length
    have hend : b.kind = .eof := by
      rw [Ahead.kind, kindAt_ofSymbols b rfl]
      exact kindAhead_enclosed (Nat.le_add_left ..)
    have hlambda : b.startsLambda = false := by
      unfold Ahead.startsLambda
      rw [hend]
    change (if _ then Pure.pure (Ahead.startsUnary b.kind)
      else Pure.pure (Ahead.startsUnsigned b.kind || b.startsLambda) : Move Bool).Gets ..
    rw [hend, hlambda]
    split
    · exact .pure hQ
    · exact .pure hQ

theorem unary_enclosed :
    Rule.unary.Matches (enclosedSource ss) (inParens ss) [parenthesized parts] [Symbol.final] := by
  refine .of_production hscan' (List.cons_ne_nil _ _) fun i s he h => .nest (.ahead ?_)
  rw [h.kind_eq]
  refine .bind (startsCast_enclosed hscan hscan' htakes ?_ he h)
  exact h.readLast (postfixed_enclosed hscan hscan' htakes) (he.same h (by simp) (by decide))

theorem binary_enclosed : (Rule.binary .conditionalOr).Matches (enclosedSource ss) (inParens ss)
    [parenthesized parts] [Symbol.final] := by
  refine .of_production hscan' (List.cons_ne_nil _ _) fun i s he h => ?_
  refine h.read (unary_enclosed hscan hscan' htakes) (he.same h (by simp) (by decide)) fun h => ?_
  refine .loop (.stop (.ahead ?_))
  unfold Ahead.operator
  rw [h.kind_eq]
  exact .pure ⟨rfl, h⟩

theorem ternary_enclosed :
    Rule.ternary.Matches (enclosedSource ss) (inParens ss) [parenthesized parts] [Symbol.final] := by
  refine .of_production hscan' (List.cons_ne_nil _ _) fun i s he h => ?_
  refine h.read (binary_enclosed hscan hscan' htakes) (he.same h (by simp) (by decide)) fun h => ?_
  exact h.eatNone rfl (.pure h)

/-- **An expression is read of symbols in parentheses if one is read of the symbols.** -/
theorem expression_enclosed :
    Rule.expression.Matches (enclosedSource ss) (inParens ss) [parenthesized parts] [Symbol.final] := by
  refine .of_production hscan' (List.cons_ne_nil _ _) fun i s he h => .nest (.ahead ?_)
  have hlambda : ((Source.ofSymbols (enclosedSource ss)).view s).startsLambda = false := by
    unfold Ahead.startsLambda
    rw [h.kind_eq]
    change Option.any _ _ = false
    rw [h.closingParen_eq]
    cases hclosing : Ahead.closing 0 (inParens ss ++ [Symbol.final]) with
    | none => rfl
    | some n =>
      obtain rfl := closing_enclosed (nested_of_expression hscan htakes) hclosing
      rw [Option.any_some, h.kindAt_eq]
      exact congrArg (· == .arrow) (kindAhead_enclosed (Nat.le_of_eq (length_inParens ss)))
  rw [hlambda]
  refine h.read (ternary_enclosed hscan hscan' htakes) (he.same h (by simp) (by decide)) fun h => ?_
  refine .ahead ?_
  rw [h.kind_eq]
  exact .pure h

end

end JavaSource.Grammar

namespace JavaSource

open Grammar

/-- A text in so many pairs of parentheses, each closed on a line of its own. -/
def enclosed (source : String) : Nat → String
  | 0     => source
  | n + 1 => "(" ++ enclosed source n ++ "\n)"

/-- What symbols in parentheses are read as. -/
theorem Tree.read_parenthesized_over {t : Tree} (ht : t.phrase?.isSome = true) :
    (parenthesized [t]).read .expr = t.read .expr := read_parenthesized ht

/-- A text in parentheses has the symbols of the text in parentheses. -/
theorem Lexes.inParens {cs : List Char} {ss : List Symbol} (h : Lexes cs ss) :
    Lexes ('(' :: (cs ++ ['\n', ')'])) (Grammar.inParens ss) := by
  have hclose : Lexes [')'] [TokenKind.rparen.symbol] := Lexes.nil.single rfl
  exact (h.append hclose).single rfl

theorem toList_enclosed (source : String) (n : Nat) : (enclosed source (n + 1)).toList =
    '(' :: ((enclosed source n).toList ++ ['\n', ')']) := by
  simp [enclosed]

/-- In parentheses, the same expression is read of a text. -/
theorem exists_enclosed {source : String} {ss : List Symbol} {t : Tree} (n : Nat)
    (hlexes : Lexes source.toList ss) (ht : t.phrase?.isSome = true)
    (htakes : Rule.expression.Takes (.ofSymbols (ss ++ [Symbol.final])) 0 [t.unplaced] ss.length) :
    ∃ ss' : List Symbol, ∃ t' : Tree, Lexes (enclosed source n).toList ss' ∧ t'.phrase?.isSome = true ∧
      t'.read .expr = t.read .expr ∧
      Rule.expression.Takes (.ofSymbols (ss' ++ [Symbol.final])) 0 [t'.unplaced] ss'.length := by
  induction n with
  | zero => exact ⟨ss, t, hlexes, ht, rfl, htakes⟩
  | succ n ih =>
    obtain ⟨ss', t', hlexes', ht', hread, htakes'⟩ := ih
    have hlexes : Lexes (enclosed source (n + 1)).toList (inParens ss') := by
      rw [toList_enclosed]
      exact hlexes'.inParens
    refine ⟨inParens ss', parenthesized [t'], hlexes, rfl,
      (Tree.read_parenthesized_over ht').trans hread, ?_⟩
    have hmatches := expression_enclosed hlexes'.scanned hlexes.scanned htakes' 0 rfl
    rw [Nat.zero_add] at hmatches
    exact hmatches

/-- **Parentheses around an expression change nothing**, however many there are. -/
theorem parse_enclosed {source : String} {limit limit' : Nat} {x : AnyNode}
    (hlimit : (parseTreeWithin .expr limit source).isOk) (h : parse .expr limit source = .ok x)
    (n : Nat) (hlimit' : (parseTreeWithin .expr limit' (enclosed source n)).isOk) :
    ∃ x', parse .expr limit' (enclosed source n) = .ok x' ∧ x'.Alike x := by
  obtain ⟨ss, t, v, hlexes, ht, htakes, hread, rfl⟩ := whole_expression.of_parse hlimit h
  obtain ⟨ss', t', hlexes', ht', hread', htakes'⟩ := exists_enclosed n hlexes ht htakes
  exact whole_expression.parse hlexes' htakes' ht' (hread'.trans hread) hlimit'

/-- In two pairs of parentheses. -/
theorem parse_enclosed_sum : ∃ x x' : AnyNode,
    (parseTreeWithin .expr 20 "a + b // c").isOk ∧ parse .expr 20 "a + b // c" = .ok x ∧
    (parseTreeWithin .expr 20 "((a + b // c\n)\n)").isOk ∧
    parse .expr 20 "((a + b // c\n)\n)" = .ok x' ∧ x'.Alike x := by
  have hlimit : (parseTreeWithin .expr 20 "a + b // c").isOk := by decide +kernel
  have hlimit' : (parseTreeWithin .expr 20 (enclosed "a + b // c" 2)).isOk := by decide +kernel
  cases h : parse .expr 20 "a + b // c" with
  | error e =>
    have hparse : (parse .expr 20 "a + b // c").isOk := by decide +kernel
    rw [h] at hparse
    cases hparse
  | ok x =>
    obtain ⟨x', hx', halike⟩ := parse_enclosed hlimit h 2 hlimit'
    exact ⟨x, x', hlimit, rfl, hlimit', hx', halike⟩

end JavaSource
