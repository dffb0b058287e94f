import JavaSource.Proofs.Parenthesized
import JavaSource.Proofs.Positions.Starts

/-!
# Expressions that head a statement

A statement is tested for several things before an expression is read.  An expression in front of a
semicolon is never taken for a label or for the declaration of a type; what is left are the tests of
`HeadsStatement`.

* `matches_expressionStatement`: an expression that passes them is read as a statement.
* `heads_of_expressionStatement`: no other one is.
-/

namespace JavaSource.Grammar

variable {ss rest : List Symbol} {parts ps : List Tree} {source : Source} {i j n : Nat}

/-! ### Modifiers -/

/-- One more annotation. -/
def annotationTurn : Move Bool := do
  if Ahead.startsAnnotation (← Move.ahead) then
    Move.read .annotationUse
    return true
  else return false

/-- One more modifier. -/
def modifierTurn : Move Bool := do
  let a ← Move.ahead
  if a.isAtModifierWord then
    Move.take
    return true
  else if a.startsAnnotation then
    Move.read .annotationUse
    return true
  else return false

/-- An annotation is no word. -/
theorem Ahead.isAtModifierWord_of_annotation {a : Ahead} (h : a.startsAnnotation = true) :
    a.isAtModifierWord = false := by
  have hkind : a.kind = .atSign := beq_iff_eq.mp ((Bool.and_eq_true ..).mp h).1
  have hword : a.isAtWord "sealed" = false :=
    (Bool.and_eq_false_iff ..).mpr (.inl (beq_eq_false_iff_ne.mpr fun heq => by
      rw [show (a.at_ 0).kind = .atSign from hkind] at heq
      cases heq))
  rw [isAtModifierWord, isSealed, hword, hkind]
  rfl

theorem not_isModifierWord_of_startsExpression {kind : TokenKind}
    (h : startsExpression kind = true) : Ahead.isModifierWord kind = false := by
  cases kind <;> first | rfl | cases h

/-- What is read as annotations is read as modifiers as well. -/
theorem Turns.modifiers {s s' : Stand} (hi : i < s.read)
    (h : Turns (annotationTurn.Leads source (.annotations, i + 1)) s s')
    (hend : (source.view s').isAtModifierWord = false) (ps : List Tree) :
    ∃ ps', Turns (modifierTurn.Leads source (.modifiers, i)) ⟨s.read, ps⟩ ⟨s'.read, ps'⟩ := by
  induction h generalizing ps with
  | @last s s' hturn =>
    have hturn : (if Ahead.startsAnnotation (source.view s) then _
        else Pure.pure false : Move Bool).Leads source (.annotations, i + 1) s false s' := hturn
    split at hturn
    · obtain ⟨_, _, -, heq, -⟩ := Move.leads_bind.mp hturn
      cases heq
    · rename_i hno
      obtain ⟨-, rfl⟩ := hturn
      refine ⟨ps, .last ?_⟩
      change (if (source.view s').isAtModifierWord then _
        else if Ahead.startsAnnotation (source.view s') then _
        else Pure.pure false : Move Bool).Leads source _ _ false _
      rw [if_neg (by rw [hend]; exact Bool.false_ne_true), if_neg hno]
      exact ⟨rfl, rfl⟩
  | @more s s₁ s' hturn forward _ ih =>
    have hturn : (if Ahead.startsAnnotation (source.view s) then _
        else Pure.pure false : Move Bool).Leads source (.annotations, i + 1) s true s₁ := hturn
    split at hturn
    · rename_i hstarts
      obtain ⟨_, _, ⟨parts, k, -, htakes, -, rfl⟩, -, rfl⟩ := Move.leads_bind.mp hturn
      obtain ⟨ps', hrest⟩ := ih (Nat.lt_trans hi forward) hend (parts ++ ps)
      have hmodifier :
        modifierTurn.Leads source (.modifiers, i) ⟨s.read, ps⟩ true ⟨k, parts ++ ps⟩ := ?_
      · exact ⟨ps', .more hmodifier forward hrest⟩
      change (if (source.view s).isAtModifierWord then _
        else if Ahead.startsAnnotation (source.view s)
        then Move.read .annotationUse >>= fun _ => Pure.pure true
        else _ : Move Bool).Leads source _ _ true _
      rw [if_neg (by rw [Ahead.isAtModifierWord_of_annotation hstarts]; exact Bool.false_ne_true),
        if_pos hstarts]
      exact Move.leads_bind.mpr ⟨(), _, ⟨parts, k, .inl hi, htakes, rfl, rfl⟩, rfl, rfl⟩
    · obtain ⟨heq, -⟩ := hturn
      cases heq

/-- Behind `sealed` annotations are modifiers. -/
theorem modifiers_of_annotations (hwhole : source.Whole) (hclear : source.Clear i)
    (hsealed : (source.view ⟨i, []⟩).isSealed = true) (hinside : (source.tokenAt i).kind ≠ .eof)
    (h : Rule.annotations.Takes source (i + 1) parts j)
    (hend : (source.view ⟨j, []⟩).isAtModifierWord = false) :
    ∃ parts', Rule.modifiers.Takes source i parts' j := by
  have hword : (source.view ⟨i, []⟩).isAtModifierWord = true := by
    rw [Ahead.isAtModifierWord, hsealed, Bool.or_true]
  obtain ⟨s₁, hturns, -, hs₁⟩ := (Rule.takes_iff hwhole (hclear.succ hinside)).mp h
  cases hs₁
  obtain ⟨ps', hturns⟩ := Turns.modifiers (Nat.lt_succ_self i) hturns hend
    [.leaf (source.tokenAt i)]
  let closed := Tree.ofParts .modifiers ps'.reverse (source.location j)
  refine ⟨[closed], (Rule.takes_iff hwhole hclear).mpr ?_⟩
  change (if (source.view ⟨i, []⟩).startsModifier then Move.loop modifierTurn >>= fun _ =>
    Move.close .modifiers else Pure.pure () : Move Unit).Leads ..
  rw [if_pos (by rw [Ahead.startsModifier, hword]; rfl)]
  refine Move.leads_bind.mpr ⟨(), ⟨j, ps'⟩, ⟨_, .more ?_ (Nat.lt_succ_self i) hturns, rfl, rfl⟩,
    rfl, rfl⟩
  change (if (source.view ⟨i, []⟩).isAtModifierWord then Move.take >>= fun _ => Pure.pure true
    else _ : Move Bool).Leads ..
  rw [if_pos hword]
  exact ⟨hinside, rfl, rfl⟩

/-! ### In front of a semicolon -/

/-- Some symbols and a semicolon, at the end of a source. -/
def stated (ss : List Symbol) : List Symbol := ss ++ [TokenKind.semi.symbol, Symbol.final]

/-- What the first tests of a statement let through: it is no `switch`, `yield` is a name there, and
no type stands there with a name behind it. -/
structure HeadsStatement (ss : List Symbol) : Prop where
  no_switch : kindAhead ss 0 ≠ .switchKw
  no_yield : ((Source.ofSymbols ss).view ⟨0, []⟩).startsYield = false
  no_variable : ∀ parts n, Rule.modifiedType.Takes (.ofSymbols ss) 0 parts n →
    kindAhead ss n ≠ .identifier

theorem noDims_of_ne (hscan : Scanned ss) (hne : rest ≠ []) (hat : kindAhead rest 0 ≠ .atSign)
    (hbrack : kindAhead rest 0 ≠ .lbrack) : NoDims ss rest := by
  refine ⟨hbrack, fun i parts width hi htakes => ?_⟩
  have hnone := matches_annotations hscan hne (beq_eq_false_iff_ne.mpr hat) i hi
  obtain rfl : width = 0 := Nat.add_left_cancel (htakes.unique hnone).2
  exact hbrack

theorem kind_tokenAt_ofSymbols (h : i < ss.length) :
    ((Source.ofSymbols ss).tokenAt i).kind = kindAhead ss i := by
  rw [kindAhead, List.getElem?_eq_getElem h]
  simp [Source.tokenAt, Source.ofSymbols, h, Symbol.token]

theorem Faces.eq_start {s : Stand} (h : Faces ss ps ss s) (hne : ss ≠ []) : s = ⟨0, ps⟩ := by
  have hlength := congrArg List.length h.drop_eq
  have hpos := List.length_pos_iff.mpr hne
  rw [List.length_drop] at hlength
  obtain ⟨read, parts⟩ := s
  obtain rfl : read = 0 := by
    dsimp only at hlength
    omega
  obtain rfl : parts = ps := h.parts_eq
  rfl

section

variable (hscan : Scanned (stated ss))
  (htakes : Rule.expression.Takes (.ofSymbols (stated ss)) 0 parts ss.length)

include hscan htakes

theorem length_pos_of_expression : 0 < ss.length :=
  htakes.lt hscan.whole (Source.clear_zero _) rfl

theorem startsExpression_stated : startsExpression (kindAhead (stated ss) 0) = true := by
  have hstarts := expression_starts hscan.whole 0 _ _ (Source.clear_zero _) htakes
  rwa [Ahead.kind, kindAt_ofSymbols _ rfl] at hstarts

/-- A name that the expression does not go on from is the whole of it. -/
theorem semi_of_name (hname : kindAhead (stated ss) 0 = .identifier)
    (hends : endsName (kindAhead (stated ss) 1) = true)
    (hdims : NoDims (stated ss) ((stated ss).drop 1)) : kindAhead (stated ss) 1 = .semi := by
  obtain ⟨x, rest, hrest⟩ : ∃ x rest, stated ss = x :: rest :=
    List.exists_cons_of_ne_nil (List.append_ne_nil_of_right_ne_nil _ (List.cons_ne_nil _ _))
  have hlength := congrArg List.length hrest
  have hpos := length_pos_of_expression hscan htakes
  simp only [stated, List.length_append, List.length_cons, List.length_nil] at hlength
  have hne : rest ≠ [] := List.ne_nil_of_length_pos (by omega)
  rw [hrest] at hname hends hdims
  have halone := name_expression hscan hne hname hends (hrest ▸ hdims) 0 hrest
  have hone : ss.length = 1 := (htakes.unique halone).2
  rw [kindAhead, stated, List.getElem?_append_right (Nat.le_of_eq hone), hone]
  rfl

/-- In front of some symbols a name is all of no expression. -/
theorem name_goesOn {kind : TokenKind} (hname : kindAhead (stated ss) 0 = .identifier)
    (hkind : kindAhead (stated ss) 1 = kind) (hends : endsName kind = true)
    (hne : kind ≠ .atSign ∧ kind ≠ .lbrack ∧ kind ≠ .semi) : False := by
  have hdims : NoDims (stated ss) ((stated ss).drop 1) := by
    have hone : kindAhead ((stated ss).drop 1) 0 = kind := by
      rw [kindAhead, List.getElem?_drop]
      exact hkind
    refine noDims_of_ne hscan (List.ne_nil_of_length_pos ?_) (hone ▸ hne.1) (hone ▸ hne.2.1)
    simp [stated]
  exact hne.2.2 (hkind ▸ semi_of_name hscan htakes hname (hkind ▸ hends) hdims)

/-- No type declaration starts there. -/
theorem startsTypeDeclaration_stated {s : Stand} (h : Faces (stated ss) ps (stated ss) s) :
    ((Source.ofSymbols (stated ss)).view s).startsTypeDeclaration = false := by
  have hstarts := startsExpression_stated hscan htakes
  unfold Ahead.startsTypeDeclaration
  rw [h.kind_eq]
  split
  case h_5 hname =>
    have hone : (kindAhead (stated ss) 1 == .identifier) = false :=
      beq_eq_false_iff_ne.mpr fun hone =>
        name_goesOn hscan htakes hname hone rfl (by decide)
    change Ahead.startsRecord _ = false
    rw [Ahead.startsRecord, h.kindAt_eq, hone, Bool.and_false, Bool.false_and]
  case h_6 => rfl
  all_goals
    rename_i hkind
    rw [hkind] at hstarts
    cases hstarts

/-- Only annotations may follow a name that is taken for a modifier. -/
theorem sealed_of_startsModifier
    (h : ((Source.ofSymbols (stated ss)).view ⟨0, []⟩).startsModifier = true) :
    ((Source.ofSymbols (stated ss)).view ⟨0, []⟩).isSealed = true ∧
      kindAhead (stated ss) 0 = .identifier ∧ kindAhead (stated ss) 1 = .atSign := by
  have hfaces : Faces (stated ss) [] (stated ss) ⟨0, []⟩ := ⟨rfl, rfl⟩
  have hstarts := startsExpression_stated hscan htakes
  have hword := not_isModifierWord_of_startsExpression hstarts
  have hat : kindAhead (stated ss) 0 ≠ .atSign := fun hat => by
    rw [hat] at hstarts
    cases hstarts
  have hmark : Ahead.startsAnnotation ((Source.ofSymbols (stated ss)).view ⟨0, []⟩) = false :=
    (Bool.and_eq_false_iff ..).mpr (.inl (by
      rw [hfaces.isAt_eq]
      exact beq_eq_false_iff_ne.mpr hat))
  rw [Ahead.startsModifier, Ahead.isAtModifierWord, hmark, hfaces.kind_eq, hword, Bool.or_false,
    Bool.false_or] at h
  obtain ⟨hsealed, hbehind⟩ := (Bool.and_eq_true ..).mp h
  have hname : kindAhead (stated ss) 0 = .identifier :=
    hfaces.kind_eq.symm.trans (beq_iff_eq.mp ((Bool.and_eq_true ..).mp hsealed).1)
  refine ⟨h, hname, Classical.byContradiction fun hne => ?_⟩
  have hone (word : String) : (((Source.ofSymbols (stated ss)).view ⟨0, []⟩).at_ 1).isWord word =
      false := by
    refine (Bool.and_eq_false_iff ..).mpr (.inl (beq_eq_false_iff_ne.mpr fun heq => ?_))
    exact name_goesOn hscan htakes hname ((hfaces.kindAt_eq 1).symm.trans heq) rfl (by decide)
  rw [hone, hone, Bool.or_false, Bool.or_false, hfaces.kindAt_eq] at hbehind
  have hends : endsName (kindAhead (stated ss) 1) = true ∧ kindAhead (stated ss) 1 ≠ .lbrack ∧
      kindAhead (stated ss) 1 ≠ .semi := by
    generalize kindAhead (stated ss) 1 = kind at hbehind
    cases kind <;> first | exact ⟨rfl, by decide, by decide⟩ | cases hbehind
  exact name_goesOn hscan htakes hname rfl hends.1 ⟨hne, hends.2⟩

/-- Behind modifiers there are brackets, those of a type. -/
theorem modifiers_stated {parts' : List Tree}
    (hmodifiers : Rule.modifiers.Takes (.ofSymbols (stated ss)) 0 parts' n)
    (hstarts : ((Source.ofSymbols (stated ss)).view ⟨0, []⟩).startsModifier = true) :
    kindAhead (stated ss) n = .lbrack := by
  obtain ⟨hsealed, hname, hat⟩ := sealed_of_startsModifier hscan htakes hstarts
  refine Classical.byContradiction fun hne => ?_
  have hdrop (k : Nat) : kindAhead ((stated ss).drop 1) k = kindAhead (stated ss) (1 + k) := by
    rw [kindAhead, List.getElem?_drop]
    rfl
  have hdims : NoDims (stated ss) ((stated ss).drop 1) := by
    refine ⟨by rw [hdrop, hat]; decide, fun i parts width hi hannotations hbrack => ?_⟩
    obtain rfl : i = 1 := by
      have hlength := congrArg List.length hi
      simp only [stated, List.length_drop, List.length_append, List.length_cons,
        List.length_nil] at hlength
      omega
    have hbrack : kindAhead (stated ss) (1 + width) = .lbrack := (hdrop width).symm.trans hbrack
    have hinside : ((Source.ofSymbols (stated ss)).tokenAt 0).kind ≠ .eof := by
      rw [kind_tokenAt_ofSymbols (by simp [stated]), hname]
      decide
    have hkind : ((Source.ofSymbols (stated ss)).view ⟨1 + width, []⟩).kind = .lbrack :=
      (kindAt_ofSymbols _ rfl 0).trans hbrack
    have hword : ((Source.ofSymbols (stated ss)).view ⟨1 + width, []⟩).isAtWord "sealed" = false :=
      (Bool.and_eq_false_iff ..).mpr (.inl (beq_eq_false_iff_ne.mpr fun heq => by
        rw [show (((Source.ofSymbols (stated ss)).view ⟨1 + width, []⟩).at_ 0).kind = _ from hkind]
          at heq
        cases heq))
    have hend : ((Source.ofSymbols (stated ss)).view ⟨1 + width, []⟩).isAtModifierWord = false := by
      rw [Ahead.isAtModifierWord, Ahead.isSealed, hword, hkind]
      rfl
    obtain ⟨parts'', hmodifiers'⟩ := modifiers_of_annotations hscan.whole (Source.clear_zero _)
      hsealed hinside hannotations hend
    obtain rfl : n = 1 + width := (hmodifiers.unique hmodifiers').2
    exact hne hbrack
  have hsemi := semi_of_name hscan htakes hname (by rw [hat]; rfl) hdims
  rw [hat] at hsemi
  cases hsemi

/-- No local type is declared there. -/
theorem startsLocalType_stated {α : Type} {f : Bool → Move α} {Q : α → Stand → Prop} {s : Stand}
    (he : Entered (stated ss) (.blockStatement, 0) (stated ss))
    (h : Faces (stated ss) [] (stated ss) s)
    (k : (f false).Gets (.ofSymbols (stated ss)) (.blockStatement, 0) Q s) :
    (Production.startsLocalType >>= f).Gets (.ofSymbols (stated ss)) (.blockStatement, 0) Q s := by
  have hne : stated ss ≠ [] := List.append_ne_nil_of_right_ne_nil _ (List.cons_ne_nil _ _)
  obtain rfl := h.eq_start hne
  refine .bind (.ahead ?_)
  rw [startsTypeDeclaration_stated hscan htakes h]
  cases hstarts : ((Source.ofSymbols (stated ss)).view ⟨0, []⟩).startsModifier with
  | false => exact .pure k
  | true =>
    refine .attempt (he.same h hne (by decide)) fun width hfinds => ?_
    cases width with
    | none => exact .pure k
    | some width =>
      obtain ⟨parts', hmodifiers⟩ := hfinds
      rw [Nat.zero_add] at hmodifiers
      have hkind := modifiers_stated hscan htakes hmodifiers hstarts
      have hskip :
          (((Source.ofSymbols (stated ss)).view ⟨0, []⟩).skip width).startsTypeDeclaration =
            false := by
        have hkind : (((Source.ofSymbols (stated ss)).view ⟨0, []⟩).skip width).kind = .lbrack :=
          (h.kindAt_eq width).trans hkind
        unfold Ahead.startsTypeDeclaration
        rw [hkind]
      rw [Option.any_some, hskip]
      exact .pure k

/-- Nor is a label there. -/
theorem label_stated (hname : kindAhead (stated ss) 0 = .identifier) :
    kindAhead (stated ss) 1 ≠ .colon := fun hcolon =>
  name_goesOn hscan htakes hname hcolon rfl (by decide)

theorem expression_stated : Rule.expression.Matches (stated ss) ss parts
    [TokenKind.semi.symbol, Symbol.final] := by
  have hscan₀ : Scanned ([] ++ (ss ++ [TokenKind.semi.symbol, Symbol.final])) := hscan
  refine .of_takes hscan₀ hscan rfl rfl rfl rfl ?_
  rw [List.length_nil, Nat.zero_add]
  exact htakes

/-- The phrase of an expression that is a statement. -/
def statedTree (parts : List Tree) : Tree :=
  Phrase.expressionStatement.over (parts.reverse ++ [TokenKind.semi.leaf])

theorem matches_statement (hheads : HeadsStatement (stated ss)) :
    Rule.statement.Matches (stated ss) (ss ++ [TokenKind.semi.symbol]) [statedTree parts]
      [Symbol.final] := by
  refine .of_production hscan (List.cons_ne_nil _ _) fun i s he h => .nest (.ahead ?_)
  have hassoc : ss ++ [TokenKind.semi.symbol] ++ [Symbol.final] =
      ss ++ [TokenKind.semi.symbol, Symbol.final] := List.append_assoc ..
  rw [hassoc] at he h
  have hne : stated ss ≠ [] := List.append_ne_nil_of_right_ne_nil _ (List.cons_ne_nil _ _)
  have h : Faces (stated ss) [] (stated ss) s := h
  obtain rfl := h.eq_start hne
  have hexpression : Production.expressionStatement.Gets (.ofSymbols (stated ss)) (.statement, i)
      (fun _ => Faces (stated ss) [statedTree parts] [Symbol.final]) ⟨0, []⟩ := by
    refine h.read (expression_stated hscan htakes) (he.same h hne (by decide)) fun h => ?_
    exact h.expect rfl rfl fun h => h.closeLast (by simp [TokenKind.leaf])
  have hstarts := startsExpression_stated hscan htakes
  rw [h.kind_eq, hheads.no_yield]
  split
  case h_15 =>
    split
    · exact absurd ‹_› Bool.false_ne_true
    · split
      · rename_i hlabel
        obtain ⟨hname, hcolon⟩ := (Bool.and_eq_true ..).mp hlabel
        rw [h.isAt_eq, beq_iff_eq] at hname
        rw [h.kindAt_eq, beq_iff_eq] at hcolon
        exact absurd hcolon (label_stated hscan htakes hname)
      · exact hexpression
  case h_5 => exact absurd ‹_› hheads.no_switch
  all_goals
    rename_i hkind
    rw [show kindAhead (stated ss) 0 = _ from hkind] at hstarts
    cases hstarts

/-- **An expression that passes the tests is read as a statement.** -/
theorem matches_expressionStatement (hheads : HeadsStatement (stated ss)) :
    Rule.blockStatement.Matches (stated ss) (ss ++ [TokenKind.semi.symbol]) [statedTree parts]
      [Symbol.final] := by
  refine .of_production hscan (List.cons_ne_nil _ _) fun i s he h => .ahead ?_
  have hne : stated ss ≠ [] := List.append_ne_nil_of_right_ne_nil _ (List.cons_ne_nil _ _)
  have hassoc : ss ++ [TokenKind.semi.symbol] ++ [Symbol.final] = stated ss := List.append_assoc ..
  have hstatement : (Move.read .statement).Gets (.ofSymbols (stated ss)) (.blockStatement, i)
      (fun _ => Faces (stated ss) [statedTree parts] [Symbol.final]) s :=
    h.readLast (matches_statement hscan htakes hheads) (by
      rw [hassoc] at he h
      exact he.same h hne (by decide))
  rw [hassoc] at he h
  obtain rfl := h.eq_start hne
  obtain rfl : i = 0 := by
    have hlength := congrArg List.length he
    have hpos := List.length_pos_iff.mpr hne
    rw [List.length_drop] at hlength
    omega
  have hsynchronized :
      ((Source.ofSymbols (stated ss)).view ⟨0, []⟩).isAt .synchronizedKw = false := by
    rw [h.isAt_eq]
    refine beq_eq_false_iff_ne.mpr fun hkind => ?_
    have hstarts := startsExpression_stated hscan htakes
    rw [hkind] at hstarts
    cases hstarts
  rw [hheads.no_yield, hsynchronized]
  refine startsLocalType_stated hscan htakes he h (.bind (.ahead (.bind (.ahead ?_))))
  split
  · refine @Move.Gets.attempt _ _ _ _ _ .modifiedType pure (he.same h hne (by decide))
      fun width hfinds => .pure (.pure ?_)
    have hno : (width.any fun width =>
        ((Source.ofSymbols (stated ss)).view ⟨0, []⟩).kindAt width == .identifier) = false := by
      cases width with
      | none => rfl
      | some width =>
        obtain ⟨parts', htype⟩ := hfinds
        rw [Nat.zero_add] at htype
        rw [Option.any_some, h.kindAt_eq]
        exact beq_eq_false_iff_ne.mpr (hheads.no_variable _ _ htype)
    rw [hno]
    exact hstatement
  · exact .pure (.pure hstatement)

end

/-! ### Behind `yield` -/

/-- The word `yield`. -/
def yieldWord : Symbol := ⟨.identifier, "yield", false⟩

/-- The phrase of an expression that is yielded. -/
def yieldedTree (parts : List Tree) : Tree :=
  Phrase.yieldStatement.over (.leaf yieldWord.token :: (parts.reverse ++ [TokenKind.semi.leaf]))

/-- In front of an expression that starts with no `++` and no `--`, `yield` is no name. -/
theorem startsYield_of_startsExpression {s : Stand} (h : Faces ss ps (yieldWord :: rest) s)
    (hstarts : startsExpression (kindAhead rest 0) = true) :
    ((Source.ofSymbols ss).view s).startsYield = true ↔
      kindAhead rest 0 ≠ .inc ∧ kindAhead rest 0 ≠ .dec := by
  have hword : ((Source.ofSymbols ss).view s).isAtWord "yield" = true := by
    change (((Source.ofSymbols ss).view s).at_ 0).isWord "yield" = true
    rw [h.at_eq]
    rfl
  have hone : kindAhead (yieldWord :: rest) 1 = kindAhead rest 0 := rfl
  rw [Ahead.startsYield, hword, h.kindAt_eq, hone]
  generalize kindAhead rest 0 = kind at hstarts
  cases kind <;> first | (cases hstarts; done) | decide

/-- **Such an expression is read behind `yield`.** -/
theorem matches_yieldStatement (hscan : Scanned (yieldWord :: stated ss))
    (hmatches : Rule.expression.Matches (yieldWord :: stated ss) ss parts
      [TokenKind.semi.symbol, Symbol.final])
    (hstarts : startsExpression (kindAhead (stated ss) 0) = true)
    (hno : kindAhead (stated ss) 0 ≠ .inc ∧ kindAhead (stated ss) 0 ≠ .dec) :
    Rule.blockStatement.Matches (yieldWord :: stated ss)
      (yieldWord :: (ss ++ [TokenKind.semi.symbol])) [yieldedTree parts] [Symbol.final] := by
  have hassoc : yieldWord :: (ss ++ [TokenKind.semi.symbol]) ++ [Symbol.final] =
      yieldWord :: stated ss := congrArg (yieldWord :: ·) (List.append_assoc ..)
  have hstatement : Rule.statement.Matches (yieldWord :: stated ss)
      (yieldWord :: (ss ++ [TokenKind.semi.symbol])) [yieldedTree parts] [Symbol.final] := by
    refine .of_production hscan (List.cons_ne_nil _ _) fun i s he h => .nest (.ahead ?_)
    rw [hassoc] at he h
    rw [h.kind_eq, (startsYield_of_startsExpression h hstarts).mpr hno]
    refine h.take rfl fun h => ?_
    refine h.read hmatches (he.fewer h (by simp [stated])) fun h => h.expect rfl rfl fun h => ?_
    exact h.closeLast (by simp [TokenKind.leaf])
  refine .of_production hscan (List.cons_ne_nil _ _) fun i s he h => .ahead ?_
  have hread := h.readLast hstatement (he.same h (by simp) (by decide))
  rw [hassoc] at h
  rw [(startsYield_of_startsExpression h hstarts).mpr hno]
  exact hread

/-! ### What is read as a statement of some kind -/

/-- Wherever moves lead, the last of their parts is a phrase of some kind. -/
def Move.Closes {α : Type} (kind : Phrase) (m : Move α) : Prop :=
  ∀ source e s a s', m.Leads source e s a s' → s'.parts.head?.bind Tree.phrase? = some kind

namespace Move.Closes

variable {α β : Type} {kind : Phrase}

theorem close (kind : Phrase) : (Move.close kind).Closes kind := fun _ _ _ _ _ h =>
  congrArg (fun s : Stand => s.parts.head?.bind Tree.phrase?) h.2

theorem bind {m : Move α} {f : α → Move β} (h : ∀ a, (f a).Closes kind) : (m >>= f).Closes kind :=
  fun source e _ b s' hleads => by
    obtain ⟨a, s₁, -, hf⟩ := leads_bind.mp hleads
    exact h a source e s₁ b s' hf

/-- So it is no other phrase. -/
theorem ne {m : Move α} {kind' : Phrase} (h : m.Closes kind) (hne : kind ≠ kind') {source : Source}
    {e : Entry} {s s' : Stand} {a : α} (hleads : m.Leads source e s a s')
    (hphrase : s'.parts.head?.bind Tree.phrase? = some kind') : False :=
  hne (Option.some.inj ((h _ _ _ _ _ hleads).symm.trans hphrase))

end Move.Closes

theorem stand_of_startsLocalType {e : Entry} {s s' : Stand} {a : Bool}
    (h : Production.startsLocalType.Leads source e s a s') : s' = s := by
  have h : (if (source.view s).startsTypeDeclaration then _ else if (source.view s).startsModifier
    then _ else _ : Move Bool).Leads source e s a s' := h
  split at h
  · exact h.2
  · split at h
    · obtain ⟨_, -, -, -, rfl⟩ := h
      rfl
    · exact h.2

/-- A variable starts where a name stands behind the type that is found. -/
theorem width_of_startsVariable {e : Entry} {s s' : Stand} {a : Bool}
    (h : Production.startsVariable.Leads source e s a s') :
    s' = s ∧ ((source.view s).mayStartType = true → ∃ width,
      Probe.modifiedType.Finds source s.read width ∧
        (width.any fun width => (source.view s).kindAt width == .identifier) = a) := by
  obtain ⟨width, s₁, hwidth, rfl, rfl⟩ := Move.leads_bind.mp (show (Production.modifiedTypeWidth >>=
    fun width => Pure.pure (width.any fun width => (source.view s).kindAt width == .identifier)).Leads
      source e s a s' from h)
  have hwidth : (if (source.view s).mayStartType then Move.attempt .modifiedType
    else Pure.pure none : Move (Option Nat)).Leads source e s width s' := hwidth
  split at hwidth
  · obtain ⟨_, -, hfinds, rfl, rfl⟩ := hwidth
    exact ⟨rfl, fun _ => ⟨_, hfinds, rfl⟩⟩
  · rename_i hno
    exact ⟨hwidth.2, fun hmay => absurd hmay hno⟩

section

variable (hwhole : source.Whole) (hclear : source.Clear i)
  (hstarts : startsExpression (source.view ⟨i, []⟩).kind = true)

include hwhole hclear

/-- No type and no name behind it start a statement, unless it is a declaration. -/
theorem takes_of_blockStatement {t : Tree} (h : Rule.blockStatement.Takes source i [t] j)
    (htype : t.phrase? ≠ some .localTypeDeclaration)
    (hvariable : t.phrase? ≠ some .localVariableDeclarationStatement) :
    Rule.statement.Takes source i [t] j ∧ ((source.view ⟨i, []⟩).startsYield = true ∨
      (source.view ⟨i, []⟩).kind = .synchronizedKw ∨
      ((source.view ⟨i, []⟩).mayStartType = true → ∀ parts n,
        Rule.modifiedType.Takes source i parts (i + n) →
          (source.view ⟨i, []⟩).kindAt n ≠ .identifier)) := by
  have hread {e : Entry} (h : (Move.read .statement).Leads source e ⟨i, []⟩ () ⟨j, [t]⟩) :
      Rule.statement.Takes source i [t] j := by
    obtain ⟨parts, k, -, htakes, -, hstand⟩ := h
    obtain ⟨rfl, hparts⟩ := Stand.mk.inj hstand
    rw [List.append_nil] at hparts
    exact hparts ▸ htakes
  have hends (kind : Phrase) (hkind : t.phrase? ≠ some kind) {e : Entry} {s : Stand} {m : Move Unit}
      (hcloses : m.Closes kind) (hleads : m.Leads source e s () ⟨j, [t]⟩) : False :=
    hkind (hcloses _ _ _ _ _ hleads)
  have hleads : (if (source.view ⟨i, []⟩).startsYield ||
      ((source.view ⟨i, []⟩).isAt .synchronizedKw && (source.view ⟨i, []⟩).kindAt 1 == .lparen) then
      Move.read .statement else _ : Move Unit).Leads source (.blockStatement, i) ⟨i, []⟩ () ⟨j, [t]⟩ :=
    (Rule.takes_iff hwhole hclear).mp h
  split at hleads
  · rename_i hword
    refine ⟨hread hleads, ?_⟩
    rcases (Bool.or_eq_true ..).mp hword with hyield | hword
    · exact .inl hyield
    · exact .inr (.inl (beq_iff_eq.mp ((Bool.and_eq_true ..).mp hword).1))
  · obtain ⟨isType, s, htypes, hleads⟩ := Move.leads_bind.mp hleads
    split at hleads
    · exact (hends _ htype (.bind fun _ => .close _) hleads).elim
    · obtain rfl := stand_of_startsLocalType htypes
      obtain ⟨isVariable, s, hvariables, hleads⟩ := Move.leads_bind.mp hleads
      obtain ⟨rfl, hnone⟩ := width_of_startsVariable hvariables
      split at hleads
      · exact (hends _ hvariable (.bind fun _ => .bind fun _ => .close _) hleads).elim
      · rename_i hno
        refine ⟨hread hleads, .inr (.inr fun hmay parts n htakes hname => hno ?_)⟩
        obtain ⟨width, hfinds, rfl⟩ := hnone hmay
        cases width with
        | none => exact (hfinds _ _ htakes).elim
        | some width =>
          obtain ⟨parts', htakes'⟩ := hfinds
          obtain rfl : n = width := Nat.add_left_cancel (htakes.unique htakes').2
          exact beq_iff_eq.mpr hname

include hstarts

/-- Where a type stands, one may start. -/
theorem mayStartType_of_modifiedType (h : Rule.modifiedType.Takes source i parts j) :
    (source.view ⟨i, []⟩).mayStartType = true := by
  have hat : (source.view ⟨i, []⟩).kind ≠ .atSign := fun hat => by
    rw [hat] at hstarts
    cases hstarts
  have hmark : Ahead.startsAnnotation (source.view ⟨i, []⟩) = false :=
    (Bool.and_eq_false_iff ..).mpr (.inl (beq_eq_false_iff_ne.mpr hat))
  have hname (hname : (source.view ⟨i, []⟩).kind = .identifier) :
      (source.view ⟨i, []⟩).mayStartType = true := by
    unfold Ahead.mayStartType
    rw [hname]
  obtain ⟨_, _, ⟨mods, k, -, hmodifiers, -, rfl⟩, htype⟩ :=
    Move.leads_bind.mp ((Rule.takes_iff hwhole hclear).mp h)
  have hmodifiers : (if (source.view ⟨i, []⟩).startsModifier then _
      else Pure.pure () : Move Unit).Leads source (.modifiers, i) ⟨i, []⟩ () ⟨k, mods⟩ :=
    (Rule.takes_iff hwhole hclear).mp hmodifiers
  split at hmodifiers
  · rename_i hmodifier
    rw [Ahead.startsModifier, hmark, Bool.or_false, Ahead.isAtModifierWord] at hmodifier
    rcases (Bool.or_eq_true ..).mp hmodifier with hword | hsealed
    · exact absurd hword (by rw [not_isModifierWord_of_startsExpression hstarts]; decide)
    · exact hname (beq_iff_eq.mp ((Bool.and_eq_true ..).mp ((Bool.and_eq_true ..).mp hsealed).1).1)
  · obtain ⟨hk, hmods⟩ := Stand.mk.inj hmodifiers.2
    subst k mods
    obtain ⟨parts', k', -, htakes, -, -⟩ := htype
    obtain ⟨_, _, ⟨-, rfl⟩, htakes⟩ := Move.leads_bind.mp ((Rule.takes_iff hwhole hclear).mp htakes)
    obtain ⟨_, _, ⟨anns, k'', -, hannotations, -, rfl⟩, htakes⟩ := Move.leads_bind.mp htakes
    have hturns : Turns (annotationTurn.Leads source (.annotations, i)) ⟨i, []⟩ ⟨k'', anns⟩ := by
      obtain ⟨s, hturns, -, rfl⟩ := (Rule.takes_iff hwhole hclear).mp hannotations
      exact hturns
    have hturn {more : Bool} {s : Stand}
        (h : annotationTurn.Leads source (.annotations, i) ⟨i, []⟩ more s) :
        more = false ∧ s = ⟨i, []⟩ := by
      have h : (if Ahead.startsAnnotation (source.view ⟨i, []⟩) then _
        else Pure.pure false : Move Bool).Leads source (.annotations, i) ⟨i, []⟩ more s := h
      rw [hmark] at h
      exact h
    cases hturns with
    | more h => cases (hturn h).1
    | last h =>
      obtain ⟨hk, hanns⟩ := Stand.mk.inj (hturn h).2
      subst k'' anns
      obtain ⟨_, _, hbase, -⟩ := Move.leads_bind.mp htakes
      have hbase : (if (source.view ⟨i, []⟩).kind.isPrimitiveType then _ else
        if (source.view ⟨i, []⟩).isAt .identifier then _ else Move.mismatch _ : Move Unit).Leads
        source _ ⟨i, []⟩ _ _ := hbase
      split at hbase
      · rename_i hprimitive
        unfold Ahead.mayStartType
        split <;> first | rfl | exact hprimitive
      · split at hbase
        · exact hname (beq_iff_eq.mp ‹_›)
        · exact hbase.elim

/-- What starts as an expression does is read as a statement of one of four kinds. -/
theorem statement_leads (h : Rule.statement.Takes source i parts j) :
    (source.view ⟨i, []⟩).kind = .switchKw ∧ parts.head?.bind Tree.phrase? = some .switchStatement ∨
    (source.view ⟨i, []⟩).kind ≠ .switchKw ∧
      (if (source.view ⟨i, []⟩).startsYield then Production.wordAndExpression .yieldStatement
      else if (source.view ⟨i, []⟩).isAt .identifier && (source.view ⟨i, []⟩).kindAt 1 == .colon then
        Move.takeTwo >>= fun _ => Move.read .statement >>= fun _ => Move.close .labeledStatement
      else Production.expressionStatement).Leads source (.statement, i) ⟨i, []⟩ () ⟨j, parts⟩ := by
  obtain ⟨_, _, ⟨-, rfl⟩, h⟩ := Move.leads_bind.mp ((Rule.takes_iff hwhole hclear).mp h)
  obtain ⟨_, _, ⟨rfl, rfl⟩, h⟩ := Move.leads_bind.mp h
  split at h
  case h_5 hkind =>
    have hcloses : (Move.take >>= fun _ => Production.condition >>= fun _ => Move.read .switchBlock
        >>= fun _ => Move.close .switchStatement).Closes .switchStatement :=
      .bind fun _ => .bind fun _ => .bind fun _ => .close _
    exact .inl ⟨hkind, hcloses _ _ _ _ _ h⟩
  case h_15 => exact .inr ⟨‹_›, h⟩
  all_goals
    rename_i hkind
    rw [hkind] at hstarts
    cases hstarts

/-- No statement of the two kinds is a declaration. -/
theorem statement_of_blockStatement {t : Tree} {kind : Phrase}
    (h : Rule.blockStatement.Takes source i [t] j) (ht : t.phrase? = some kind)
    (hkind : kind = .expressionStatement ∨ kind = .yieldStatement) :
    Rule.statement.Takes source i [t] j ∧ ((source.view ⟨i, []⟩).startsYield = true ∨
      ∀ parts n, Rule.modifiedType.Takes source i parts (i + n) →
        (source.view ⟨i, []⟩).kindAt n ≠ .identifier) := by
  have hne (kind' : Phrase) (hno : kind' ≠ .expressionStatement ∧ kind' ≠ .yieldStatement) :
      t.phrase? ≠ some kind' := fun heq => by
    obtain rfl := Option.some.inj (ht.symm.trans heq)
    exact hkind.elim hno.1 hno.2
  obtain ⟨hstatement, hyield | hword | hnone⟩ := takes_of_blockStatement hwhole hclear h
    (hne _ (by decide)) (hne _ (by decide))
  · exact ⟨hstatement, .inl hyield⟩
  · rw [hword] at hstarts
    cases hstarts
  · exact ⟨hstatement, .inr fun parts n htype =>
      hnone (mayStartType_of_modifiedType hwhole hclear hstarts htype) parts n htype⟩

/-- What is read as the statement of an expression passes the tests. -/
theorem heads_of_expressionStatement {t : Tree} (h : Rule.blockStatement.Takes source i [t] j)
    (ht : t.phrase? = some .expressionStatement) :
    (source.view ⟨i, []⟩).kind ≠ .switchKw ∧ (source.view ⟨i, []⟩).startsYield = false ∧
      (∀ parts n, Rule.modifiedType.Takes source i parts (i + n) →
        (source.view ⟨i, []⟩).kindAt n ≠ .identifier) ∧
      ∃ parts k, Rule.expression.Takes source i parts k ∧ (source.view ⟨k, []⟩).kind = .semi := by
  obtain ⟨hstatement, hvariable⟩ :=
    statement_of_blockStatement hwhole hclear hstarts h ht (.inl rfl)
  rcases statement_leads hwhole hclear hstarts hstatement with ⟨-, hswitch⟩ | ⟨hswitch, hleads⟩
  · cases ht.symm.trans hswitch
  split at hleads
  · have hcloses : (Production.wordAndExpression .yieldStatement).Closes .yieldStatement :=
      .bind fun _ => .bind fun _ => .bind fun _ => .close _
    exact (hcloses.ne (by decide) hleads ht).elim
  · rename_i hno
    refine ⟨hswitch, Bool.eq_false_iff.mpr hno, hvariable.resolve_left hno, ?_⟩
    split at hleads
    · have hcloses : (Move.takeTwo >>= fun _ => Move.read .statement >>= fun _ =>
          Move.close .labeledStatement).Closes .labeledStatement :=
        .bind fun _ => .bind fun _ => .close _
      exact (hcloses.ne (by decide) hleads ht).elim
    · obtain ⟨_, _, ⟨parts, k, -, htakes, -, rfl⟩, hrest⟩ := Move.leads_bind.mp hleads
      obtain ⟨_, _, hsemi, -⟩ := Move.leads_bind.mp hrest
      exact ⟨parts, k, htakes, hsemi.of_expect.1⟩

/-- What is read as a `yield` statement starts with that word, and an expression follows. -/
theorem yields_of_yieldStatement {t : Tree} (h : Rule.blockStatement.Takes source i [t] j)
    (ht : t.phrase? = some .yieldStatement) : (source.view ⟨i, []⟩).startsYield = true ∧
      ∃ parts k, Rule.expression.Takes source (i + 1) parts k ∧ (source.view ⟨k, []⟩).kind = .semi := by
  obtain ⟨hstatement, -⟩ := statement_of_blockStatement hwhole hclear hstarts h ht (.inr rfl)
  rcases statement_leads hwhole hclear hstarts hstatement with ⟨-, hswitch⟩ | ⟨-, hleads⟩
  · cases ht.symm.trans hswitch
  split at hleads
  · rename_i hyield
    refine ⟨hyield, ?_⟩
    obtain ⟨_, _, ⟨-, -, rfl⟩, hrest⟩ := Move.leads_bind.mp hleads
    obtain ⟨_, _, ⟨parts, k, -, htakes, -, rfl⟩, hrest⟩ := Move.leads_bind.mp hrest
    obtain ⟨_, _, hsemi, -⟩ := Move.leads_bind.mp hrest
    exact ⟨parts, k, htakes, hsemi.of_expect.1⟩
  · split at hleads
    · have hcloses : (Move.takeTwo >>= fun _ => Move.read .statement >>= fun _ =>
          Move.close .labeledStatement).Closes .labeledStatement :=
        .bind fun _ => .bind fun _ => .close _
      exact (hcloses.ne (by decide) hleads ht).elim
    · have hcloses : Production.expressionStatement.Closes .expressionStatement :=
        .bind fun _ => .bind fun _ => .close _
      exact (hcloses.ne (by decide) hleads ht).elim

end

end JavaSource.Grammar
