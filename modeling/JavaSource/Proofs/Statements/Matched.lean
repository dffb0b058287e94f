import JavaSource.Proofs.Operators.Matched
import JavaSource.Proofs.Statements.Tree
import JavaSource.Proofs.Types.Matched

/-!
# Statement trees in any source

A settled tree is read of its symbols in any source, wherever they stand, unless it is open and an
`else` stands behind them (`StmtTree.matches_symbols`): the grammar takes that `else` as soon as it
can.
-/

namespace JavaSource.Grammar

open Production

variable {ss rest : List Symbol} {parts : List Tree} {s : Stand} {e : Entry} {n : LegalName}
variable {α β : Type}

/-! ### Types that are a name -/

theorem matches_type (hscan : Scanned ss) (hne : rest ≠ []) (hrest : EndsType rest) :
    Rule.type.Matches ss [n.symbol] [n.typeTree] rest :=
  @TypeTree.matches_type ss rest false hscan hne hrest (.ofName n)

theorem matches_modifiedType (hscan : Scanned ss) (hne : rest ≠ []) (hrest : EndsType rest)
    (hn : IsNoModifier n rest) : Rule.modifiedType.Matches ss [n.symbol] [n.typeTree] rest :=
  .of_production hscan hne fun i s he h => by
    have hnone : Rule.modifiers.Matches ss [] [] (n.symbol :: rest) :=
      matches_modifiers hscan (List.cons_ne_nil _ _) (·.startsModifier_name hn)
    refine h.readNone hnone (he.same h (by simp) (by decide)) fun h => ?_
    exact h.readLast (matches_type hscan hne hrest)
      (he.same h (by simp) (by decide))

theorem matches_variableDeclaratorId (hscan : Scanned ss) (hne : rest ≠ []) (hrest : EndsType rest) :
    Rule.variableDeclaratorId.Matches ss [n.symbol] [n.variableTree] rest :=
  .of_production hscan hne fun i s he h => by
    refine h.expect rfl rfl fun h => ?_
    exact .bind ((h.noDims hrest).mono fun _ s' h => h.closeLast rfl)

/-! ### What a statement starts with -/

/-- The kinds of tokens that start a statement and no declaration. -/
def statementKinds : List TokenKind :=
  [.lbrace, .semi, .ifKw, .whileKw, .doKw, .forKw, .breakKw, .continueKw, .switchKw]

/-- What starts a statement and no declaration: one of these, or else a name in front of a colon or
a parenthesis. -/
def StartsStatement (rest : List Symbol) : Prop :=
  kindAhead rest 0 ∈ statementKinds ∨ ∃ n : LegalName, ∃ rest', rest = n.symbol :: rest' ∧
    kindAhead rest' 0 ∈ [TokenKind.colon, .lparen]

namespace StartsStatement

variable {Q : β → Stand → Prop} {f : Bool → Move β}

theorem ne_nil (h : StartsStatement rest) : rest ≠ [] := by
  rintro rfl
  rcases h with hkind | ⟨n, rest', hrest, -⟩
  · exact absurd hkind (by decide)
  · cases hrest

theorem startsModifier (h : StartsStatement rest) (hs : Faces ss parts rest s) :
    ((Source.ofSymbols ss).view s).startsModifier = false := by
  rcases h with hkind | ⟨n, rest', rfl, hbehind⟩
  · rw [← hs.kind_eq] at hkind
    have hword : (((Source.ofSymbols ss).view s).at_ 0).isWord "sealed" = false :=
      (Bool.and_eq_false_iff ..).mpr (.inl (test_of_mem hkind (· == .identifier) rfl))
    exact Ahead.startsModifier_of_kind ((Bool.and_eq_false_iff ..).mpr (.inl hword))
      (test_of_mem hkind (fun kind => Ahead.isModifierWord kind || kind == .atSign) rfl)
  · exact hs.startsModifier_name (.inr hbehind)

theorem startsTypeDeclaration (h : StartsStatement rest) (hs : Faces ss parts rest s) :
    ((Source.ofSymbols ss).view s).startsTypeDeclaration = false := by
  unfold Ahead.startsTypeDeclaration
  rw [hs.kind_eq]
  rcases h with hkind | ⟨n, rest', rfl, hbehind⟩
  · generalize kindAhead rest 0 = kind at hkind
    cases kind <;> first | rfl | exact absurd hkind (by decide)
  · have hrecord : (kindAhead (n.symbol :: rest') 1 == .identifier) = false :=
      test_of_mem hbehind (· == .identifier) rfl
    change Ahead.startsRecord _ = false
    rw [Ahead.startsRecord, hs.kindAt_eq, hrecord, Bool.and_false, Bool.false_and]

/-- A block goes on with it. -/
theorem isInBody (h : StartsStatement rest) (hs : Faces ss parts rest s) :
    Production.isInBody ((Source.ofSymbols ss).view s) = true := by
  rw [Production.isInBody, hs.isAt_eq, hs.isAt_eq]
  rcases h with hkind | ⟨n, rest', rfl, -⟩
  · have hno := test_of_mem hkind (fun kind => kind == .rbrace || kind == .eof) rfl
    obtain ⟨hbrace, heof⟩ := (Bool.or_eq_false_iff ..).mp hno
    rw [hbrace, heof]
    rfl
  · rfl

/-- No type is declared. -/
theorem startsLocalType (h : StartsStatement rest) (hs : Faces ss parts rest s)
    (k : (f false).Gets (.ofSymbols ss) e Q s) :
    (Production.startsLocalType >>= f).Gets (.ofSymbols ss) e Q s := by
  refine .bind (.ahead ?_)
  rw [h.startsTypeDeclaration hs, h.startsModifier hs]
  exact .pure k

/-- No variable is declared. -/
theorem startsVariable {r : Rule} {i : Nat} (h : StartsStatement rest) (hscan : Scanned ss)
    (he : Entered ss (r, i) rest) (hr : Probe.modifiedType.rule.rank < r.rank)
    (hs : Faces ss parts rest s) (k : (f false).Gets (.ofSymbols ss) (r, i) Q s) :
    (Production.startsVariable >>= f).Gets (.ofSymbols ss) (r, i) Q s := by
  refine .bind (.ahead (.bind (.ahead ?_)))
  unfold Ahead.mayStartType
  rw [hs.kind_eq]
  rcases h with hkind | ⟨n, rest', rfl, hbehind⟩
  · have hno : (kindAhead rest 0).isPrimitiveType = false := test_of_mem hkind _ rfl
    generalize kindAhead rest 0 = kind at hkind hno
    cases kind <;> first | exact .pure (.pure k) | exact absurd hkind (by decide)
  · have hne : rest' ≠ [] := by
      rintro rfl
      exact absurd hbehind (by decide)
    have hends : EndsType rest' :=
      test_of_mem hbehind (fun kind => [TokenKind.lt, .dot, .lbrack, .atSign].contains kind) rfl
    have htype : Probe.modifiedType.rule.Matches ss [n.symbol] [n.typeTree] rest' :=
      matches_modifiedType hscan hne hends (.inr hbehind)
    refine hs.attempt htype (he.same hs (List.cons_ne_nil _ _) hr) (.pure ?_)
    have hkind : (kindAhead (n.symbol :: rest') 1 == .identifier) = false :=
      test_of_mem hbehind (· == .identifier) rfl
    rw [Option.any_some, hs.kindAt_eq]
    exact hkind ▸ .pure k

end StartsStatement

/-- **What is read as a statement is read as a statement of a block**, if it starts like one. -/
theorem matches_blockStatement {front : List Symbol} {ps : List Tree} (hscan : Scanned ss)
    (hne : rest ≠ []) (hstarts : StartsStatement (front ++ rest))
    (h : Rule.statement.Matches ss front ps rest) :
    Rule.blockStatement.Matches ss front ps rest :=
  .of_production hscan hne fun i s he hs => by
    have hread : (Move.read .statement).Gets (.ofSymbols ss) (.blockStatement, i)
        (fun _ => Faces ss ps rest) s := by
      have hlast := hs.readLast h (he.same hs hstarts.ne_nil (by decide))
      rwa [List.append_nil] at hlast
    refine .ahead ?_
    split
    · exact hread
    · exact hstarts.startsLocalType hs (hstarts.startsVariable hscan he (by decide) hs hread)

end JavaSource.Grammar

namespace JavaSource

open Grammar (Symbol Rule Scanned Ends Faces Entered Entry Stand Move Source kindAhead
  StartsStatement EndsType)

variable {ss rest : List Symbol}

/-- What a statement starts with. -/
theorem StmtTree.starts (s : StmtTree) (rest : List Symbol) : StartsStatement (s.symbols ++ rest) := by
  cases s with
  | labeled label body => exact .inr ⟨label, _, rfl, .head _⟩
  | call func _ args => exact .inr ⟨func, _, rfl, .tail _ (.head _)⟩
  | jump kind label =>
    cases kind
    · exact .inl (List.contains_iff_mem.mp rfl)
    · exact .inl (List.contains_iff_mem.mp rfl)
  | _ => exact .inl (List.contains_iff_mem.mp rfl)

theorem Grammar.StartsStatement.ne_else (h : StartsStatement rest) :
    (kindAhead rest 0 == .elseKw) = false := by
  rcases h with hkind | ⟨n, rest', rfl, -⟩
  · exact Grammar.test_of_mem hkind (· == .elseKw) rfl
  · rfl

/-- The parentheses of a statement and the expression in them. -/
theorem Grammar.Faces.condition {total : List Symbol} {e : Entry} {parts : List Tree} {s : Stand}
    {β : Type} {f : Unit → Move β} {Q : β → Stand → Prop} (hscan : Scanned ss)
    (he : Entered ss e total) (t : OpTree) (h : Faces ss parts (t.condition ++ rest) s)
    (hlt : (t.condition ++ rest).length ≤ total.length)
    (k : ∀ {s'}, Faces ss (t.conditionParts.reverse ++ parts) rest s' →
      (f ()).Gets (.ofSymbols ss) e Q s') :
    (Production.condition >>= f).Gets (.ofSymbols ss) e Q s := by
  have hassoc : t.condition ++ rest =
      TokenKind.lparen.symbol :: (t.grouped.symbols ++ (TokenKind.rparen.symbol :: rest)) := by
    simp [OpTree.condition]
  rw [hassoc] at h hlt
  have htest : Rule.expression.Matches ss t.grouped.symbols [t.grouped.tree]
      (TokenKind.rparen.symbol :: rest) := OpTree.matches_symbols hscan t.layered_grouped rfl
  refine .bind (h.expect rfl rfl fun h => ?_)
  rw [List.length_cons] at hlt
  refine h.read htest (he.fewer h hlt) fun h => ?_
  exact (h.expectLast rfl rfl).mono fun _ s' h => k h

namespace StmtTree

variable {test : OpTree} {body orelse : StmtTree}

theorem matches_empty (hscan : Scanned ss) (hne : rest ≠ []) :
    Rule.statement.Matches ss empty.symbols [empty.tree] rest :=
  .of_production hscan hne fun i s he h => by
    have h : Faces ss [] (TokenKind.semi.symbol :: rest) s := h
    refine .nest (.ahead ?_)
    rw [h.kind_eq]
    exact h.take rfl fun h => h.closeLast rfl

theorem matches_ifThen (hscan : Scanned ss) (hne : rest ≠ [])
    (helse : (kindAhead rest 0 == .elseKw) = false)
    (hbody : Rule.statement.Matches ss body.symbols [body.tree] rest) :
    Rule.statement.Matches ss (ifThen test body).symbols [(ifThen test body).tree] rest :=
  .of_production hscan hne fun i s he h => by
    have hassoc : (ifThen test body).symbols ++ rest =
        TokenKind.ifKw.symbol :: (test.condition ++ (body.symbols ++ rest)) := by simp [symbols]
    rw [hassoc] at he h
    refine .nest (.ahead ?_)
    rw [h.kind_eq]
    refine h.take rfl fun h => h.condition hscan he test (by simp) fun h => ?_
    refine h.read hbody (he.fewer h (by grind)) fun h => ?_
    exact .bind (h.eatNone helse (.pure (h.closeLast (by simp [TokenKind.leaf]))))

theorem matches_ifElse (hscan : Scanned ss) (hne : rest ≠ [])
    (hbody : Rule.statement.Matches ss body.symbols [body.tree]
      (TokenKind.elseKw.symbol :: (orelse.symbols ++ rest)))
    (horelse : Rule.statement.Matches ss orelse.symbols [orelse.tree] rest) :
    Rule.statement.Matches ss (ifElse test body orelse).symbols [(ifElse test body orelse).tree]
      rest :=
  .of_production hscan hne fun i s he h => by
    have hassoc : (ifElse test body orelse).symbols ++ rest = TokenKind.ifKw.symbol ::
        (test.condition ++ (body.symbols ++ (TokenKind.elseKw.symbol ::
          (orelse.symbols ++ rest)))) := by simp [symbols]
    rw [hassoc] at he h
    refine .nest (.ahead ?_)
    rw [h.kind_eq]
    refine h.take rfl fun h => h.condition hscan he test (by simp) fun h => ?_
    refine h.read hbody (he.fewer h (by grind)) fun h => ?_
    refine .bind (h.eat rfl rfl fun h => ?_)
    refine (h.readLast horelse (he.fewer h (by grind))).mono fun _ _ h => ?_
    exact h.closeLast (by simp [TokenKind.leaf, OpTree.conditionParts])

theorem matches_whileLoop (hscan : Scanned ss) (hne : rest ≠ [])
    (hbody : Rule.statement.Matches ss body.symbols [body.tree] rest) :
    Rule.statement.Matches ss (whileLoop test body).symbols [(whileLoop test body).tree] rest :=
  .of_production hscan hne fun i s he h => by
    have hassoc : (whileLoop test body).symbols ++ rest =
        TokenKind.whileKw.symbol :: (test.condition ++ (body.symbols ++ rest)) := by simp [symbols]
    rw [hassoc] at he h
    refine .nest (.ahead ?_)
    rw [h.kind_eq]
    refine h.take rfl fun h => h.condition hscan he test (by simp) fun h => ?_
    refine h.read hbody (he.fewer h (by grind)) fun h => ?_
    exact h.closeLast (by simp [TokenKind.leaf])

theorem matches_doWhile (hscan : Scanned ss) (hne : rest ≠ [])
    (hbody : Rule.statement.Matches ss body.symbols [body.tree] (TokenKind.whileKw.symbol ::
      (test.condition ++ (TokenKind.semi.symbol :: rest)))) :
    Rule.statement.Matches ss (doWhile body test).symbols [(doWhile body test).tree] rest :=
  .of_production hscan hne fun i s he h => by
    have hassoc : (doWhile body test).symbols ++ rest = TokenKind.doKw.symbol :: (body.symbols ++
        (TokenKind.whileKw.symbol :: (test.condition ++ (TokenKind.semi.symbol :: rest)))) := by
      simp [symbols]
    rw [hassoc] at he h
    refine .nest (.ahead ?_)
    rw [h.kind_eq]
    refine h.take rfl fun h => h.read hbody (he.fewer h (by simp)) fun h => ?_
    refine h.expect rfl rfl fun h => h.condition hscan he test (by grind) fun h => ?_
    refine h.expect rfl rfl fun h => ?_
    exact h.closeLast (by simp [TokenKind.leaf])

theorem matches_labeled {label : LegalName} (hscan : Scanned ss) (hne : rest ≠ [])
    (hbody : Rule.statement.Matches ss body.symbols [body.tree] rest) :
    Rule.statement.Matches ss (labeled label body).symbols [(labeled label body).tree] rest :=
  .of_production hscan hne fun i s he h => by
    have h : Faces ss [] (label.symbol :: TokenKind.colon.symbol :: (body.symbols ++ rest)) s := h
    refine .nest (.ahead ?_)
    have hyield : ((Source.ofSymbols ss).view s).startsYield = false := by
      refine (Bool.and_eq_false_iff ..).mpr (.inr ?_)
      rw [h.kindAt_eq]
      rfl
    rw [h.kind_eq, hyield, h.isAt_eq, h.kindAt_eq]
    refine .bind (h.take rfl fun h => (h.takeLast rfl).mono fun _ _ h => ?_)
    refine h.read hbody (he.fewer h (by grind [symbols])) fun h => h.closeLast rfl

theorem matches_jump {kind : Jump} {label : Option LegalName} (hscan : Scanned ss) (hne : rest ≠ []) :
    Rule.statement.Matches ss (jump kind label).symbols [(jump kind label).tree] rest :=
  .of_production hscan hne fun i s he h => by
    have hassoc : (jump kind label).symbols ++ rest = kind.kind.symbol ::
        (label.toList.map LegalName.symbol ++ (TokenKind.semi.symbol :: rest)) := by simp [symbols]
    rw [hassoc] at h
    have hjump : (Grammar.Production.jump kind.phrase).Gets (.ofSymbols ss) (.statement, i)
        (fun _ => Faces ss [(jump kind label).tree] rest) s := by
      refine h.take (by cases kind <;> rfl) fun h => ?_
      cases label with
      | none => exact h.eatNone rfl (h.expect rfl rfl fun h => h.closeLast rfl)
      | some n => exact h.eat rfl rfl fun h => h.expect rfl rfl fun h => h.closeLast rfl
    refine .nest (.ahead ?_)
    rw [h.kind_eq]
    cases kind
    · exact hjump
    · exact hjump

theorem matches_call {func : LegalName} {plain : func.IsPlain} {args : OpTrees} (hscan : Scanned ss)
    (hne : rest ≠ []) :
    Rule.statement.Matches ss (call func plain args).symbols [(call func plain args).tree] rest :=
  .of_production hscan hne fun i s he h => by
    have hassoc : (call func plain args).symbols ++ rest =
        (OpTree.head (.call func args)).grouped.symbols ++ (TokenKind.semi.symbol :: rest) := by
      simp [symbols, OpTree.grouped, OpTree.symbols, OpHead.grouped]
    rw [hassoc] at he h
    have hcall : Rule.expression.Matches ss (OpTree.head (.call func args)).grouped.symbols
        [(OpTree.head (.call func args)).grouped.tree] (TokenKind.semi.symbol :: rest) :=
      OpTree.matches_symbols hscan (OpTree.layered_grouped _) rfl
    have hyield : ((Source.ofSymbols ss).view s).startsYield = false := by
      refine (Bool.and_eq_false_iff ..).mpr (.inl ?_)
      change (((Source.ofSymbols ss).view s).at_ 0).isWord "yield" = false
      rw [h.at_eq]
      exact beq_eq_false_iff_ne.mpr (plain.ne (by decide))
    refine .nest (.ahead ?_)
    rw [h.kind_eq, hyield, h.isAt_eq, h.kindAt_eq]
    refine h.read hcall (he.same h (by simp) (by decide)) fun h => ?_
    exact h.expect rfl rfl fun h => h.closeLast rfl

theorem length_symbols_pos (s : StmtTree) : 0 < s.symbols.length := by
  have hne := (s.starts []).ne_nil
  rw [List.append_nil] at hne
  exact List.length_pos_iff.mpr hne

/-! ### Blocks -/

end StmtTree

namespace StmtTrees

/-- Each statement is read in front of those behind it. -/
def Matched (ss rest : List Symbol) : StmtTrees → Prop
  | .nil               => True
  | .cons first others => Rule.statement.Matches ss first.symbols [first.tree]
      (others.symbols ++ rest) ∧ others.Matched ss rest

/-- The loop reads them all, if it goes on where a statement starts and stops behind them. -/
theorem cycles {total : List Symbol} {e : Entry} {Q : Stand → Prop} {goesOn : Grammar.Ahead → Bool}
    (hscan : Scanned ss) (hne : rest ≠ []) (he : Entered ss e total)
    (hgo : ∀ {parts rest' s}, StartsStatement rest' → Faces ss parts rest' s →
      goesOn ((Source.ofSymbols ss).view s) = true)
    (hstop : ∀ {parts s}, Faces ss parts rest s → goesOn ((Source.ofSymbols ss).view s) = false) :
    (body : StmtTrees) → body.Matched ss rest → {parts : List Tree} → {s : Stand} →
    Faces ss parts (body.symbols ++ rest) s → (body.symbols ++ rest).length < total.length →
    (∀ {s'}, Faces ss (body.trees.reverse ++ parts) rest s' → Q s') →
    (do if goesOn (← Move.ahead) then
          Move.read .blockStatement
          return true
        else return false).Cycles (.ofSymbols ss) e Q s
  | .nil, _, parts, s, h, _, k => by
    have h : Faces ss parts rest s := h
    refine .stop (.ahead ?_)
    rw [hstop h]
    exact .pure ⟨rfl, k h⟩
  | .cons first others, hmatched, parts, s, h, hlt, k => by
    have hassoc : (cons first others).symbols ++ rest =
        first.symbols ++ (others.symbols ++ rest) := List.append_assoc ..
    have hpos := first.length_symbols_pos
    have hstarts := first.starts (others.symbols ++ rest)
    rw [hassoc] at h hlt
    simp only [List.length_append] at hlt
    refine .go (.ahead ?_)
    rw [hgo hstarts h]
    have hfirst := Grammar.matches_blockStatement hscan (List.append_ne_nil_of_right_ne_nil _ hne)
      hstarts hmatched.1
    refine h.read hfirst (he.fewer h (by simpa using hlt)) fun h' => .pure ⟨rfl, ?_, ?_⟩
    · exact h.read_lt_read h' (by grind)
    · refine cycles hscan hne he hgo hstop others hmatched.2 h' (by grind) fun h => k ?_
      simpa [trees] using h

/-- Statements in braces. -/
theorem matches_block {body : StmtTrees} (hscan : Scanned ss) (hne : rest ≠ [])
    (hbody : body.Matched ss (TokenKind.rbrace.symbol :: rest)) :
    Rule.block.Matches ss (StmtTree.block body).symbols [(StmtTree.block body).tree] rest :=
  .of_production hscan hne fun i s he h => by
    have hassoc : (StmtTree.block body).symbols ++ rest =
        TokenKind.lbrace.symbol :: (body.symbols ++ (TokenKind.rbrace.symbol :: rest)) := by
      simp [StmtTree.symbols]
    rw [hassoc] at he h
    refine h.expect rfl rfl fun h => .loopThen ?_
    refine body.cycles hscan (List.cons_ne_nil _ _) he (fun hstarts h => hstarts.isInBody h)
      (fun h => by rw [Grammar.Production.isInBody, h.isAt_eq]; rfl) hbody h (by simp) fun h => ?_
    exact h.expect rfl rfl fun h => h.closeLast (by simp [TokenKind.leaf])

end StmtTrees

namespace StmtTree

variable {test : OpTree} {body : StmtTree}

theorem matches_block {body : StmtTrees} (hscan : Scanned ss) (hne : rest ≠ [])
    (hbody : body.Matched ss (TokenKind.rbrace.symbol :: rest)) :
    Rule.statement.Matches ss (block body).symbols [(block body).tree] rest := by
  refine .of_production hscan hne fun i s he h => .nest (.ahead ?_)
  have hkind : ((Source.ofSymbols ss).view s).kind = .lbrace := by
    rw [h.kind_eq]
    rfl
  rw [hkind]
  have hlast := h.readLast (StmtTrees.matches_block hscan hne hbody)
    (he.same h (by simp [symbols]) (by decide))
  rwa [List.append_nil] at hlast

end StmtTree

/-! ### Loops with a head -/

section

variable {total : List Symbol} {e : Entry} {parts : List Tree} {s : Stand} {β : Type}
variable {f : Unit → Move β} {Q : β → Stand → Prop}

theorem OpTree.isAt_symbols (t : OpTree) (rest : List Symbol) {kind : TokenKind}
    (hkind : Grammar.Ahead.startsUnary kind = false) :
    (kindAhead (t.symbols ++ rest) 0 == kind) = false :=
  beq_eq_false_iff_ne.mpr fun heq => by
    have hstarts := t.startsUnary rest
    rw [heq, hkind] at hstarts
    cases hstarts

/-- The test of a loop, or none. -/
theorem Grammar.Faces.test (test : Option OpTree) (hscan : Scanned ss) (he : Entered ss e total)
    (h : Faces ss parts (test.elim [] (·.grouped.symbols) ++ (TokenKind.semi.symbol :: rest)) s)
    (hlt : (test.elim [] (·.grouped.symbols) ++ (TokenKind.semi.symbol :: rest)).length <
      total.length)
    (k : ∀ {s'}, Faces ss (test.toList.map (·.grouped.tree) ++ parts)
      (TokenKind.semi.symbol :: rest) s' → (f ()).Gets (.ofSymbols ss) e Q s') :
    (Move.provided (!·.isAt .semi) (Move.read .expression) >>= f).Gets (.ofSymbols ss) e Q s := by
  cases test with
  | none =>
    have h : Faces ss parts (TokenKind.semi.symbol :: rest) s := h
    exact .notProvided (by rw [h.isAt_eq]; rfl) (k h)
  | some t =>
    have htest : Rule.expression.Matches ss t.grouped.symbols [t.grouped.tree]
        (TokenKind.semi.symbol :: rest) := OpTree.matches_symbols hscan t.layered_grouped rfl
    have h : Faces ss parts (t.grouped.symbols ++ (TokenKind.semi.symbol :: rest)) s := h
    refine .provided (by rw [h.isAt_eq, t.grouped.isAt_symbols _ rfl]; rfl) ?_
    exact (h.readLast htest (he.fewer h hlt)).mono fun _ _ h => k h

/-- The update of a loop, or none. -/
theorem Grammar.Faces.update (update : OpTrees) (hscan : Scanned ss) (he : Entered ss e total)
    (h : Faces ss parts (update.grouped.symbols [] ++ (TokenKind.rparen.symbol :: rest)) s)
    (hlt : (update.grouped.symbols [] ++ (TokenKind.rparen.symbol :: rest)).length < total.length)
    (k : ∀ {s'}, Faces ss (update.updateParts ++ parts) (TokenKind.rparen.symbol :: rest) s' →
      (f ()).Gets (.ofSymbols ss) e Q s') :
    (Move.provided (!·.isAt .rparen) (Move.read .forUpdate) >>= f).Gets (.ofSymbols ss) e Q s := by
  cases update with
  | nil =>
    have h : Faces ss parts (TokenKind.rparen.symbol :: rest) s := h
    exact .notProvided (by rw [h.isAt_eq]; rfl) (k h)
  | cons first others =>
    have hends : Ends (TokenKind.rparen.symbol :: rest) := rfl
    have hlayered := (OpTrees.cons first others).layered_grouped
    have hupdate := OpTrees.matches_forUpdate hscan rfl (List.cons_ne_nil _ _) hlayered.1
      (OpTrees.matched hscan hends _ hlayered)
    have hassoc : (OpTrees.cons first others).grouped.symbols [] ++
        (TokenKind.rparen.symbol :: rest) = first.grouped.symbols ++
          (others.grouped.symbols [TokenKind.comma.symbol] ++ (TokenKind.rparen.symbol :: rest)) := by
      simp [OpTrees.grouped, OpTrees.symbols]
    refine .provided (by rw [h.isAt_eq, hassoc, first.grouped.isAt_symbols _ rfl]; rfl) ?_
    exact (h.readLast hupdate (he.fewer h hlt)).mono fun _ _ h => k h

/-- A variable and a colon start a loop over elements. -/
theorem Grammar.Faces.startsForEach {ty id : LegalName} {f : Bool → Move β} (hscan : Scanned ss)
    (he : Entered ss e total) (plain : ty.IsPlain)
    (h : Faces ss parts (ty.symbol :: id.symbol :: TokenKind.colon.symbol :: rest) s)
    (hlt : (ty.symbol :: id.symbol :: TokenKind.colon.symbol :: rest).length < total.length)
    (k : (f true).Gets (.ofSymbols ss) e Q s) :
    (Grammar.Production.startsForEach >>= f).Gets (.ofSymbols ss) e Q s := by
  have htype : Grammar.Probe.modifiedType.rule.Matches ss [ty.symbol] [ty.typeTree]
      (id.symbol :: TokenKind.colon.symbol :: rest) :=
    Grammar.matches_modifiedType hscan (List.cons_ne_nil _ _) rfl (.inl (plain.ne (by decide)))
  have hname : ((Source.ofSymbols ss).view s).kindAt 1 = .identifier := by
    rw [h.kindAt_eq]
    rfl
  have hdrop : ss.drop (s.read + 2) = TokenKind.colon.symbol :: rest := by
    rw [← List.drop_drop, h.drop_eq]
    rfl
  have hdims : (((Source.ofSymbols ss).view s).skip 2).skipDims =
      ((Source.ofSymbols ss).view s).skip 2 := by
    have hwidth : Grammar.Ahead.dimsWidth (ss.drop (s.read + 2)) = 0 := by
      rw [hdrop]
      rfl
    change (((Source.ofSymbols ss).view s).skip 2).skip (Grammar.Ahead.dimsWidth (ss.drop (s.read + 2))) = _
    rw [hwidth]
    rfl
  have hcolon : (((Source.ofSymbols ss).view s).skip 2).kind = .colon := h.kindAt_eq 2
  refine .bind (.ahead (.bind (.ahead ?_)))
  unfold Grammar.Ahead.mayStartType
  rw [h.kind_eq]
  refine h.attempt htype (he.fewer h hlt) (.pure ?_)
  refine .pure ?_
  have hstarts : (some 1).any (fun width => ((Source.ofSymbols ss).view s).kindAt width == .identifier
      && (((Source.ofSymbols ss).view s).skip (width + 1)).skipDims.isAt .colon) = true := by
    rw [Option.any_some, hname, hdims, Grammar.Ahead.isAt, hcolon]
    rfl
  exact hstarts ▸ k

end

namespace StmtTree

variable {body : StmtTree}

theorem matches_forLoop {test : Option OpTree} {update : OpTrees} (hscan : Scanned ss)
    (hne : rest ≠ []) (hbody : Rule.statement.Matches ss body.symbols [body.tree] rest) :
    Rule.statement.Matches ss (forLoop test update body).symbols
      [(forLoop test update body).tree] rest :=
  .of_production hscan hne fun i s he h => by
    have hassoc : (forLoop test update body).symbols ++ rest = TokenKind.forKw.symbol ::
        TokenKind.lparen.symbol :: TokenKind.semi.symbol :: (test.elim [] (·.grouped.symbols) ++
          (TokenKind.semi.symbol :: (update.grouped.symbols [] ++
            (TokenKind.rparen.symbol :: (body.symbols ++ rest))))) := by
      simp [symbols]
    rw [hassoc] at he h
    refine .nest (.ahead ?_)
    rw [h.kind_eq]
    refine h.expect rfl rfl fun h => h.expect rfl rfl fun h => ?_
    refine .bind (.ahead (.bind (.ahead ?_)))
    unfold Grammar.Ahead.mayStartType
    rw [h.kind_eq]
    refine .pure (.pure (.notProvided (by rw [h.isAt_eq]; rfl) ?_))
    refine h.expect rfl rfl fun h => h.test test hscan he (by grind) fun h => ?_
    refine h.expect rfl rfl fun h => h.update update hscan he (by grind) fun h => ?_
    refine h.expect rfl rfl fun h => h.read hbody (he.fewer h (by grind)) fun h => ?_
    refine h.closeLast ?_
    have hupdate : update.updateParts.reverse = update.updateParts := by cases update <;> rfl
    have htest : (test.toList.map (·.grouped.tree)).reverse = test.toList.map (·.grouped.tree) := by
      cases test <;> rfl
    simp only [List.reverse_cons, List.reverse_append, hupdate, htest]
    simp [TokenKind.leaf]

theorem matches_forEach {ty id : LegalName} {plain : ty.IsPlain} {iter : OpTree}
    (hscan : Scanned ss) (hne : rest ≠ [])
    (hbody : Rule.statement.Matches ss body.symbols [body.tree] rest) :
    Rule.statement.Matches ss (forEach ty id plain iter body).symbols
      [(forEach ty id plain iter body).tree] rest :=
  .of_production hscan hne fun i s he h => by
    have hassoc : (forEach ty id plain iter body).symbols ++ rest = TokenKind.forKw.symbol ::
        TokenKind.lparen.symbol :: ty.symbol :: id.symbol :: TokenKind.colon.symbol ::
          (iter.grouped.symbols ++ (TokenKind.rparen.symbol :: (body.symbols ++ rest))) := by
      simp [symbols]
    rw [hassoc] at he h
    refine .nest (.ahead ?_)
    rw [h.kind_eq]
    have hiter : Rule.expression.Matches ss iter.grouped.symbols [iter.grouped.tree]
        (TokenKind.rparen.symbol :: (body.symbols ++ rest)) :=
      OpTree.matches_symbols hscan iter.layered_grouped rfl
    refine h.expect rfl rfl fun h => h.expect rfl rfl fun h => ?_
    refine h.startsForEach hscan he plain (by simp) ?_
    have hnone : Rule.modifiers.Matches ss [] [] (ty.symbol :: id.symbol :: TokenKind.colon.symbol ::
        (iter.grouped.symbols ++ (TokenKind.rparen.symbol :: (body.symbols ++ rest)))) :=
      Grammar.matches_modifiers hscan (List.cons_ne_nil _ _)
        (·.startsModifier_name (.inl (plain.ne (by decide))))
    refine h.readNone hnone (he.fewer h (by simp)) fun h => ?_
    have htype (tail : List Symbol) :
        Rule.type.Matches ss [ty.symbol] [ty.typeTree] (id.symbol :: tail) :=
      Grammar.matches_type hscan (List.cons_ne_nil _ _) rfl
    have hid (tail : List Symbol) : Rule.variableDeclaratorId.Matches ss [id.symbol]
        [id.variableTree] (TokenKind.colon.symbol :: tail) :=
      Grammar.matches_variableDeclaratorId hscan (List.cons_ne_nil _ _) rfl
    refine h.read (htype _) (he.fewer h (by simp)) fun h => ?_
    refine h.read (hid _) (he.fewer h (by simp)) fun h => ?_
    refine h.expect rfl rfl fun h => h.read hiter (he.fewer h (by grind)) fun h => ?_
    refine h.expect rfl rfl fun h => h.read hbody (he.fewer h (by grind)) fun h => ?_
    exact h.closeLast rfl

end StmtTree

/-! ### All trees -/

mutual

/-- **A settled tree is read of its symbols in any source**, unless it is open in front of an
`else`. -/
theorem StmtTree.matches_symbols (hscan : Scanned ss) : (s : StmtTree) → s.Settled →
    {rest : List Symbol} → rest ≠ [] →
    (s.isOpen = true → (kindAhead rest 0 == .elseKw) = false) →
    Rule.statement.Matches ss s.symbols [s.tree] rest
  | .empty, _, _, hne, _ => StmtTree.matches_empty hscan hne
  | .block body, hsettled, _, hne, _ =>
    StmtTree.matches_block hscan hne (body.matched hscan hsettled (List.cons_ne_nil _ _) rfl)
  | .ifThen _ body, hsettled, _, hne, helse =>
    StmtTree.matches_ifThen hscan hne (helse rfl)
      (body.matches_symbols hscan hsettled hne fun _ => helse rfl)
  | .ifElse _ body orelse, ⟨hclosed, hbody, horelse⟩, _, hne, helse => by
    refine StmtTree.matches_ifElse hscan hne (body.matches_symbols hscan hbody (List.cons_ne_nil _ _) ?_)
      (orelse.matches_symbols hscan horelse hne helse)
    rw [hclosed]
    exact fun heq => absurd heq Bool.false_ne_true
  | .whileLoop _ body, hsettled, _, hne, helse =>
    StmtTree.matches_whileLoop hscan hne (body.matches_symbols hscan hsettled hne helse)
  | .doWhile body _, hsettled, _, hne, _ => StmtTree.matches_doWhile hscan hne
    (body.matches_symbols hscan hsettled (List.cons_ne_nil _ _) fun _ => rfl)
  | .forLoop _ _ body, hsettled, _, hne, helse =>
    StmtTree.matches_forLoop hscan hne (body.matches_symbols hscan hsettled hne helse)
  | .forEach _ _ _ _ body, hsettled, _, hne, helse =>
    StmtTree.matches_forEach hscan hne (body.matches_symbols hscan hsettled hne helse)
  | .labeled _ body, hsettled, _, hne, helse =>
    StmtTree.matches_labeled hscan hne (body.matches_symbols hscan hsettled hne helse)
  | .jump _ _, _, _, hne, _ => StmtTree.matches_jump hscan hne
  | .call .., _, _, hne, _ => StmtTree.matches_call hscan hne

/-- So are several, if no `else` stands behind them. -/
theorem StmtTrees.matched (hscan : Scanned ss) : (body : StmtTrees) → body.Settled →
    {rest : List Symbol} → rest ≠ [] → (kindAhead rest 0 == .elseKw) = false →
    body.Matched ss rest
  | .nil, _, _, _, _ => trivial
  | .cons first others, hsettled, rest, hne, helse => by
    refine ⟨first.matches_symbols hscan hsettled.1 (List.append_ne_nil_of_right_ne_nil _ hne)
      fun _ => ?_, others.matched hscan hsettled.2 hne helse⟩
    cases others with
    | nil => exact helse
    | cons next others =>
      have hnext := (next.starts (others.symbols ++ rest)).ne_else
      rwa [← List.append_assoc] at hnext

end

/-- It is read alone as well. -/
theorem StmtTree.matches_statementStart {s : StmtTree}
    (hscan : Scanned (s.symbols ++ [Symbol.final])) (hsettled : s.Settled) :
    Rule.statementStart.Matches (s.symbols ++ [Symbol.final]) s.symbols
      [Phrase.statementStart.over [s.tree]] [Symbol.final] := by
  have hstatement := s.matches_symbols hscan hsettled (List.cons_ne_nil Symbol.final []) fun _ => rfl
  have hblock := Grammar.matches_blockStatement hscan (List.cons_ne_nil _ _) (s.starts _) hstatement
  refine .of_production hscan (List.cons_ne_nil _ _) fun i stand he h => ?_
  refine h.read hblock (he.same h (by simp) (by decide)) fun h => .bind (.isAt ?_)
  rw [h.isAt_eq]
  exact .pure (h.closeLast rfl)

end JavaSource
