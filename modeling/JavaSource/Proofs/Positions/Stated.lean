import JavaSource.Proofs.Operators
import JavaSource.Proofs.Positions.Statements
import JavaSource.Proofs.Positions.Written
import JavaSource.Proofs.Sameness
import JavaSource.Proofs.Wholes

/-!
# Expressions as statements

The printer writes an expression that is a statement, or that is yielded, as it writes it alone.  So
if it is read back alone, what decides whether the statement is read back is what the first symbols
are taken for.

* `Node.parse_print_statement`: an expression statement is read back if and only if the expression
  passes the tests of a statement, and a `yield` statement if and only if the expression starts with
  no `++` and no `--`.
-/

namespace JavaSource

open Grammar

variable {e : Expr} {n : AnyNode} {text : String} {indent limit limit' : Nat} {ss : List Symbol}
  {span : Option Text.Span}

/-! ### Printing -/

theorem Node.print_exprStmt (h : e.print indent = .ok text) :
    (Node.exprStmt span e).print indent = .ok (text ++ ";") := by
  have hwrite : (Doc.concat e.docs).write indent 0 "" = .ok text := h
  change ((Doc.concat e.docs).write indent 0 "" >>= fun w => Doc.write indent 0 w (.text ";")) >>=
    (fun w => Doc.write indent 0 w .nil) = _
  rw [hwrite]
  rfl

theorem Node.print_yieldStmt (h : e.print indent = .ok text) :
    (Node.yieldStmt span e).print indent = .ok ("yield " ++ text ++ ";") := by
  have hwrite : (Doc.concat e.docs).write indent 0 ("yield " ++ "") = .ok ("yield " ++ text) := by
    rw [Doc.write_behind, show (Doc.concat e.docs).write indent 0 "" = .ok text from h]
    rfl
  change ((Doc.concat e.docs).write indent 0 ("" ++ "yield ") >>= fun w =>
    Doc.write indent 0 w (.text ";")) >>= (fun w => Doc.write indent 0 w .nil) = _
  rw [String.empty_append, ← String.append_empty (s := "yield "), hwrite]
  rfl

/-! ### Reading -/

theorem Grammar.unplaced_statedTree (t : Tree) :
    (statedTree [t]).unplaced = statedTree [t.unplaced] := by
  rw [statedTree, Phrase.unplaced_over]
  rfl

theorem Grammar.unplaced_yieldedTree (t : Tree) :
    (yieldedTree [t]).unplaced = yieldedTree [t.unplaced] := by
  rw [yieldedTree, Phrase.unplaced_over]
  rfl

theorem Tree.read_statedTree {t : Tree} (ht : t.phrase?.isSome = true) (h : t.read .expr = .ok e) :
    ∃ span, (statedTree [t]).read .stmt = .ok (.exprStmt span e) := by
  refine ⟨(statedTree [t]).opened.span, ?_⟩
  rw [Tree.read_eq]
  change Node.exprStmt _ <$> (statedTree [t]).opened.readNth 0 .expr = _
  rw [Tree.readNth_opened (p := t) (by simp [statedTree, ht, TokenKind.leaf, phrase?_leaf]), h]
  rfl

theorem Tree.read_yieldedTree {t : Tree} (ht : t.phrase?.isSome = true) (h : t.read .expr = .ok e) :
    ∃ span, (yieldedTree [t]).read .stmt = .ok (.yieldStmt span e) := by
  refine ⟨(yieldedTree [t]).opened.span, ?_⟩
  rw [Tree.read_eq]
  change Node.yieldStmt _ <$> (yieldedTree [t]).opened.readNth 0 .expr = _
  rw [Tree.readNth_opened (p := t) (by simp [yieldedTree, ht, TokenKind.leaf, phrase?_leaf]), h]
  rfl

/-- The phrase that a statement of an expression was. -/
def Node.statedPhrase? : {c : Category} → Node c → Option Phrase
  | _, .exprStmt ..  => some .expressionStatement
  | _, .yieldStmt .. => some .yieldStatement
  | _, _             => none

/-- Only one phrase is read as a statement of an expression, and only one as one that yields. -/
theorem Opened.stmt_makes (o : Opened) :
    Makes (fun n => ∀ kind, n.statedPhrase? = some kind → o.tree.phrase? = some kind) o.stmt := by
  have hnone {n : Stmt} (h : n.statedPhrase? = none) (kind : Phrase)
      (hk : n.statedPhrase? = some kind) : o.tree.phrase? = some kind := by
    rw [h] at hk
    cases hk
  unfold Opened.stmt
  split
  case h_7 hphrase =>
    exact Makes.any.map fun _ _ kind hkind => hphrase.trans hkind
  case h_22 hphrase =>
    exact Makes.any.map fun _ _ kind hkind => hphrase.trans hkind
  all_goals first
    | unfold Opened.forStmt | unfold Opened.forEachStmt | unfold Opened.tryStmt
    | unfold Opened.tryResourcesStmt | skip
  all_goals repeat' first
    | exact .ok (hnone rfl)
    | exact .error _
    | exact Node.checked_makes fun _ => hnone rfl
    | exact Makes.any.map fun _ _ => hnone rfl
    | refine Makes.any.bind fun _ _ => ?_
    | split

/-! ### Behind the text -/

/-- Written in front of a semicolon, a text passes the tests of a statement for an expression. -/
def MayBeStated (text : String) : Prop := ∃ ss, LexesStated text ss ∧ HeadsStatement (stated ss)

/-- The text of operators stands in front of a semicolon. -/
theorem OpTree.lexesStated (t : OpTree) :
    LexesStated (String.ofList t.grouped.chars) t.grouped.symbols := by
  have hends : EndsName [] := ⟨nofun, by decide⟩
  have hlexes := t.grouped.lexes hends .nil t.layered_grouped
  have hsemi := t.grouped.lexes (.cons rfl (by decide) []) Lexes.semi t.layered_grouped
  rw [List.append_nil, List.append_nil] at hlexes
  rw [LexesStated, String.toList_append, String.toList_ofList]
  exact ⟨hlexes, hsemi⟩

/-- A text stands in front of a semicolon and starts with no `++` and no `--`. -/
def MayBeYielded (text : String) : Prop :=
  ∃ ss, LexesStated text ss ∧ kindAhead ss 0 ≠ .inc ∧ kindAhead ss 0 ≠ .dec

/-- `yield` and a blank in front of a text are one more symbol. -/
theorem Lexes.behind_yield {cs : List Char} (h : Lexes cs ss) :
    Lexes ("yield ".toList ++ cs) (yieldWord :: ss) := by
  let word : LegalName :=
    ⟨'y', ['i', 'e', 'l', 'd'], rfl, List.all_eq_true.mp (by decide), by decide⟩
  exact h.blank.name word (.cons (by decide) (by decide) _)

/-! ### Statements -/

theorem Grammar.stated_eq (ss : List Symbol) :
    ss ++ [TokenKind.semi.symbol] ++ [Symbol.final] = stated ss := List.append_assoc ..

theorem Grammar.drop_stated (front : List Symbol) :
    (front ++ stated ss).drop 0 = front ++ (ss ++ [TokenKind.semi.symbol]) ++ [Symbol.final] := by
  rw [List.drop_zero, stated, List.append_assoc, List.append_assoc]
  rfl

/-- Behind the last symbol of a text there is no semicolon. -/
theorem Grammar.not_semi (ss : List Symbol) :
    ((Source.ofSymbols (ss ++ [Symbol.final])).view ⟨ss.length, []⟩).kind ≠ .semi := by
  rw [Ahead.kind, @kindAt_ofSymbols (ss ++ [Symbol.final]) _ rfl]
  change kindAhead _ (ss.length + 0) ≠ _
  rw [Nat.add_zero, kindAhead, List.getElem?_append_right (Nat.le_refl _), Nat.sub_self]
  decide

/-- The first symbol is one of the expression. -/
theorem Grammar.kindAhead_stated {parts : List Tree} (hscan : Scanned (stated ss))
    (htakes : Rule.expression.Takes (.ofSymbols (stated ss)) 0 parts ss.length) :
    kindAhead (stated ss) 0 = kindAhead ss 0 := by
  rw [kindAhead, stated, List.getElem?_append_left (length_pos_of_expression hscan htakes),
    kindAhead]

section

variable {t : Tree} {v : Expr} (hlexes : Lexes text.toList ss)
  (htakes : Rule.expression.Takes (.ofSymbols (ss ++ [Symbol.final])) 0 [t.unplaced] ss.length)
  (ht : t.phrase?.isSome = true) (hread : t.read .expr = .ok v) (halike : v.Alike e)

include hlexes htakes

/-- In front of a semicolon the text is the same expression. -/
theorem expression_of_lexesStated (h : LexesStated text ss) :
    Scanned (stated ss) ∧
      Rule.expression.Takes (.ofSymbols (stated ss)) 0 [t.unplaced] ss.length := by
  have hscan : Scanned (stated ss) := stated_eq ss ▸ h.2.scanned
  have hends : Ends [TokenKind.semi.symbol, Symbol.final] := rfl
  have hmatches := expression_before hlexes.scanned hscan hends htakes 0 rfl
  rw [Nat.zero_add] at hmatches
  exact ⟨hscan, hmatches⟩

section

include ht hread halike

/-- It is read back as a statement. -/
theorem parse_stated (h : MayBeStated text)
    (hlimit : (parseTreeWithin .stmt limit (text ++ ";")).isOk) :
    ∃ n, parse .stmt limit (text ++ ";") = .ok n ∧ n.Alike ⟨.stmt, .exprStmt span e⟩ := by
  obtain ⟨ss', hstated, hheads⟩ := h
  obtain rfl := hlexes.unique hstated.1
  obtain ⟨hscan, htakes'⟩ := expression_of_lexesStated hlexes htakes hstated
  obtain ⟨span', hstatement⟩ := Tree.read_statedTree ht hread
  have hblock := matches_expressionStatement hscan htakes' hheads 0 (drop_stated [])
  rw [Nat.zero_add, ← stated_eq, ← unplaced_statedTree] at hblock
  obtain ⟨n, hn, hn'⟩ := whole_statement.parse hstated.2 hblock rfl hstatement hlimit
  cases hn' with
  | mk hn' => exact ⟨_, hn, .mk (hn'.trans (.exprStmt halike))⟩

/-- It is read back behind `yield`. -/
theorem parse_yielded (h : MayBeYielded text)
    (hlimit : (parseTreeWithin .stmt limit ("yield " ++ text ++ ";")).isOk) :
    ∃ n, parse .stmt limit ("yield " ++ text ++ ";") = .ok n ∧
      n.Alike ⟨.stmt, .yieldStmt span e⟩ := by
  obtain ⟨ss', hstated, hno⟩ := h
  obtain rfl := hlexes.unique hstated.1
  obtain ⟨hscan, htakes'⟩ := expression_of_lexesStated hlexes htakes hstated
  obtain ⟨span', hstatement⟩ := Tree.read_yieldedTree ht hread
  have hyield : Lexes ("yield " ++ text ++ ";").toList
      (yieldWord :: (ss ++ [TokenKind.semi.symbol])) := by
    rw [String.append_assoc, String.toList_append]
    exact hstated.2.behind_yield
  have hassoc : yieldWord :: (ss ++ [TokenKind.semi.symbol]) ++ [Symbol.final] =
      yieldWord :: stated ss := congrArg (yieldWord :: ·) (stated_eq ss)
  have hscan' : Scanned (yieldWord :: stated ss) := hassoc ▸ hyield.scanned
  have hends : Ends [TokenKind.semi.symbol, Symbol.final] := rfl
  have hno : kindAhead (stated ss) 0 ≠ .inc ∧ kindAhead (stated ss) 0 ≠ .dec := by
    rwa [kindAhead_stated hscan htakes']
  have hblock := matches_yieldStatement hscan'
    (expression_before hlexes.scanned hscan' hends htakes)
    (startsExpression_stated hscan htakes') hno 0 (drop_stated [yieldWord])
  rw [Nat.zero_add, ← hassoc, ← unplaced_yieldedTree] at hblock
  obtain ⟨n, hn, hn'⟩ := whole_statement.parse hyield hblock rfl hstatement hlimit
  cases hn' with
  | mk hn' => exact ⟨_, hn, .mk (hn'.trans (.yieldStmt halike))⟩

end

/-- What is read back as a statement passes the tests. -/
theorem mayBeStated (hlimit : (parseTreeWithin .stmt limit (text ++ ";")).isOk)
    (h : parse .stmt limit (text ++ ";") = .ok n) (halike : n.Alike ⟨.stmt, .exprStmt span e⟩) :
    MayBeStated text := by
  obtain ⟨ss', t', v', hlexes', -, hblock, hread', rfl⟩ := whole_statement.of_parse hlimit h
  obtain ⟨span', e', rfl⟩ : ∃ span' e', v' = .exprStmt span' e' := by
    cases halike with
    | mk halike =>
      cases halike
      exact ⟨_, _, rfl⟩
  have hphrase : t'.unplaced.phrase? = some .expressionStatement := by
    rw [Tree.read_eq] at hread'
    rw [Tree.phrase?_unplaced, ← Tree.tree_opened t']
    exact t'.opened.stmt_makes _ hread' _ rfl
  have hclear {ss : List Symbol} := Source.clear_zero (.ofSymbols ss)
  rcases hlexes.with_semi with hsemi | hnone
  · obtain rfl := hlexes'.unique hsemi
    obtain ⟨hscan, htakes'⟩ := expression_of_lexesStated hlexes htakes ⟨hlexes, hsemi⟩
    rw [stated_eq] at hblock
    have hstarts := expression_starts hscan.whole 0 _ _ hclear htakes'
    obtain ⟨hswitch, hyield, hvariable, -⟩ :=
      heads_of_expressionStatement hscan.whole hclear hstarts hblock hphrase
    rw [Ahead.kind, kindAt_ofSymbols _ rfl] at hswitch
    refine ⟨ss, ⟨hlexes, hsemi⟩, hswitch, hyield, fun parts n htype hname => ?_⟩
    refine hvariable parts n (by rwa [Nat.zero_add]) ?_
    rw [kindAt_ofSymbols _ rfl]
    exact (congrArg _ (Nat.zero_add n)).trans hname
  · obtain rfl := hlexes'.unique hnone
    have hscan := hlexes'.scanned
    have hstarts := expression_starts hscan.whole 0 _ _ hclear htakes
    obtain ⟨-, -, -, parts, k, hexpression, hsemi⟩ :=
      heads_of_expressionStatement hscan.whole hclear hstarts hblock hphrase
    obtain rfl := (htakes.unique hexpression).2
    exact (not_semi _ hsemi).elim

/-- What is read back behind `yield` does not start with `++` or `--`. -/
theorem mayBeYielded (hlimit : (parseTreeWithin .stmt limit ("yield " ++ text ++ ";")).isOk)
    (h : parse .stmt limit ("yield " ++ text ++ ";") = .ok n)
    (halike : n.Alike ⟨.stmt, .yieldStmt span e⟩) : MayBeYielded text := by
  obtain ⟨ss', t', v', hlexes', -, hblock, hread', rfl⟩ := whole_statement.of_parse hlimit h
  obtain ⟨span', e', rfl⟩ : ∃ span' e', v' = .yieldStmt span' e' := by
    cases halike with
    | mk halike =>
      cases halike
      exact ⟨_, _, rfl⟩
  have hphrase : t'.unplaced.phrase? = some .yieldStatement := by
    rw [Tree.read_eq] at hread'
    rw [Tree.phrase?_unplaced, ← Tree.tree_opened t']
    exact t'.opened.stmt_makes _ hread' _ rfl
  have hclear {ss : List Symbol} := Source.clear_zero (.ofSymbols ss)
  rw [String.append_assoc, String.toList_append] at hlexes'
  rcases hlexes.with_semi with hsemi | hnone
  · obtain rfl := hlexes'.unique hsemi.behind_yield
    obtain ⟨hscan, htakes'⟩ := expression_of_lexesStated hlexes htakes ⟨hlexes, hsemi⟩
    have hassoc : yieldWord :: (ss ++ [TokenKind.semi.symbol]) ++ [Symbol.final] =
        yieldWord :: stated ss := congrArg (yieldWord :: ·) (stated_eq ss)
    have hscan' := hlexes'.scanned
    rw [hassoc] at hblock hscan'
    obtain ⟨hyield, -⟩ := yields_of_yieldStatement hscan'.whole hclear rfl hblock hphrase
    have hfaces : Faces (yieldWord :: stated ss) [] (yieldWord :: stated ss) ⟨0, []⟩ := ⟨rfl, rfl⟩
    have hstarts := startsExpression_stated hscan htakes'
    have hno := (startsYield_of_startsExpression hfaces hstarts).mp hyield
    rw [kindAhead_stated hscan htakes'] at hno
    exact ⟨ss, ⟨hlexes, hsemi⟩, hno⟩
  · obtain rfl := hlexes'.unique hnone.behind_yield
    have hscan' := hlexes'.scanned
    obtain ⟨-, parts, k, hexpression, hsemi⟩ :=
      yields_of_yieldStatement hscan'.whole hclear rfl hblock hphrase
    have hends : Ends [Symbol.final] := rfl
    have hmatches := expression_before hlexes.scanned hscan' hends htakes 1 rfl
    obtain rfl := (hmatches.unique hexpression).2
    rw [Nat.add_comm] at hsemi
    exact (not_semi (yieldWord :: ss) hsemi).elim

end

/-- **An expression is read back as a statement if and only if it passes the tests of a statement,
and behind `yield` if and only if it starts with no `++` and no `--`.** -/
theorem Node.parse_print_statement (hprint : e.print indent = .ok text)
    (hlimit : (parseTreeWithin .expr limit text).isOk) (hparse : parse .expr limit text = .ok n)
    (halike : n.Alike ⟨.expr, e⟩) :
    (∃ source, (Node.exprStmt span e).print indent = .ok source ∧
      ∀ limit', (parseTreeWithin .stmt limit' source).isOk →
        ((∃ n', parse .stmt limit' source = .ok n' ∧ n'.Alike ⟨.stmt, .exprStmt span e⟩) ↔
          MayBeStated text)) ∧
    ∃ source, (Node.yieldStmt span e).print indent = .ok source ∧
      ∀ limit', (parseTreeWithin .stmt limit' source).isOk →
        ((∃ n', parse .stmt limit' source = .ok n' ∧ n'.Alike ⟨.stmt, .yieldStmt span e⟩) ↔
          MayBeYielded text) := by
  obtain ⟨ss, t, v, hlexes, ht, htakes, hread, rfl⟩ := whole_expression.of_parse hlimit hparse
  have halike : v.Alike e := by
    cases halike with
    | mk halike => exact halike
  refine ⟨⟨_, Node.print_exprStmt hprint, fun limit' hlimit' => ⟨fun ⟨n', hn', halike'⟩ => ?_,
    fun h => ?_⟩⟩, ⟨_, Node.print_yieldStmt hprint, fun limit' hlimit' =>
      ⟨fun ⟨n', hn', halike'⟩ => ?_, fun h => ?_⟩⟩⟩
  · exact mayBeStated hlexes htakes hlimit' hn' halike'
  · exact parse_stated hlexes htakes ht hread halike h hlimit'
  · exact mayBeYielded hlexes htakes hlimit' hn' halike'
  · exact parse_yielded hlexes htakes ht hread halike h hlimit'

/-- A comparison that is compared. -/
theorem Node.parse_print_statement_comparison : ∃ (e : Expr) (n : AnyNode),
    e.print 0 = .ok "a < b > c" ∧ (parseTreeWithin .expr 20 "a < b > c").isOk ∧
    parse .expr 20 "a < b > c" = .ok n ∧ n.Alike ⟨.expr, e⟩ ∧
    (∃ source, (Node.exprStmt none e).print 0 = .ok source ∧
      ∀ limit', (parseTreeWithin .stmt limit' source).isOk →
        ((∃ n', parse .stmt limit' source = .ok n' ∧ n'.Alike ⟨.stmt, .exprStmt none e⟩) ↔
          MayBeStated "a < b > c")) ∧
    ∃ source, (Node.yieldStmt none e).print 0 = .ok source ∧
      ∀ limit', (parseTreeWithin .stmt limit' source).isOk →
        ((∃ n', parse .stmt limit' source = .ok n' ∧ n'.Alike ⟨.stmt, .yieldStmt none e⟩) ↔
          MayBeYielded "a < b > c") := by
  let t : OpTree := .binary .gt (.binary .lt
    (.head (.name (.letter 'a' rfl (by decide))))
    (.head (.name (.letter 'b' rfl (by decide)))))
    (.head (.name (.letter 'c' rfl (by decide))))
  obtain ⟨hprint, hparse⟩ := t.parse_grouped .nowhere 0
  have hlimit : (parseTreeWithin .expr 20 "a < b > c").isOk := by decide +kernel
  have htext : String.ofList t.grouped.chars = "a < b > c" := by decide +kernel
  rw [htext] at hprint hparse
  obtain ⟨n, hn, halike⟩ := hparse 20 hlimit
  exact ⟨_, n, hprint, hlimit, hn, halike, Node.parse_print_statement hprint hlimit hn halike⟩

/-- As a statement, a comparison that is compared is taken for the declaration of a variable. -/
theorem same_stated_comparison : ∃ e : Expr, e.print 0 = .ok "a < b > c" ∧
    (∃ n, parse .expr 20 "a < b > c" = .ok n ∧ n.same ⟨.expr, e⟩ = true) ∧
    (Node.exprStmt none e).print 0 = .ok "a < b > c;" ∧
    (parseTreeWithin .stmt 20 "a < b > c;").isOk ∧
    ∃ n, parse .stmt 20 "a < b > c;" = .ok n ∧ n.same ⟨.stmt, .exprStmt none e⟩ = false := by
  let e : Expr := .binary none (.binary none (.letter 'a') (.binaryOperator .lt) (.letter 'b'))
    (.binaryOperator .gt) (.letter 'c')
  have halone : (parse .expr 20 "a < b > c").toOption.any (·.same ⟨.expr, e⟩) = true := by
    decide +kernel
  have hstated : (parse .stmt 20 "a < b > c;").toOption.any
      (!·.same ⟨.stmt, .exprStmt none e⟩) = true := by decide +kernel
  obtain ⟨n, hn, hsame⟩ := exists_of_toOption_any hstated
  exact ⟨e, rfl, exists_of_toOption_any halone, rfl, by decide +kernel, n, hn,
    (Bool.not_eq_true' _).mp hsame⟩

end JavaSource
