import JavaSource.Proofs.Lexing.Documents
import JavaSource.Proofs.Statements.Tree

/-!
# Statement trees as they are printed

The document of a statement lexes to the symbols of the settled tree, whatever the indent
(`StmtTree.lexes`).
-/

namespace JavaSource

open Grammar (Symbol)
open Text (Span isNameStart isNamePart)

/-- A reserved word and an opening parenthesis. -/
theorem Lexes.head {c : Char} {w rest : List Char} {kind : TokenKind} {ss : List Symbol}
    (hword : TokenKind.keyword? (String.ofList (c :: w)) = some kind) (h : Lexes rest ss) :
    Lexes (c :: w ++ [' ', '('] ++ rest) (kind.symbol :: TokenKind.lparen.symbol :: ss) := by
  have hopen : Lexes ('(' :: rest) (TokenKind.lparen.symbol :: ss) := h.single rfl
  have hkeyword := hopen.blank.keyword hword (.cons rfl (by decide) _)
  rwa [List.append_assoc]

namespace Doc.Lexes

variable {d : Doc} {p r : Edge} {ss ss' : List Symbol}

/-! ### Words -/

theorem ifHead : (Doc.text "if (").Lexes .any .any
    [TokenKind.ifKw.symbol, TokenKind.lparen.symbol] :=
  .words fun _ h => h.head (c := 'i') (w := ['f']) rfl

theorem whileHead : (Doc.text "while (").Lexes .any .any
    [TokenKind.whileKw.symbol, TokenKind.lparen.symbol] :=
  .words fun _ h => h.head (c := 'w') (w := ['h', 'i', 'l', 'e']) rfl

theorem forHead : (Doc.text "for (").Lexes .any .any
    [TokenKind.forKw.symbol, TokenKind.lparen.symbol] :=
  .words fun _ h => h.head (c := 'f') (w := ['o', 'r']) rfl

theorem doWord : (Doc.text "do").Lexes .any .word [TokenKind.doKw.symbol] :=
  .words fun hends h => h.keyword (c := 'd') (w := ['o']) rfl hends

theorem elseWord : (Doc.text "else").Lexes .any .word [TokenKind.elseKw.symbol] :=
  .words fun hends h => h.keyword (c := 'e') (w := ['l', 's', 'e']) rfl hends

theorem spacedElse : (Doc.text " else").Lexes p .word [TokenKind.elseKw.symbol] :=
  .text rfl rfl fun hends h => (h.keyword (c := 'e') (w := ['l', 's', 'e']) rfl hends).blank

theorem breakWord : (Doc.text "break").Lexes .any .word [TokenKind.breakKw.symbol] :=
  .words fun hends h => h.keyword (c := 'b') (w := ['r', 'e', 'a', 'k']) rfl hends

theorem continueWord : (Doc.text "continue").Lexes .any .word [TokenKind.continueKw.symbol] :=
  .words fun hends h => h.keyword (c := 'c') (w := ['o', 'n', 't', 'i', 'n', 'u', 'e']) rfl hends

/-- The end of a loop that is tested behind its body. -/
theorem loopEnd : (Doc.text ");").Lexes p .any
    [TokenKind.rparen.symbol, TokenKind.semi.symbol] :=
  .text rfl rfl fun {rest ss'} _ h => by
    have hsemi : JavaSource.Lexes (';' :: rest) (TokenKind.semi.symbol :: ss') := h.single rfl
    exact hsemi.single rfl

/-! ### Statements in statements -/

/-- A part behind a blank. -/
theorem lead {ds : List Doc} (hds : ds.isEmpty = false) (h : (Doc.concat ds).Lexes .any r ss) :
    (Doc.lead " " ds).Lexes p r ss := by
  rw [Doc.lead, hds]
  exact blank.append h

/-- What a head controls, on the same line or on the next. -/
theorem body (s : Stmt) (h : d.Lexes .any .any ss) : (Doc.body s d).Lexes p .any ss := by
  rw [Doc.body]
  split
  · exact blank.append h
  · exact (line.append h).nest

/-- What stands between a condition and an `else`, in braces if it is open. -/
theorem thenBranch (s : Stmt) (h : d.Lexes .any .any ss) :
    (Doc.thenBranch s d).Lexes p .word ((if s.endsInOpenIf then
      TokenKind.lbrace.symbol :: ss ++ [TokenKind.rbrace.symbol] else ss)
        ++ [TokenKind.elseKw.symbol]) := by
  rw [Doc.thenBranch]
  split
  · have hconcat : (Doc.concat ([d].map (Doc.line ++ ·))).Lexes .any .any ss :=
      (line.append h).concat
    exact (blank.append (braces hconcat)).append spacedElse
  · split
    · exact (h.body s).append spacedElse
    · exact (((h.body s).append line).append elseWord).of_eq (by simp)

/-- What stands behind an `else`. -/
theorem elseBranch (s : Stmt) (h : d.Lexes .any .any ss) : (Doc.elseBranch s d).Lexes p .any ss := by
  rw [Doc.elseBranch]
  split
  · exact blank.append h
  · exact h.body s

end Doc.Lexes

/-! ### Names and expressions -/

theorem LegalName.docLexes (n : LegalName) : (Doc.text n.text).Lexes .any .word [n.symbol] :=
  .words fun hends h => by
    rw [LegalName.text, String.toList_ofList]
    exact h.name n hends

theorem LegalName.typeLexes (n : LegalName) (spans : Spans) :
    (Doc.concat (n.typeNode spans).docs).Lexes .any .word [n.symbol] := by
  have hcoit := (Doc.Lexes.nothing.append n.docLexes.concat).append .nil
  exact (Doc.Lexes.nothing.append hcoit.concat).concat

theorem LegalName.variableLexes (n : LegalName) (span : Option Span) (spans : Spans) :
    (Doc.concat (Node.variableDeclaratorId span (n.identifier spans) .nil).docs).Lexes
      .any .word [n.symbol] :=
  (n.docLexes.concat.append .nil).concat

/-- The document of an expression lexes to the symbols of the grouped tree. -/
theorem OpTree.docLexes (t : OpTree) (spans : Spans) :
    (Doc.concat (t.node spans).docs).Lexes .any .word t.grouped.symbols := by
  obtain ⟨d, hd, hflat⟩ := t.flat spans
  rw [hd]
  exact .concat (.of_flat hflat fun hends h => t.grouped.lexes hends h t.layered_grouped)

theorem OpTree.isEmpty_docs (t : OpTree) (spans : Spans) :
    (t.node spans).docs.isEmpty = false := by
  obtain ⟨d, hd, -⟩ := t.flat spans
  rw [hd]
  rfl

/-- So does that of several expressions, if there are any. -/
theorem OpTrees.docLexes (first : OpTree) (others : OpTrees) (spans : Spans) :
    (Doc.sep ", " ((OpTrees.cons first others).node spans).docs).Lexes .any .word
      ((OpTrees.cons first others).grouped.symbols []) := by
  obtain ⟨d, hd, hflat⟩ := first.flat (spans.below 0)
  rw [OpTrees.node, Node.docs_cons, hd]
  refine .of_flat (others.flat _ hflat.concat) fun hends h => ?_
  have hlead {cs : List Char} {ss : List Symbol} (h : Lexes cs ss) : Lexes ([] ++ cs) ([] ++ ss) := h
  have hlexes := (OpTrees.cons first others).grouped.lexes hlead hends h
    (OpTrees.cons first others).layered_grouped
  simpa [OpTrees.grouped, OpTrees.chars] using hlexes

/-! ### Statements -/

theorem StmtTree.endsInOpenIf_node : (s : StmtTree) → (spans : Spans) →
    (s.node spans).endsInOpenIf = s.isOpen
  | .ifElse _ _ orelse, _ => orelse.endsInOpenIf_node _
  | .whileLoop _ body, _ | .forLoop _ _ body, _ | .forEach _ _ _ _ body, _ | .labeled _ body, _ =>
    body.endsInOpenIf_node _
  | .jump .break _, _ | .jump .continue _, _ => rfl
  | .empty, _ | .block _, _ | .ifThen .., _ | .doWhile .., _ | .call .., _ => rfl

theorem StmtTree.symbols_closed (isOpen : Bool) (s : StmtTree) :
    (s.closed isOpen).symbols = if isOpen then
      TokenKind.lbrace.symbol :: s.symbols ++ [TokenKind.rbrace.symbol] else s.symbols := by
  cases isOpen with
  | true => simp [closed, symbols, StmtTrees.symbols]
  | false => rfl

mutual

/-- **The document of a statement lexes to the symbols of the settled tree.** -/
theorem StmtTree.lexes : (s : StmtTree) → (spans : Spans) →
    ∃ d, (s.node spans).docs = [d] ∧ d.Lexes .any .any s.braced.symbols
  | .empty, _ => ⟨_, rfl, .semi⟩
  | .block .nil, _ => ⟨_, rfl, .emptyBraces⟩
  | .block (.cons first others), spans =>
    ⟨_, rfl, .braces (@StmtTrees.lexes .any (.cons first others) (spans.below 0))⟩
  | .ifThen test body, spans => by
    obtain ⟨d, hd, hbody⟩ := body.lexes (spans.below 1)
    refine ⟨_, rfl, ?_⟩
    rw [hd]
    refine (((Doc.Lexes.ifHead.append (test.docLexes _)).append .rparen).append
      (hbody.concat.body _)).of_eq ?_
    simp [StmtTree.braced, StmtTree.symbols, OpTree.condition]
  | .ifElse test body orelse, spans => by
    obtain ⟨d, hd, hbody⟩ := body.lexes (spans.below 1)
    obtain ⟨d', hd', horelse⟩ := orelse.lexes (spans.below 2)
    refine ⟨_, rfl, ?_⟩
    rw [hd, hd']
    refine ((((Doc.Lexes.ifHead.append (test.docLexes _)).append .rparen).append
      (hbody.concat.thenBranch _)).append (horelse.concat.elseBranch _)).of_eq ?_
    rw [body.endsInOpenIf_node]
    simp [StmtTree.braced, StmtTree.symbols, StmtTree.symbols_closed, OpTree.condition]
  | .whileLoop test body, spans => by
    obtain ⟨d, hd, hbody⟩ := body.lexes (spans.below 1)
    refine ⟨_, rfl, ?_⟩
    rw [hd]
    refine (((Doc.Lexes.whileHead.append (test.docLexes _)).append .rparen).append
      (hbody.concat.body _)).of_eq ?_
    simp [StmtTree.braced, StmtTree.symbols, OpTree.condition]
  | .doWhile body test, spans => by
    obtain ⟨d, hd, hbody⟩ := body.lexes (spans.below 0)
    refine ⟨_, rfl, ?_⟩
    rw [hd]
    refine (((((Doc.Lexes.doWord.append (hbody.concat.body _)).append .line).append
      .whileHead).append (test.docLexes _)).append .loopEnd).of_eq ?_
    simp [StmtTree.braced, StmtTree.symbols, OpTree.condition]
  | .forLoop test update body, spans => by
    obtain ⟨d, hd, hbody⟩ := body.lexes (spans.below 2)
    refine ⟨_, rfl, ?_⟩
    rw [hd]
    have htest : (Doc.lead " " (Node.ofOption (test.map (OpTree.node (spans.below 0)))).docs).Lexes
        .any .word (test.elim [] (·.grouped.symbols)) := by
      cases test with
      | none => exact .nothing
      | some t => exact .lead (t.isEmpty_docs _) (t.docLexes _)
    have hupdate : (Doc.clause " " ", " (update.node (spans.below 1)).docs).Lexes .any .word
        (update.grouped.symbols []) := by
      cases update with
      | nil => exact .nothing
      | cons first others => exact Doc.Lexes.blank.append (OpTrees.docLexes first others _)
    refine (((((((Doc.Lexes.forHead.append .nil).append .semi).append htest).append
      .semi).append hupdate).append .rparen).append (hbody.concat.body _)).of_eq ?_
    simp [StmtTree.braced, StmtTree.symbols]
  | .forEach ty id plain iter body, spans => by
    obtain ⟨d, hd, hbody⟩ := body.lexes (spans.below 3)
    refine ⟨_, rfl, ?_⟩
    rw [hd]
    refine ((((((((Doc.Lexes.forHead.append .nothing).append (ty.typeLexes _)).append
      .blank).append (id.variableLexes _ _)).append .spacedColon).append (iter.docLexes _)).append
      .rparen).append (hbody.concat.body _)).of_eq ?_
    simp [StmtTree.braced, StmtTree.symbols]
  | .labeled label body, spans => by
    obtain ⟨d, hd, hbody⟩ := body.lexes (spans.below 1)
    refine ⟨_, rfl, ?_⟩
    rw [hd]
    refine (((label.docLexes.concat.append .colon).append .line).append hbody.concat).of_eq ?_
    simp [StmtTree.braced, StmtTree.symbols]
  | .jump kind label, spans => by
    have hlabel : (Doc.lead " " (Node.ofOption (label.map fun n =>
        n.identifier (spans.below 0))).docs).Lexes .word .word
          (label.toList.map LegalName.symbol) := by
      cases label with
      | none => exact .nil
      | some n => exact .lead rfl n.docLexes.concat
    cases kind with
    | «break» => exact ⟨_, rfl, (Doc.Lexes.breakWord.append hlabel).append .semi⟩
    | «continue» => exact ⟨_, rfl, (Doc.Lexes.continueWord.append hlabel).append .semi⟩
  | .call func _ args, spans => by
    refine ⟨_, rfl, ?_⟩
    exact (((OpTree.head (.call func args)).docLexes _).append .semi).of_eq rfl

/-- The documents of several statements, each on a line of its own, whatever is asked for in front
of them as well as behind them. -/
theorem StmtTrees.lexes {p : Edge} : (ss : StmtTrees) → (spans : Spans) →
    (Doc.concat ((ss.node spans).docs.map (Doc.line ++ ·))).Lexes p p ss.braced.symbols
  | .nil, _ => .nil
  | .cons first others, spans => by
    obtain ⟨d, hd, hfirst⟩ := first.lexes (spans.below 0)
    rw [StmtTrees.node, Node.docs_cons, hd]
    exact (Doc.Lexes.line.append hfirst.concat.ahead_of_any).append (others.lexes _)

end

end JavaSource
