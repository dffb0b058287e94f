import JavaSource.Proofs.Guards.Tree
import JavaSource.Proofs.Types.Declarations

/-!
# Guard trees as they are printed

A pattern and its guard are written without line breaks (`GuardTree.flat`).  The document of a
switch lexes to the symbols of the switch with braces in its rule, whatever the indent
(`SwitchTree.lexes_stmt`, `SwitchTree.lexes_expr`).
-/

namespace JavaSource

open Grammar (Symbol)
open Text (isNameStart isNamePart)

/-! ### A pattern and its guard -/

theorem PatternTree.flat (p : PatternTree) (spans : Spans) :
    ∃ d, (p.node spans).docs = [d] ∧ d.Flat p.chars := by
  obtain ⟨d, hd, htype⟩ := p.type.flat (spans.below 1)
  refine ⟨_, rfl, ?_⟩
  rw [hd]
  have hmodifiers : (Doc.each " " (if p.isFinal then
      Node.cons (Node.keywordModifier (spans [0]) .finalWord) .nil else .nil).docs).Flat
        (if p.isFinal then "final ".toList else []) := by
    cases p.isFinal with
    | false => exact .nil
    | true => exact ((Doc.Flat.text "final").concat.append (.text " ")).concat
  refine ((((hmodifiers.append .nil).append htype.concat).append (.text " ")).append
    (p.id.flat_identifier _)).of_eq ?_
  simp only [chars, List.append_nil, List.append_assoc]
  rfl

/-- The documents of conditions behind one more. -/
theorem OpTrees.flat_guard (ts : OpTrees) (spans : Spans) {d : Doc} {cs : List Char}
    (h : d.Flat cs) : (Doc.sep " && " (d :: Doc.operands ⟨.logicalAnd, false⟩ (ts.node spans)
      (ts.node spans).docs)).Flat (cs ++ ts.guardChars) := by
  cases ts with
  | nil => exact h.of_eq (List.append_nil cs).symm
  | cons first others =>
    obtain ⟨e, he, hfirst⟩ := first.flat (spans.below 0)
    have hothers := others.flat_guard (spans.below 1)
      (hfirst.concat.operand (spans.below 0) ⟨.logicalAnd, false⟩)
    rw [← he] at hothers
    refine ((h.append (.text " && ")).append hothers).of_eq ?_
    simp [guardChars, OpTree.conjunct]

/-- **A pattern and its guard are written without line breaks.** -/
theorem GuardTree.flat (g : GuardTree) (spans : Spans) :
    ∃ d, (g.node spans).docs = [d] ∧ d.Flat g.chars := by
  obtain ⟨p, hp, hpattern⟩ := g.pattern.flat (spans.below 0)
  obtain ⟨e, he, hfirst⟩ := g.first.flat ((spans.below 1).below 0)
  have hconditions := g.others.flat_guard ((spans.below 1).below 1)
    (hfirst.concat.operand ((spans.below 1).below 0) ⟨.logicalAnd, false⟩)
  rw [← he] at hconditions
  refine ⟨_, rfl, ?_⟩
  rw [hp]
  refine (hpattern.concat.append ((Doc.Flat.text " when ").append hconditions)).of_eq ?_
  rw [chars, conjunction, OpTrees.chars_conjoined, List.append_assoc]
  rfl

/-! ### Symbols -/

theorem PatternTree.lexes {rest : List Char} {ss : List Symbol} (p : PatternTree)
    (hends : EndsName rest) (h : Lexes rest ss) :
    Lexes (p.chars ++ rest) (p.symbols ++ ss) := by
  have hblank : EndsAngle (' ' :: (p.id.chars ++ rest)) :=
    .cons rfl (by decide) (by decide) (by decide) _
  have htype := p.type.lexes hblank (h.name p.id hends).blank
  rw [Lexes.touchesNext_blank] at htype
  have hassoc : p.chars ++ rest = (if p.isFinal then "final ".toList else []) ++
      (p.type.chars ++ (' ' :: (p.id.chars ++ rest))) := by
    simp only [chars, List.append_assoc, List.cons_append]
  have hsymbols : p.symbols ++ ss = (if p.isFinal then [TokenKind.finalKw.symbol] else []) ++
      (p.type.symbols false ++ (p.id.symbol :: ss)) := by simp [symbols]
  rw [hassoc, hsymbols]
  cases p.isFinal with
  | false => exact htype
  | true =>
    exact htype.blank.keyword (c := 'f') (w := "inal".toList) rfl (.cons rfl (by decide) _)

theorem GuardTree.lexes {rest : List Char} {ss : List Symbol} (g : GuardTree)
    (hends : EndsName rest) (h : Lexes rest ss) :
    Lexes (g.chars ++ rest) (g.symbols ++ ss) := by
  have hconjunction := OpTree.lexes hends h g.conjunction g.layered_conjunction
  have hwhen := (hconjunction.blank.name whenName (.cons rfl (by decide) _)).blank
  have hlexes := g.pattern.lexes (.cons rfl (by decide) _) hwhen
  have hassoc : g.chars ++ rest = g.pattern.chars ++
      (' ' :: (whenName.chars ++ (' ' :: (g.conjunction.chars ++ rest)))) := by
    simp [chars, whenName, LegalName.chars]
  have hsymbols : g.symbols ++ ss =
      g.pattern.symbols ++ (whenName.symbol :: (g.conjunction.symbols ++ ss)) := by simp [symbols]
  rwa [hassoc, hsymbols]

namespace Doc.Lexes

variable {p r : Edge}

theorem caseHead : (Doc.text "case ").Lexes .any .any [TokenKind.caseKw.symbol] :=
  .words fun _ h => h.blank.keyword (c := 'c') (w := "ase".toList) rfl (.cons rfl (by decide) _)

theorem switchHead : (Doc.text "switch (").Lexes .any .any
    [TokenKind.switchKw.symbol, TokenKind.lparen.symbol] :=
  .words fun _ h => h.head (c := 's') (w := "witch".toList) rfl

/-- The parenthesis in front of a body. -/
theorem headEnd : (Doc.text ") ").Lexes p .any [TokenKind.rparen.symbol] :=
  .text rfl rfl fun _ h => h.blank.single rfl

end Doc.Lexes

namespace Doc.LexesAt

variable {d : Doc} {front : List Char → Prop} {ss : List Symbol} {indent depth : Nat}

theorem spacedArrow (hfront : ∀ rest, front (' ' :: rest)) : (Doc.text " -> ").LexesAt indent depth
    front (Edge.any.Holds ·) [TokenKind.arrow.symbol] :=
  .text rfl hfront fun {rest ss'} _ h => by
    have harrow : JavaSource.Lexes (['-', '>'] ++ ' ' :: rest) (TokenKind.arrow.symbol :: ss') :=
      h.blank.symbol (Lexes.gap_cons rfl nofun) rfl rfl nofun nofun
    exact harrow.blank

/-- The document of a switch with one rule. -/
theorem switch (value : OpTree) (spans : Spans) {r : Edge}
    (h : d.LexesAt indent (depth + 1) (Edge.any.Holds ·) (r.Holds ·) ss) :
    ("switch (" ++ Doc.concat (value.node spans).docs ++ ") " ++ Doc.braces [d]).LexesAt indent depth
      (Edge.any.Holds ·) (Edge.any.Holds ·) ([TokenKind.switchKw.symbol, TokenKind.lparen.symbol] ++
        value.grouped.symbols ++ [TokenKind.rparen.symbol] ++
          (TokenKind.lbrace.symbol :: ss ++ [TokenKind.rbrace.symbol])) :=
  ((Lexes.switchHead.append (value.docLexes spans)).append .headEnd).here.append h.braces

end Doc.LexesAt

/-- The document of a pattern and its guard. -/
theorem GuardTree.docLexes (g : GuardTree) (spans : Spans) :
    (Doc.concat (g.node spans).docs).Lexes .any .word g.symbols := by
  obtain ⟨d, hd, hflat⟩ := g.flat spans
  rw [hd]
  exact .concat (.of_flat hflat fun hends h => g.lexes hends h)

/-- The document of what stands behind a label.  It starts with a blank in front of an arrow, and
with a colon otherwise. -/
theorem RuleBody.lexesAt (b : RuleBody) (spans : Spans) {indent depth : Nat}
    {front : List Char → Prop} (hfront : ∀ rest, front ((if b.isArrow then ' ' else ':') :: rest)) :
    (Doc.ruleBody b.isArrow (b.node spans).docs).LexesAt indent depth front (Edge.operator.Holds ·)
      b.braced.symbols := by
  cases b with
  | colon body => exact (Doc.LexesAt.colon hfront).append (Doc.Lexes.nest (body.lexes spans)).here
  | value e =>
    refine ((Doc.LexesAt.spacedArrow hfront).append ?_).of_eq rfl
    exact (((e.docLexes _).append .semi).concat).ahead_of_any.here
  | block body =>
    obtain ⟨d, hd, hbody⟩ := (StmtTree.block body).lexes spans
    have harrow : (Doc.text " -> " ++ Doc.concat [d]).LexesAt indent depth front
        (Edge.operator.Holds ·) (RuleBody.block body).braced.symbols :=
      (Doc.LexesAt.spacedArrow hfront).append hbody.concat.ahead_of_any.here
    rw [← hd] at harrow
    exact harrow

namespace SwitchTree

variable (t : SwitchTree)

/-- The document of the rule. -/
theorem lexes_rule (spans : Spans) :
    (Doc.concat (t.rule spans).docs).Lexes .any .operator t.braced.ruleSymbols := by
  have hends (rest : List Char) : EndsName ((if t.body.isArrow then ' ' else ':') :: rest) := by
    cases t.body.isArrow
    · exact .cons rfl (by decide) _
    · exact .cons rfl (by decide) _
  have hhead := Doc.Lexes.caseHead.append (t.guard.docLexes (spans.below 0))
  exact .of_here fun {_ _} => (hhead.here.append (t.body.lexesAt (spans.below 1) hends)).concat

/-- The symbols of a switch, by the pieces that it is written in. -/
theorem symbols_eq : t.symbols =
    [TokenKind.switchKw.symbol, TokenKind.lparen.symbol] ++ t.value.grouped.symbols ++
      [TokenKind.rparen.symbol] ++ t.blockSymbols := by
  simp only [symbols, OpTree.condition, List.cons_append, List.nil_append, List.append_assoc]

/-- **The document of a switch statement lexes to its symbols.** -/
theorem lexes_stmt (spans : Spans) :
    (Doc.concat (t.stmt spans).docs).Lexes .any .any t.braced.symbols := by
  have hhead := (Doc.Lexes.switchHead.append (t.value.docLexes (spans.below 0))).append .headEnd
  have hrule := t.lexes_rule (spans.below 2)
  exact .of_here fun {_ _} =>
    (hhead.here.append hrule.here.braces.concat).concat.of_eq t.braced.symbols_eq.symm

/-- **The document of a switch expression lexes to its symbols.** -/
theorem lexes_expr (spans : Spans) :
    (Doc.concat (t.expr spans).docs).Lexes .any .any t.braced.symbols := by
  have hrule := t.lexes_rule (spans.below 2)
  exact .of_here fun {_ _} =>
    (Doc.LexesAt.switch t.value _ hrule.here).concat.of_eq t.braced.symbols_eq.symm

end SwitchTree

end JavaSource
