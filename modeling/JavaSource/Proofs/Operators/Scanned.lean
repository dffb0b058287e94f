import JavaSource.Proofs.Operators.Grouping
import JavaSource.Proofs.Tokens

/-!
# Operator trees as they are scanned

The text of a layered tree lexes to its symbols (`OpTree.lexes`).  Signs do not run together: what
an operator in front applies to starts with a name, a parenthesis, or an operator that has a blank
in front of it if it starts with the same sign (`OpTree.starts`).
-/

namespace JavaSource

open Grammar (Symbol)
open Lexer (gap lexeme)
open Text (isNameStart isNamePart isLineBreak isSpacing)

/-! ### Words -/

/-- Whether a name is over where some characters follow. -/
def EndsName (rest : List Char) : Prop :=
  (∀ c ∈ rest.head?, isNamePart c = false) ∧ ¬ "-sealed".toList <+: rest

theorem EndsName.cons {c : Char} (hc : isNamePart c = false) (hne : c ≠ '-') (cs : List Char) :
    EndsName (c :: cs) := by
  refine ⟨fun d hd => ?_, fun hstart => ?_⟩
  · cases hd
    exact hc
  · exact hne (List.cons_prefix_cons.mp hstart).1.symm

namespace Lexes

variable {cs rest : List Char} {ss : List Symbol}

/-- The part of a text that makes one word. -/
theorem takeWhile_word {word : List Char} (hword : ∀ c ∈ word, isNamePart c = true)
    (hends : EndsName rest) : (word ++ rest).takeWhile isNamePart = word := by
  have hrest : rest.takeWhile isNamePart = [] := by
    cases rest with
    | nil => rfl
    | cons c rest => exact List.takeWhile_cons_of_neg (by rw [hends.1 c rfl]; nofun)
  rw [List.takeWhile_append_of_pos hword, hrest, List.append_nil]

theorem lexeme_word {c : Char} {word : List Char} (hc : isNameStart c = true)
    (hword : ∀ d ∈ word, isNamePart d = true) (hends : EndsName rest) :
    lexeme c (word ++ rest) = ⟨word.length + 1,
      .ok ((TokenKind.keyword? (String.ofList (c :: word))).getD .identifier)⟩ := by
  have hall : ∀ d ∈ c :: word, isNamePart d = true :=
    List.forall_mem_cons.mpr ⟨Lexer.isNamePart_of_isNameStart hc, hword⟩
  have hsealed : "-sealed".toList.isPrefixOf rest = false := by
    rw [Bool.eq_false_iff, Ne, List.isPrefixOf_iff_prefix]
    exact hends.2
  rw [lexeme_of_isNameStart hc]
  unfold Lexer.word
  rw [← List.cons_append]
  have hdrop : (c :: word ++ rest).drop (word.length + 1) = rest := List.drop_left
  simp only [takeWhile_word hall hends, List.length_cons, hdrop, hsealed, Bool.and_false,
    Bool.false_and, Bool.false_eq_true, if_false]

theorem gap_word {c : Char} (hc : isNameStart c = true) (cs : List Char) :
    gap (c :: cs) = ⟨0, none⟩ := by
  have hne (d : Char) (hd : isNameStart d = false) : (c == d) = false :=
    beq_eq_false_iff_ne.mpr (ne_of_isNameStart hc hd)
  refine gap_cons ?_ fun heq => absurd heq (ne_of_isNameStart hc (by decide))
  simp only [isLineBreak, isSpacing, hne '\n' (by decide), hne '\r' (by decide),
    hne ' ' (by decide), hne '\t' (by decide), hne '\x0c' (by decide), Bool.or_self]

/-- A reserved word is written as a name is. -/
theorem isName_of_keyword {c : Char} {w : List Char} {kind : TokenKind}
    (hword : TokenKind.keyword? (String.ofList (c :: w)) = some kind) :
    isNameStart c = true ∧ ∀ d ∈ w, isNamePart d = true := by
  have hall : ∀ k ∈ TokenKind.keywords, ∀ text ∈ k.text?,
      text.toList.head?.any isNameStart = true ∧ text.toList.tail.all isNamePart = true := by
    decide +kernel
  have hname := hall _ (List.mem_of_find?_eq_some hword) _ (Lexer.keyword_spelled hword).2
  rw [String.toList_ofList] at hname
  exact ⟨hname.1, List.all_eq_true.mp hname.2⟩

/-- A reserved word. -/
theorem keyword {c : Char} {w : List Char} {kind : TokenKind}
    (hword : TokenKind.keyword? (String.ofList (c :: w)) = some kind) (hends : EndsName rest)
    (h : Lexes rest ss) : Lexes (c :: w ++ rest) (kind.symbol :: ss) := by
  obtain ⟨hc, hw⟩ := isName_of_keyword hword
  obtain ⟨⟨heof, -⟩, hspelled⟩ := Lexer.keyword_spelled hword
  have hgt : kind ≠ .gt := by
    have hmem := List.mem_of_find?_eq_some hword
    rintro rfl
    revert hmem
    decide
  have hlexeme := lexeme_word hc hw hends
  rw [hword] at hlexeme
  exact h.symbol (gap_word hc _) hlexeme hspelled heof hgt

theorem name (n : LegalName) (hends : EndsName rest) (h : Lexes rest ss) :
    Lexes (n.chars ++ rest) (n.symbol :: ss) := by
  have hne : TokenKind.identifier ≠ .gt := nofun
  have hlexeme : lexeme n.first (n.others ++ rest) = ⟨n.others.length + 1, .ok .identifier⟩ := by
    rw [lexeme_word n.starts n.continues hends, n.free]
    rfl
  have hword := h.word (gap_word n.starts _) hlexeme nofun
  rw [touchesNext_of_ne hne] at hword
  exact hword

/-! ### Operators -/

theorem touchesNext_blank (kind : TokenKind) (cs : List Char) (ss : List Symbol) :
    touchesNext kind (' ' :: cs) ss = false := by
  have hgap : (gap (' ' :: cs)).length = 1 + (gap cs).length := by
    rw [gap_blank]
    rfl
  rw [touchesNext, hgap, beq_eq_false_iff_ne.mpr (by omega), Bool.false_and]

/-- A `>` in front of a blank. -/
theorem gt_blank (h : Lexes cs ss) : Lexes ('>' :: ' ' :: cs) (⟨.gt, ">", false⟩ :: ss) := by
  have hlexeme : lexeme '>' ([] ++ ' ' :: cs) = ⟨1, .ok .gt⟩ := rfl
  have hgap : gap ('>' :: ([] ++ ' ' :: cs)) = ⟨0, none⟩ := gap_cons rfl nofun
  have hword := h.blank.word hgap hlexeme (by decide)
  rwa [touchesNext_blank] at hword

/-- A `>` in front of a `>`. -/
theorem gt_gt {touches : Bool} (hlexeme : lexeme '>' ('>' :: cs) = ⟨1, .ok .gt⟩)
    (h : Lexes ('>' :: cs) (⟨.gt, ">", touches⟩ :: ss)) :
    Lexes ('>' :: '>' :: cs) (⟨.gt, ">", true⟩ :: ⟨.gt, ">", touches⟩ :: ss) := by
  have hlexeme : lexeme '>' ([] ++ '>' :: cs) = ⟨1, .ok .gt⟩ := hlexeme
  have hgap (cs : List Char) : gap ('>' :: cs) = ⟨0, none⟩ := gap_cons rfl nofun
  have hword := h.word (hgap _) hlexeme (by decide)
  rwa [touchesNext, hgap] at hword

/-- A binary operator between blanks. -/
theorem binary (op : BinaryOp) (h : Lexes cs ss) :
    Lexes (' ' :: (op.text.toList ++ ' ' :: cs)) (op.symbols ++ ss) := by
  refine blank ?_
  cases op
  case gt => exact h.gt_blank
  case rshift => exact h.gt_blank.gt_gt rfl
  case urshift => exact (h.gt_blank.gt_gt rfl).gt_gt rfl
  case div =>
    exact h.blank.symbol (gap_cons rfl fun _ d hd => by cases hd; decide) rfl rfl nofun nofun
  all_goals exact h.blank.symbol (gap_cons rfl nofun) rfl rfl nofun nofun

/-- An assignment operator between blanks. -/
theorem assignment (op : Option AssignOp) (h : Lexes cs ss) :
    Lexes (' ' :: (op.elim ['='] (·.text.toList) ++ ' ' :: cs))
      ((op.elim TokenKind.assign AssignOp.kind).symbol :: ss) := by
  refine blank ?_
  cases op with
  | none => exact h.blank.symbol (gap_cons rfl nofun) rfl rfl nofun nofun
  | some op =>
    cases op
    case div =>
      exact h.blank.symbol (gap_cons rfl fun _ d hd => by cases hd; decide) rfl rfl nofun nofun
    all_goals exact h.blank.symbol (gap_cons rfl nofun) rfl rfl nofun nofun

/-- An operator behind its operand. -/
theorem post (op : PostOp) (h : Lexes cs ss) :
    Lexes (op.text.toList ++ cs) (op.kind.symbol :: ss) := by
  cases op
  all_goals exact h.symbol (gap_cons rfl nofun) rfl rfl nofun nofun

end Lexes

/-- What does not make another operator of one in front of it. -/
def keepsApart (op : UnaryOp) (c : Char) : Prop :=
  c ≠ '=' ∧ c ≠ '>' ∧ op.sign? ≠ some c

namespace Lexes

variable {cs rest : List Char} {ss : List Symbol}

/-- An operator in front of what keeps apart from it. -/
theorem unary (op : UnaryOp) {c : Char} (hc : keepsApart op c) (h : Lexes (c :: cs) ss) :
    Lexes (op.text.toList ++ c :: cs) (op.kind.symbol :: ss) := by
  obtain ⟨hassign, harrow, hsign⟩ := hc
  cases op with
  | preInc => exact h.symbol (gap_cons rfl nofun) rfl rfl nofun nofun
  | preDec => exact h.symbol (gap_cons rfl nofun) rfl rfl nofun nofun
  | invert => exact h.symbol (gap_cons rfl nofun) rfl rfl nofun nofun
  | plus =>
    have hsymbol : Lexer.symbol ('+' :: c :: cs) = some (1, .add) := by
      rw [Lexer.symbol]
      all_goals
        rintro _ ⟨⟩
        first | exact hassign rfl | exact harrow rfl | exact hsign rfl
    exact h.symbol (gap_cons rfl nofun) (lexeme_of_symbol rfl nofun hsymbol) rfl nofun nofun
  | minus =>
    have hsymbol : Lexer.symbol ('-' :: c :: cs) = some (1, .sub) := by
      rw [Lexer.symbol]
      all_goals
        rintro _ ⟨⟩
        first | exact hassign rfl | exact harrow rfl | exact hsign rfl
    exact h.symbol (gap_cons rfl nofun) (lexeme_of_symbol rfl nofun hsymbol) rfl nofun nofun
  | not =>
    have hsymbol : Lexer.symbol ('!' :: c :: cs) = some (1, .bang) := by
      rw [Lexer.symbol]
      rintro _ ⟨⟩
      exact hassign rfl
    exact h.symbol (gap_cons rfl nofun) (lexeme_of_symbol rfl nofun hsymbol) rfl nofun nofun

end Lexes

/-! ### Operands -/

/-- What an operand starts with that holds together as tightly as a postfix expression. -/
def StartsOperand (cs : List Char) : Prop :=
  ∃ c rest, cs = c :: rest ∧ (isNameStart c = true ∨ c = '(')

theorem StartsOperand.append {cs : List Char} (h : StartsOperand cs) (rest : List Char) :
    StartsOperand (cs ++ rest) := by
  obtain ⟨c, cs, rfl, hc⟩ := h
  exact ⟨c, cs ++ rest, rfl, hc⟩

theorem OpHead.starts (h : OpHead) : StartsOperand h.chars := by
  cases h with
  | name n => exact ⟨n.first, n.others, rfl, .inl n.starts⟩
  | call n _ => exact ⟨n.first, _, rfl, .inl n.starts⟩

theorem OpTree.starts : (t : OpTree) → t.Layered → Level.post.rank ≤ t.rank →
    StartsOperand t.chars
  | .head h, _, _ => h.starts
  | .paren _, _, _ => ⟨'(', _, rfl, .inr rfl⟩
  | .post _ operand, h, _ => (operand.starts h.2 h.1).append _
  | .index receiver _, h, _ =>
    ((receiver.starts h.2.1 (Nat.le_trans (by decide) h.1)).append _).append _
  | .member receiver _, h, _ => (receiver.starts h.2.1 (Nat.le_trans (by decide) h.1)).append _
  | .binary op _ _, _, hrank =>
    absurd (Nat.lt_of_le_of_lt hrank op.level_lt_unary) (by decide)
  | .unary _ _, _, hrank => absurd hrank (show ¬Level.post.rank ≤ Level.unary.rank by decide)
  | .conditional _ _ _, _, hrank =>
    absurd hrank (show ¬Level.post.rank ≤ Level.ternary.rank by decide)
  | .assignment _ _ _, _, hrank =>
    absurd hrank (show ¬Level.post.rank ≤ Level.assignment.rank by decide)

theorem keepsApart_blank (op : UnaryOp) : keepsApart op ' ' :=
  ⟨by decide, by decide, by cases op <;> decide⟩

theorem keepsApart_of_starts {op : UnaryOp} {c : Char} (h : isNameStart c = true ∨ c = '(') :
    keepsApart op c := by
  rcases h with h | rfl
  · refine ⟨ne_of_isNameStart h (by decide), ne_of_isNameStart h (by decide), fun hsign => ?_⟩
    cases op <;> cases hsign <;> exact absurd h (by decide)
  · refine ⟨by decide, by decide, ?_⟩
    cases op <;> decide

/-- An operator keeps apart from another one that does not start with its sign. -/
theorem UnaryOp.keepsApart (op inner : UnaryOp)
    (h : (op.sign?.isSome && op.sign? == inner.sign?) = false) :
    ∃ c rest, inner.text.toList = c :: rest ∧ JavaSource.keepsApart op c := by
  cases inner
  case plus => exact ⟨'+', [], rfl, by decide, by decide, by cases op <;> first | decide | cases h⟩
  case minus => exact ⟨'-', [], rfl, by decide, by decide, by cases op <;> first | decide | cases h⟩
  case preInc =>
    exact ⟨'+', ['+'], rfl, by decide, by decide, by cases op <;> first | decide | cases h⟩
  case preDec =>
    exact ⟨'-', ['-'], rfl, by decide, by decide, by cases op <;> first | decide | cases h⟩
  case invert => exact ⟨'~', [], rfl, by decide, by decide, by cases op <;> decide⟩
  case not => exact ⟨'!', [], rfl, by decide, by decide, by cases op <;> decide⟩

/-- An operator keeps apart from its operand if they do not clash. -/
theorem OpTree.keepsApart (op : UnaryOp) : {t : OpTree} → t.Layered →
    Level.unary.rank ≤ t.rank → t.clashes op = false →
    ∃ c rest, t.chars = c :: rest ∧ JavaSource.keepsApart op c
  | .unary inner operand, _, _, hclash => by
    obtain ⟨c, rest, htext, hc⟩ := op.keepsApart inner hclash
    exact ⟨c, _, by rw [OpTree.chars, htext]; rfl, hc⟩
  | .binary inner _ _, _, hrank, _ => absurd inner.level_lt_unary (Nat.not_lt.mpr hrank)
  | .conditional _ _ _, _, hrank, _ =>
    absurd hrank (show ¬Level.unary.rank ≤ Level.ternary.rank by decide)
  | .assignment _ _ _, _, hrank, _ =>
    absurd hrank (show ¬Level.unary.rank ≤ Level.assignment.rank by decide)
  | .post _ _, h, _, _ => operand h (Nat.le_refl Level.post.rank)
  | .head _, h, _, _ => operand h (show Level.post.rank ≤ Level.primary.rank by decide)
  | .paren _, h, _, _ => operand h (show Level.post.rank ≤ Level.primary.rank by decide)
  | .index _ _, h, _, _ => operand h (show Level.post.rank ≤ Level.primary.rank by decide)
  | .member _ _, h, _, _ => operand h (show Level.post.rank ≤ Level.primary.rank by decide)
where
  operand {t : OpTree} (h : t.Layered) (hrank : Level.post.rank ≤ t.rank) :
      ∃ c rest, t.chars = c :: rest ∧ JavaSource.keepsApart op c := by
    obtain ⟨c, rest, hchars, hc⟩ := t.starts h hrank
    exact ⟨c, rest, hchars, keepsApart_of_starts hc⟩

/-! ### Expressions -/

namespace Lexes

variable {rest : List Char} {ss : List Symbol}

/-- A dot in front of a name. -/
theorem dot {cs : List Char} (hstarts : ∀ c ∈ cs.head?, isNameStart c = true) (h : Lexes cs ss) :
    Lexes ('.' :: cs) (TokenKind.dot.symbol :: ss) := by
  have hlexeme : lexeme '.' cs = ⟨1, .ok .dot⟩ := by
    cases cs with
    | nil => rfl
    | cons c cs =>
      have hc : isNameStart c = true := hstarts c rfl
      have hsymbol : Lexer.symbol ('.' :: c :: cs) = some (1, .dot) := by
        rw [Lexer.symbol]
        rintro _ ⟨⟩
        exact absurd hc (by decide)
      rw [lexeme, List.head?_cons, Option.any_some, isDecimalDigit_of_isNameStart hc, hsymbol]
      rfl
  exact h.sign rfl (by decide) hlexeme rfl (by decide) (by decide)

/-- Parentheses around something. -/
theorem parenthesized {inner : List Char} {symbols : List Symbol} (h : Lexes rest ss)
    (hinner : ∀ {cs ss}, EndsName cs → Lexes cs ss → Lexes (inner ++ cs) (symbols ++ ss)) :
    Lexes ('(' :: (inner ++ ')' :: rest))
      (TokenKind.lparen.symbol :: (symbols ++ TokenKind.rparen.symbol :: ss)) := by
  have hclose : Lexes (')' :: rest) (TokenKind.rparen.symbol :: ss) := h.single rfl
  exact (hinner (.cons rfl (by decide) _) hclose).single rfl

end Lexes

/-- Both operators behind an operand start with a sign. -/
theorem EndsName.post (op : PostOp) (cs : List Char) : EndsName (op.text.toList ++ cs) := by
  cases op with
  | postInc => exact .cons rfl (by decide) _
  | postDec =>
    refine ⟨fun d hd => ?_, fun hstart => ?_⟩
    · cases hd
      rfl
    · exact absurd (List.cons_prefix_cons.mp (List.cons_prefix_cons.mp hstart).2).1 (by decide)

mutual

/-- **The text of a layered tree lexes to its symbols**, whatever follows that does not run on. -/
theorem OpTree.lexes {rest : List Char} {ss : List Symbol} (hends : EndsName rest)
    (hrest : Lexes rest ss) : (t : OpTree) → t.Layered →
      Lexes (t.chars ++ rest) (t.symbols ++ ss)
  | .head h, hlayered => h.lexes hends hrest hlayered
  | .paren inner, hlayered => by
    have hlexes := hrest.parenthesized fun hcs h => inner.lexes hcs h hlayered
    simpa only [OpTree.chars, OpTree.symbols, List.cons_append, List.append_assoc,
      List.nil_append] using hlexes
  | .binary op left right, hlayered => by
    have hright := right.lexes hends hrest hlayered.2.2.2
    have hleft := left.lexes (.cons rfl (by decide) _) (hright.binary op) hlayered.2.2.1
    simpa only [OpTree.chars, OpTree.symbols, List.cons_append, List.append_assoc] using hleft
  | .unary op operand, hlayered => by
    have hoperand := operand.lexes hends hrest hlayered.2
    by_cases hclash : operand.clashes op
    · have hunary := hoperand.blank.unary op (keepsApart_blank op)
      simpa only [OpTree.chars, OpTree.symbols, hclash, if_true, List.cons_append,
        List.append_assoc, List.nil_append] using hunary
    · obtain ⟨c, cs, hchars, hc⟩ :=
        OpTree.keepsApart op hlayered.2 hlayered.1 (Bool.eq_false_iff.mpr hclash)
      rw [hchars] at hoperand
      have hunary : Lexes (op.text.toList ++ c :: (cs ++ rest)) _ := hoperand.unary op hc
      simpa only [OpTree.chars, OpTree.symbols, hclash, if_false, Bool.false_eq_true, hchars,
        List.cons_append, List.append_assoc, List.nil_append, List.append_nil] using hunary
  | .post op operand, hlayered => by
    have hoperand := operand.lexes (.post op rest) (hrest.post op) hlayered.2
    simpa only [OpTree.chars, OpTree.symbols, List.cons_append, List.append_assoc,
      List.nil_append] using hoperand
  | .conditional test body orelse, hlayered => by
    obtain ⟨-, -, htest, hbody, horelse⟩ := hlayered
    have hcolon : Lexes (':' :: ' ' :: (orelse.chars ++ rest))
        (TokenKind.colon.symbol :: (orelse.symbols ++ ss)) :=
      (orelse.lexes hends hrest horelse).blank.sign rfl (by decide) rfl rfl nofun nofun
    have hbody := body.lexes (.cons rfl (by decide) _) hcolon.blank hbody
    have hquestion : Lexes ('?' :: ' ' :: (body.chars ++ ' ' :: ':' :: ' ' ::
        (orelse.chars ++ rest))) (TokenKind.question.symbol :: (body.symbols ++
          TokenKind.colon.symbol :: (orelse.symbols ++ ss))) := hbody.blank.single rfl
    have htest := test.lexes (.cons rfl (by decide) _) hquestion.blank htest
    simpa [OpTree.chars, OpTree.symbols] using htest
  | .assignment op target value, hlayered => by
    have hvalue := value.lexes hends hrest hlayered.2.2
    have htarget := target.lexes (.cons rfl (by decide) _) (hvalue.assignment op) hlayered.2.1
    simpa only [OpTree.chars, OpTree.symbols, List.cons_append, List.append_assoc] using htarget
  | .index receiver inner, hlayered => by
    have hclose : Lexes (']' :: rest) (TokenKind.rbrack.symbol :: ss) := hrest.single rfl
    have hinner := inner.lexes (.cons rfl (by decide) _) hclose hlayered.2.2
    have hopen : Lexes ('[' :: (inner.chars ++ ']' :: rest)) (TokenKind.lbrack.symbol ::
        (inner.symbols ++ TokenKind.rbrack.symbol :: ss)) := hinner.single rfl
    have hlexes := receiver.lexes (.cons rfl (by decide) _) hopen hlayered.2.1
    simpa only [OpTree.chars, OpTree.symbols, List.cons_append, List.append_assoc,
      List.nil_append] using hlexes
  | .member receiver selected, hlayered => by
    have hselected := selected.lexes hends hrest hlayered.2.2
    have hlexes := receiver.lexes (.cons rfl (by decide) _) (hselected.dot ?_) hlayered.2.1
    · simpa only [OpTree.chars, OpTree.symbols, List.cons_append, List.append_assoc] using hlexes
    · cases selected with
      | name n => exact fun c hc => Option.some.inj hc ▸ n.starts
      | call n args => exact fun c hc => Option.some.inj hc ▸ n.starts

theorem OpHead.lexes {rest : List Char} {ss : List Symbol} (hends : EndsName rest)
    (hrest : Lexes rest ss) : (h : OpHead) → h.Layered →
      Lexes (h.chars ++ rest) (h.symbols ++ ss)
  | .name n, _ => hrest.name n hends
  | .call n args, hlayered => by
    have hlead {cs : List Char} {ss : List Symbol} (h : Lexes cs ss) :
        Lexes ([] ++ cs) ([] ++ ss) := h
    have hargs {cs : List Char} {ss : List Symbol} (hcs : EndsName cs) (h : Lexes cs ss) :
        Lexes (args.chars [] ++ cs) (args.symbols [] ++ ss) := args.lexes hlead hcs h hlayered
    have hlexes := (hrest.parenthesized hargs).name n (.cons rfl (by decide) _)
    simpa only [OpHead.chars, OpHead.symbols, List.cons_append, List.append_assoc,
      List.nil_append] using hlexes

/-- Several expressions in front of something that lexes if the first separator does. -/
theorem OpTrees.lexes {lead : List Char} {symbols : List Symbol}
    (hlead : ∀ {cs ss}, Lexes cs ss → Lexes (lead ++ cs) (symbols ++ ss))
    {rest : List Char} {ss : List Symbol} (hends : EndsName rest) (hrest : Lexes rest ss) :
    (ts : OpTrees) → ts.Layered → Lexes (ts.chars lead ++ rest) (ts.symbols symbols ++ ss)
  | .nil, _ => hrest
  | .cons first others, hlayered => by
    have hcomma {cs : List Char} {ss : List Symbol} (h : Lexes cs ss) :
        Lexes ([',', ' '] ++ cs) ([TokenKind.comma.symbol] ++ ss) := h.blank.single rfl
    have hothers := others.lexes hcomma hends hrest hlayered.2
    have hlexes := hlead (first.lexes ?_ hothers hlayered.1)
    · simpa only [OpTrees.chars, OpTrees.symbols, List.append_assoc] using hlexes
    · cases others with
      | nil => exact hends
      | cons _ _ => exact .cons rfl (by decide) _

end

end JavaSource
