import JavaSource.Proofs.Numbers.Integers
import JavaSource.Proofs.Operators.Printed
import JavaSource.Proofs.Operators.Scanned

/-!
# Integers as they are written

Text of the form of an integer literal is read as one token where neither a letter nor a digit
follows, an underscore or a dot (`IntegerForm.lexes`).  What is written for an integer is of that
form, in base ten or sixteen, and stands for the integer (`integerText_eq`, `value_writing`).

* `integerText_readsBack`: an integer that is written is read as itself.
-/

namespace JavaSource

open Grammar (Symbol)
open Lexer (decimalNumeral decimalTail digitRun digitRun_append exponent gap hexNumeral hexTail
  binaryNumeral integerSuffix isFloatSuffix isRagged_of_isRun lexeme number numeral past)
open Text (digitValue isDecimalDigit isBinaryDigit isHexDigit isLineBreak isSpacing)

variable {c : Char} {cs rest tail : List Char}

/-! ### Reading what is of the form of a number -/

/-- Where a number is over: neither a letter nor a digit follows, an underscore or a dot. -/
def EndsNumber (rest : List Char) : Prop :=
  ∀ c ∈ rest.head?, digitValue c = 36 ∧ c ≠ '_' ∧ c ≠ '.'

/-- What may stand behind the digits of an integer: a suffix, or what does not belong to it. -/
def EndsDigits (tail : List Char) : Prop :=
  ∀ c ∈ tail.head?, (c = 'l' ∨ c = 'L') ∨ digitValue c = 36 ∧ c ≠ '_' ∧ c ≠ '.'

theorem EndsNumber.behind_suffix (h : EndsNumber rest) {suffix : Option Char}
    (hsuffix : ∀ c ∈ suffix, c = 'l' ∨ c = 'L') : EndsDigits (suffix.toList ++ rest) := by
  cases suffix with
  | none => exact fun c hc => .inr (h c hc)
  | some l => exact fun c hc => .inl (Option.some.inj hc ▸ hsuffix l rfl)

namespace EndsDigits

/-- No letter but the suffix can go on with a number. -/
theorem head_ne (h : EndsDigits tail) (hc : c ∈ tail.head?) (d : Char)
    (hd : (d ≠ 'l' ∧ d ≠ 'L') ∧ (digitValue d ≠ 36 ∨ d = '_' ∨ d = '.')) : c ≠ d := by
  rintro rfl
  rcases h c hc with hsuffix | ⟨hvalue, hscore, hdot⟩
  · exact hsuffix.elim hd.1.1 hd.1.2
  · rcases hd.2 with h36 | h_ | h_
    · exact h36 hvalue
    · exact hscore h_
    · exact hdot h_

theorem isDigit_eq_false (h : EndsDigits tail) (mark : BaseMark) (hc : c ∈ tail.head?) :
    mark.isDigit c = false ∧ c ≠ '_' := by
  refine ⟨Bool.eq_false_iff.mpr fun hdigit => ?_, h.head_ne hc '_' (by decide)⟩
  have hlt := mark.digitValue_lt hdigit
  rcases h c hc with (rfl | rfl) | ⟨hvalue, -, -⟩
  · exact absurd hlt (by decide)
  · exact absurd hlt (by decide)
  · omega

end EndsDigits

namespace Lexer

theorem integerSuffix_append {suffix : Option Char} (hsuffix : ∀ c ∈ suffix, c = 'l' ∨ c = 'L')
    (hrest : EndsNumber rest) :
    integerSuffix (suffix.toList ++ rest) = (suffix.toList.length, some .integerLiteral) := by
  cases suffix with
  | some c => rcases hsuffix c rfl with rfl | rfl <;> rfl
  | none =>
    rw [Option.toList_none, List.nil_append]
    unfold integerSuffix
    split
    · exact absurd (hrest 'l' rfl).1 (by decide)
    · exact absurd (hrest 'L' rfl).1 (by decide)
    · rfl

/-- There is no exponent without its mark. -/
theorem exponent_eq_zero {marks : List Char} (h : ∀ c ∈ tail.head?, c ∉ marks) :
    exponent marks tail = (0, true) := by
  cases tail with
  | nil => rfl
  | cons c cs =>
    rw [exponent, if_neg]
    intro hmem
    exact h c rfl (List.contains_iff_mem.mp hmem)

variable {run : List Char}

theorem binaryNumeral_append (hrun : IsRun isBinaryDigit run) (htail : EndsDigits tail) :
    binaryNumeral (run ++ tail) = past run.length (integerSuffix tail) := by
  have hdigits : digitRun isBinaryDigit (run ++ tail) = run :=
    digitRun_append hrun fun c hc => htail.isDigit_eq_false (.binary false) hc
  unfold binaryNumeral
  dsimp only
  rw [hdigits, isRagged_of_isRun hrun, List.isEmpty_eq_false_iff.mpr hrun.ne_nil, List.drop_left]
  rfl

theorem hexNumeral_append (hrun : IsRun isHexDigit run) (htail : EndsDigits tail) :
    hexNumeral (run ++ tail) = past run.length (integerSuffix tail) := by
  have hdigits : digitRun isHexDigit (run ++ tail) = run :=
    digitRun_append hrun fun c hc => htail.isDigit_eq_false (.hexadecimal false) hc
  have hexponent : exponent ['p', 'P'] tail = (0, true) := by
    refine exponent_eq_zero fun c hc hmark => ?_
    rcases List.mem_pair.mp hmark with rfl | rfl
    · exact htail.head_ne hc 'p' (by decide) rfl
    · exact htail.head_ne hc 'P' (by decide) rfl
  unfold hexNumeral
  dsimp only
  rw [hdigits, isRagged_of_isRun hrun, List.isEmpty_eq_false_iff.mpr hrun.ne_nil, List.drop_left,
    if_neg Bool.false_ne_true]
  split
  · exact absurd rfl (htail.head_ne rfl '.' (by decide))
  · rw [if_neg Bool.false_ne_true, hexTail, hexponent]
    rfl

theorem decimalNumeral_append (hrun : IsRun isDecimalDigit run) (htail : EndsDigits tail) :
    decimalNumeral (run ++ tail) = past run.length (integerSuffix tail) := by
  have hdigits : digitRun isDecimalDigit (run ++ tail) = run :=
    digitRun_append hrun fun c hc => htail.isDigit_eq_false .none hc
  have hexponent : exponent ['e', 'E'] tail = (0, true) := by
    refine exponent_eq_zero fun c hc hmark => ?_
    rcases List.mem_pair.mp hmark with rfl | rfl
    · exact htail.head_ne hc 'e' (by decide) rfl
    · exact htail.head_ne hc 'E' (by decide) rfl
  have hfloat : tail.head?.any isFloatSuffix = false := by
    cases tail with
    | nil => rfl
    | cons c cs =>
      have hne (d : Char) (hd) : (c == d) = false :=
        beq_eq_false_iff_ne.mpr (htail.head_ne rfl d hd)
      rw [List.head?_cons, Option.any_some, isFloatSuffix, hne 'f' (by decide), hne 'F' (by decide),
        hne 'd' (by decide), hne 'D' (by decide)]
      rfl
  unfold decimalNumeral
  dsimp only
  rw [hdigits, isRagged_of_isRun hrun, List.drop_left, if_neg Bool.false_ne_true]
  split
  · exact absurd rfl (htail.head_ne rfl '.' (by decide))
  · rw [decimalTail, hexponent]
    dsimp only
    rw [List.drop_zero, hfloat]
    exact congrArg (past run.length) (Prod.ext (Nat.zero_add _) rfl)

/-- Behind the first digit of a run there is no mark of a base. -/
theorem second_ne {d : Char} (hrun : IsRun isDecimalDigit run) (htail : EndsDigits tail)
    (h : run ++ tail = c :: d :: cs) (e : Char)
    (he : 10 ≤ digitValue e ∧ digitValue e ≠ 36 ∧ e ≠ 'l' ∧ e ≠ 'L') : d ≠ e := by
  rcases run with _ | ⟨c', _ | ⟨d', run⟩⟩
  · exact absurd rfl hrun.ne_nil
  · -- The run is one digit, and what follows is behind it.
    obtain ⟨-, rfl⟩ := List.cons.inj h
    exact htail.head_ne rfl e ⟨he.2.2, .inl he.2.1⟩
  · obtain ⟨rfl, -⟩ := List.cons.inj (List.cons.inj h).2
    rintro rfl
    rcases hrun.continues d' (List.mem_cons_of_mem _ List.mem_cons_self) with hdigit | rfl
    · exact absurd (digitValue_of_isDecimalDigit hdigit) (Nat.not_lt.mpr he.1)
    · exact absurd he (by decide)

theorem numeral_append (hrun : IsRun isDecimalDigit run) (htail : EndsDigits tail) :
    numeral (run ++ tail) = decimalNumeral (run ++ tail) := by
  unfold numeral
  split
  · exact absurd rfl (second_ne hrun htail ‹_› 'x' (by decide))
  · exact absurd rfl (second_ne hrun htail ‹_› 'X' (by decide))
  · exact absurd rfl (second_ne hrun htail ‹_› 'b' (by decide))
  · exact absurd rfl (second_ne hrun htail ‹_› 'B' (by decide))
  · rfl

end Lexer

namespace IntegerForm

variable (form : IntegerForm)

theorem length_chars : form.chars.length =
    form.mark.chars.length + (form.run.length + form.suffix.toList.length) := by
  rw [chars, List.length_append, List.length_append]

/-- Text of the form of an integer is read as one. -/
theorem numeral_chars (hrest : EndsNumber rest) :
    numeral (form.chars ++ rest) = (form.chars.length, some .integerLiteral) := by
  rw [length_chars]
  obtain ⟨mark, run, suffix, hrun, hsuffix⟩ := form
  have htail := hrest.behind_suffix hsuffix
  have hread := Lexer.integerSuffix_append hsuffix hrest
  rw [chars, List.append_assoc, List.append_assoc]
  dsimp only
  cases mark with
  | hexadecimal upper =>
    have hnumeral : numeral ((BaseMark.hexadecimal upper).chars ++
        (run ++ (suffix.toList ++ rest))) =
          past 2 (hexNumeral (run ++ (suffix.toList ++ rest))) := by cases upper <;> rfl
    rw [hnumeral, Lexer.hexNumeral_append hrun htail, hread]
    rfl
  | binary upper =>
    have hnumeral : numeral ((BaseMark.binary upper).chars ++ (run ++ (suffix.toList ++ rest))) =
        past 2 (binaryNumeral (run ++ (suffix.toList ++ rest))) := by cases upper <;> rfl
    rw [hnumeral, Lexer.binaryNumeral_append hrun htail, hread]
    rfl
  | none =>
    have hdecimal := Lexer.decimalNumeral_append hrun htail
    rw [hread] at hdecimal
    exact (Lexer.numeral_append hrun htail).trans
      (hdecimal.trans (Prod.ext (Nat.zero_add _).symm rfl))

/-- A literal starts with a digit. -/
theorem starts : ∃ c cs, form.chars = c :: cs ∧ isDecimalDigit c = true := by
  obtain ⟨mark, run, suffix, hrun, hsuffix⟩ := form
  cases mark with
  | none =>
    obtain ⟨c, hc, hdigit⟩ := hrun.starts
    obtain ⟨cs, rfl⟩ := List.head?_eq_some_iff.mp hc
    exact ⟨c, _, rfl, hdigit⟩
  | binary upper => exact ⟨'0', _, rfl, by decide⟩
  | hexadecimal upper => exact ⟨'0', _, rfl, by decide⟩

/-- **Text of the form of an integer is one token** where it is over. -/
theorem lexes {ss : List Symbol} (hends : EndsNumber rest) (hrest : Lexes rest ss) :
    Lexes (form.chars ++ rest) (⟨.integerLiteral, String.ofList form.chars, false⟩ :: ss) := by
  have hnumeral := form.numeral_chars hends
  obtain ⟨c, cs, hchars, hdigit⟩ := form.starts
  rw [hchars] at hnumeral ⊢
  have hblank : (isLineBreak c || isSpacing c) = false := Bool.eq_false_iff.mpr fun hblank => by
    have hmem := Lexer.mem_blanks hblank
    simp only [List.mem_cons, List.not_mem_nil, or_false] at hmem
    rcases hmem with rfl | rfl | rfl | rfl | rfl <;> exact absurd hdigit (by decide)
  have hgap : gap (c :: (cs ++ rest)) = ⟨0, none⟩ :=
    Lexes.gap_cons hblank fun heq => absurd (heq ▸ hdigit) (by decide)
  have hlexeme : lexeme c (cs ++ rest) = ⟨cs.length + 1, .ok .integerLiteral⟩ := by
    rw [lexeme, hdigit, Bool.true_or, if_pos rfl, number, ← List.cons_append, hnumeral,
      List.length_cons]
  have hword := hrest.word hgap hlexeme (by decide)
  have hne : TokenKind.integerLiteral ≠ .gt := by decide
  rwa [touchesNext_of_ne hne] at hword

end IntegerForm

/-! ### What is written for an integer -/

namespace BaseMark

/-- The base of digits without a zero in front of them. -/
def base : BaseMark → Nat
  | none          => 10
  | binary _      => 2
  | hexadecimal _ => 16

theorem one_lt_base (mark : BaseMark) : 1 < mark.base := by
  unfold base
  split <;> decide

theorem base_le (mark : BaseMark) : mark.base ≤ 16 := by
  unfold base
  split <;> decide

theorem isDigit_digitChar (mark : BaseMark) {d : Nat} (hd : d < mark.base) :
    mark.isDigit d.digitChar = true := by
  have hten : ∀ d < 10, isDecimalDigit d.digitChar = true := by decide
  have htwo : ∀ d < 2, isBinaryDigit d.digitChar = true := by decide
  have hsixteen : ∀ d < 16, isHexDigit d.digitChar = true := by decide
  cases mark with
  | none => exact hten d hd
  | binary upper => exact htwo d hd
  | hexadecimal upper => exact hsixteen d hd

end BaseMark

namespace IntegerForm

variable (mark : BaseMark) (n : Nat) (long : Bool)

/-- A number with a mark of its base. -/
def writing : IntegerForm where
  mark := mark
  run := Nat.toDigits mark.base n
  suffix := if long then some 'l' else none
  isRun := .of_digits Nat.toDigits_ne_nil
    (fun c hc => by
      obtain ⟨d, hd, rfl⟩ := exists_digitChar_of_mem_toDigits mark.one_lt_base n hc
      exact mark.isDigit_digitChar hd)
    (Bool.eq_false_iff.mpr fun h => mark.ne_of_isDigit h (by decide) rfl)
  isSuffix := fun c hc => by
    cases long with
    | true => exact .inl (Option.some.inj hc).symm
    | false => cases hc

theorem chars_writing : (writing mark n long).chars =
    mark.chars ++ (Nat.toDigits mark.base n ++ if long then ['l'] else []) := by
  cases long <;> rfl

theorem digits_writing : (writing mark n long).digits = Nat.toDigits mark.base n := by
  refine bareDigits_eq_self fun hmem => ?_
  obtain ⟨d, hd, hc⟩ := exists_digitChar_of_mem_toDigits mark.one_lt_base n hmem
  exact mark.ne_of_isDigit (mark.isDigit_digitChar hd) (by decide) hc.symm

theorem base_writing : (writing mark n long).base = mark.base := by
  rw [base, digits_writing]
  cases mark with
  | none =>
    refine if_neg fun h => ?_
    obtain rfl := eq_zero_of_head?_toDigits (by decide) h.1
    exact absurd h.2 (by decide)
  | binary upper => rfl
  | hexadecimal upper => rfl

theorem value_writing : (writing mark n long).value = n := by
  rw [value, base_writing, digits_writing, digitsValue_toDigits mark.one_lt_base mark.base_le]

theorem digitValue_lt_base_writing (hc : c ∈ (writing mark n long).digits) :
    digitValue c < (writing mark n long).base := by
  rw [digits_writing] at hc
  rw [base_writing]
  obtain ⟨d, hd, rfl⟩ := exists_digitChar_of_mem_toDigits mark.one_lt_base n hc
  rwa [digitValue_digitChar (Nat.lt_of_lt_of_le hd mark.base_le)]

theorem integer?_writing (hn : n < 2 ^ 64) :
    Literal.integer? (String.ofList (writing mark n long).chars) = some (n.toUInt64, long) := by
  refine (integer?_chars_eq_some_iff _).mpr
    ⟨fun c hc => digitValue_lt_base_writing mark n long hc, ?_, ?_, ?_⟩
  · rwa [value_writing]
  · rw [value_writing]
  · cases long <;> rfl

end IntegerForm

/-- The mark in front of the digits that are written for an integer. -/
def integerMark (value : UInt64) (long negated : Bool) : BaseMark :=
  if Literal.isDecimal value long negated then .none else .hexadecimal false

theorem integerText_eq (value : UInt64) (long negated : Bool) :
    Literal.integerText value long negated = String.ofList
      (IntegerForm.writing (integerMark value long negated) value.toNat long).chars := by
  rw [Literal.integerText, integerMark, IntegerForm.chars_writing]
  cases Literal.isDecimal value long negated <;> cases long
  case false.false =>
    exact congrArg (fun cs => String.ofList ('0' :: 'x' :: cs)) (List.append_nil _).symm
  case false.true => rfl
  case true.false => exact congrArg String.ofList (List.append_nil _).symm
  case true.true => rfl

theorem isDecimal_iff (value : UInt64) (long negated : Bool) :
    Literal.isDecimal value long negated = true ↔
      value.toNat < (if long then 2 ^ 63 else 2 ^ 31) ∨
        negated = true ∧ value.toNat = if long then 2 ^ 63 else 2 ^ 31 := by
  rw [Literal.isDecimal, Bool.or_eq_true, Bool.and_eq_true, decide_eq_true_eq, beq_iff_eq]
  exact Iff.rfl

theorem integerText_of_isDecimal {value : UInt64} {long negated : Bool}
    (h : Literal.isDecimal value long negated = true) :
    Literal.integerText value long negated =
      String.ofList (Nat.toDigits 10 value.toNat) ++ if long then "l" else "" := by
  rw [Literal.integerText, if_pos h]
  cases long
  · exact (String.append_empty).symm
  · exact String.ofList_append

theorem integerText_of_not_isDecimal {value : UInt64} {long negated : Bool}
    (h : Literal.isDecimal value long negated ≠ true) :
    Literal.integerText value long negated =
      "0x" ++ String.ofList (Nat.toDigits 16 value.toNat) ++ if long then "l" else "" := by
  have hmark : String.ofList (['0', 'x'] ++ Nat.toDigits 16 value.toNat) =
      "0x" ++ String.ofList (Nat.toDigits 16 value.toNat) := String.ofList_append
  rw [Literal.integerText, if_neg h, ← hmark]
  cases long
  · exact (String.append_empty).symm
  · exact String.ofList_append

/-- What is written in base ten is not what base sixteen gives. -/
theorem decimal_ne_hexadecimal (n : Nat) (long : Bool) :
    String.ofList (Nat.toDigits 10 n) ++ (if long then "l" else "") ≠
      "0x" ++ String.ofList (Nat.toDigits 16 n) ++ if long then "l" else "" := fun heq => by
  have hrun : IsRun isDecimalDigit (Nat.toDigits 10 n) := (IntegerForm.writing .none n long).isRun
  have htail : EndsDigits (if long then "l" else "").toList := by
    cases long with
    | false => exact nofun
    | true => exact fun c hc => .inl (.inl (Option.some.inj hc).symm)
  have hchars := congrArg String.toList heq
  rw [String.toList_append, String.toList_ofList, String.append_assoc,
    String.toList_append] at hchars
  exact Lexer.second_ne hrun htail hchars 'x' (by decide) rfl

/-! ### Signs and the printed text -/

/-- The kinds and texts of a source's tokens, the final one left out. -/
def TokenizesTo (source : String) (words : List (TokenKind × String)) : Prop :=
  ∃ ts, tokenize source = .ok ts ∧ ts.map (fun t => (t.kind, t.text)) = words ++ [(.eof, "")]

theorem Lexes.tokenizesTo {source : String} {ss : List Symbol} (h : Lexes source.toList ss) :
    TokenizesTo source (ss.map fun s => (s.kind, s.text)) := by
  obtain ⟨t, ts, htokens, -, hunplaced, -⟩ := h.tokens (.ofText source.toList) 0
  refine ⟨t :: ts, htokens, ?_⟩
  have hwords := congrArg (List.map fun t => (t.kind, t.text)) hunplaced
  rw [List.map_map, List.map_map, List.map_append] at hwords
  exact hwords

namespace IntegerForm

variable (form : IntegerForm)

theorem tokenizesTo : TokenizesTo (String.ofList form.chars)
    [(.integerLiteral, String.ofList form.chars)] := by
  have hlexes : Lexes (form.chars ++ []) _ := form.lexes nofun .nil
  rw [List.append_nil, ← String.toList_ofList (l := form.chars), String.ofList_toList] at hlexes
  exact hlexes.tokenizesTo

/-- A minus does not run together with the digit behind it. -/
theorem tokenizesTo_minus : TokenizesTo ("-" ++ String.ofList form.chars)
    [(.sub, "-"), (.integerLiteral, String.ofList form.chars)] := by
  have hlexes : Lexes (form.chars ++ []) _ := form.lexes nofun .nil
  obtain ⟨c, cs, hchars, hdigit⟩ := form.starts
  have happart : keepsApart .minus c := by
    refine ⟨?_, ?_, fun hsign => ?_⟩
    · rintro rfl
      exact absurd hdigit (by decide)
    · rintro rfl
      exact absurd hdigit (by decide)
    · cases hsign
      exact absurd hdigit (by decide)
  rw [List.append_nil, hchars] at hlexes
  have hminus := hlexes.unary .minus happart
  rw [← hchars, ← String.toList_ofList (l := form.chars), ← String.toList_append,
    String.ofList_toList] at hminus
  exact hminus.tokenizesTo

end IntegerForm

/-- An integer as an expression. -/
def integerNode (span inner : Option Text.Span) (value : UInt64) (long : Bool) : Expr :=
  .constant span (.literal inner (.int value long))

section

variable (outer span inner : Option Text.Span) (value : UInt64) (long : Bool) (indent : Nat)

theorem print_integerNode : (integerNode span inner value long).print indent =
    .ok (Literal.integerText value long false) := by
  have hflat : (integerNode span inner value long).doc.Flat
      (Literal.integerText value long false).toList := (Doc.Flat.text _).concat
  rw [Node.print, hflat.render, String.ofList_toList]

/-- Only behind a minus is an integer printed as one that has a minus in front. -/
theorem print_unary_integerNode (op : UnaryOp) :
    (Node.unary outer (.unaryOperator op) (integerNode span inner value long)).print indent =
      .ok (op.text ++ Literal.integerText value long (op == .minus)) := by
  have hflat : (Node.unary outer (.unaryOperator op) (integerNode span inner value long)).doc.Flat
      (op.text.toList ++ (Literal.integerText value long (op == .minus)).toList) := by
    have hempty : op.text.toList ++ "".toList = op.text.toList := List.append_nil _
    have hother := (((Doc.Flat.text op.text).append (.text "")).append
      (Doc.Flat.text (Literal.integerText value long false)).concat).concat
    rw [hempty] at hother
    cases op
    case minus => exact ((Doc.Flat.text "-").append (.text _)).concat
    all_goals exact hother
  rw [Node.print, hflat.render, ← String.toList_append, String.ofList_toList]

end

/-- **An integer that is written is read as itself.**  Its text is one token, also right behind a
minus, and is read as the integer.  It is in base ten exactly where a source may have it so: below
the limit of its type, or at the limit where a minus is in front, and the printer knows whether one
is. -/
theorem integerText_readsBack (value : UInt64) (long negated : Bool) :
    let text := Literal.integerText value long negated
    let suffix := if long then "l" else ""
    let limit := if long then 2 ^ 63 else 2 ^ 31
    let isDecimal := value.toNat < limit ∨ negated = true ∧ value.toNat = limit
    TokenizesTo text [(.integerLiteral, text)] ∧
      TokenizesTo ("-" ++ text) [(.sub, "-"), (.integerLiteral, text)] ∧
      Literal.integer? text = some (value, long) ∧
      (text = String.ofList (Nat.toDigits 10 value.toNat) ++ suffix ↔ isDecimal) ∧
      (text = "0x" ++ String.ofList (Nat.toDigits 16 value.toNat) ++ suffix ↔ ¬isDecimal) ∧
      ∀ outer span inner indent,
        (integerNode span inner value long).print indent =
          .ok (Literal.integerText value long false) ∧
        ∀ op, (Node.unary outer (.unaryOperator op) (integerNode span inner value long)).print
          indent = .ok (op.text ++ Literal.integerText value long (op == .minus)) := by
  intro text suffix limit isDecimal
  have htext := integerText_eq value long negated
  have hvalue : value.toNat.toUInt64 = value := UInt64.ofNat_toNat
  have hread := IntegerForm.integer?_writing (integerMark value long negated) value.toNat long
    value.toNat_lt
  have htoken := (IntegerForm.writing (integerMark value long negated) value.toNat long).tokenizesTo
  have hminus :=
    (IntegerForm.writing (integerMark value long negated) value.toNat long).tokenizesTo_minus
  rw [← htext] at hread htoken hminus
  rw [hvalue] at hread
  have hiff : Literal.isDecimal value long negated = true ↔ isDecimal :=
    isDecimal_iff value long negated
  refine ⟨htoken, hminus, hread, ?decimal, ?hexadecimal, fun outer span inner indent =>
    ⟨print_integerNode span inner value long indent,
      print_unary_integerNode outer span inner value long indent⟩⟩
  case decimal =>
    rw [← hiff]
    refine ⟨fun heq => ?_, integerText_of_isDecimal⟩
    by_contra h
    exact decimal_ne_hexadecimal value.toNat long
      (heq.symm.trans (integerText_of_not_isDecimal h))
  case hexadecimal =>
    rw [← hiff]
    refine ⟨fun heq h => ?_, integerText_of_not_isDecimal⟩
    exact decimal_ne_hexadecimal value.toNat long ((integerText_of_isDecimal h).symm.trans heq)

end JavaSource
