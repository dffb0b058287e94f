import JavaSource.Proofs.Numbers.Digits

/-!
# The forms of numbers

An integer literal is a mark of its base, a run of digits and an `L` or none (`IntegerForm`).  A
hexadecimal floating literal is a mark, digits on either side of a dot, an exponent and a suffix or
none (`HexForm`).  The lexer takes nothing else for either of them.

* `next_integer`, `next_hexFloating`: the form of a token.
-/

namespace JavaSource

open Text (isDecimalDigit isBinaryDigit isHexDigit digitValue)

/-! ### Integers -/

/-- What stands in front of the digits of a number. -/
inductive BaseMark where
  | none
  | binary (upper : Bool)
  | hexadecimal (upper : Bool)

namespace BaseMark

/-- How a mark is written. -/
def chars : BaseMark → List Char
  | none              => []
  | binary upper      => ['0', if upper then 'B' else 'b']
  | hexadecimal upper => ['0', if upper then 'X' else 'x']

/-- The digits that may stand behind a mark. -/
def isDigit : BaseMark → Char → Bool
  | none          => isDecimalDigit
  | binary _      => isBinaryDigit
  | hexadecimal _ => isHexDigit

end BaseMark

/-- An integer literal as it is written. -/
structure IntegerForm where
  mark : BaseMark
  /-- The digits, with underscores between them. -/
  run : List Char
  suffix : Option Char
  isRun : IsRun mark.isDigit run
  isSuffix : ∀ c ∈ suffix, c = 'l' ∨ c = 'L'

namespace IntegerForm

/-- The text of a literal. -/
def chars (form : IntegerForm) : List Char :=
  form.mark.chars ++ (form.run ++ form.suffix.toList)

/-- The digits without underscores. -/
def digits (form : IntegerForm) : List Char := bareDigits form.run

/-- The base of a literal: without a mark it is ten, or eight if a zero has digits behind it. -/
def base (form : IntegerForm) : Nat :=
  match form.mark with
  | .hexadecimal _ => 16
  | .binary _      => 2
  | .none          => if form.digits.head? = some '0' ∧ 1 < form.digits.length then 8 else 10

/-- The number that a literal stands for. -/
def value (form : IntegerForm) : Nat := digitsValue form.base form.digits

end IntegerForm

/-! ### Hexadecimal fractions -/

/-- An exponent behind its mark. -/
structure ExponentForm where
  mark : Char
  sign : Option Char
  run : List Char
  isSign : ∀ c ∈ sign, c = '+' ∨ c = '-'
  isRun : IsRun isDecimalDigit run

namespace ExponentForm

/-- The text of an exponent. -/
def chars (form : ExponentForm) : List Char := form.mark :: (form.sign.toList ++ form.run)

/-- The number that an exponent stands for. -/
def value (form : ExponentForm) : Int :=
  let magnitude : Int := digitsValue 10 (bareDigits form.run)
  if form.sign = some '-' then -magnitude else magnitude

end ExponentForm

/-- A hexadecimal floating literal as it is written. -/
structure HexForm where
  upper : Bool
  /-- The digits ahead of the dot, with underscores between them. -/
  whole : List Char
  /-- The digits behind the dot, if there is one. -/
  fraction : Option (List Char)
  exponent : ExponentForm
  suffix : Option Char
  isWhole : whole = [] ∨ IsRun isHexDigit whole
  isFraction : ∀ run ∈ fraction, run = [] ∨ IsRun isHexDigit run
  hasDigits : whole ++ fraction.getD [] ≠ []
  isMark : exponent.mark = 'p' ∨ exponent.mark = 'P'
  isSuffix : ∀ c ∈ suffix, Lexer.isFloatSuffix c = true

namespace HexForm

/-- A dot and the digits behind it. -/
def point (form : HexForm) : List Char :=
  match form.fraction with
  | none     => []
  | some run => '.' :: run

/-- The text of a literal. -/
def chars (form : HexForm) : List Char :=
  (BaseMark.hexadecimal form.upper).chars ++
    (form.whole ++ (form.point ++ (form.exponent.chars ++ form.suffix.toList)))

/-- The digits ahead of the dot, without underscores. -/
def wholeDigits (form : HexForm) : List Char := bareDigits form.whole

/-- The digits behind the dot, without underscores. -/
def fractionDigits (form : HexForm) : List Char := bareDigits (form.fraction.getD [])

/-- The number that a literal stands for. -/
def value (form : HexForm) : ℚ :=
  digitsValue 16 (form.wholeDigits ++ form.fractionDigits) *
    2 ^ (form.exponent.value - 4 * form.fractionDigits.length)

end HexForm

namespace Lexer

variable {cs : List Char} {c : Char} {n : Nat} {kind : TokenKind} {dotted : Bool}

/-! ### What readers of numbers take -/

theorem exists_of_past {k : Nat} {reading : Numeral} (h : past k reading = (n, some kind)) :
    ∃ m, reading = (m, some kind) ∧ n = k + m :=
  ⟨reading.1, (past_eq h).1, (past_eq h).2.symm⟩

theorem integerSuffix_takes (cs : List Char) :
    ∃ suffix : Option Char, ∃ rest, cs = suffix.toList ++ rest ∧
      (∀ c ∈ suffix, c = 'l' ∨ c = 'L') ∧
      integerSuffix cs = (suffix.toList.length, some .integerLiteral) := by
  unfold integerSuffix
  split
  · exact ⟨some 'l', _, rfl, fun c hc => .inl (Option.some.inj hc).symm, rfl⟩
  · exact ⟨some 'L', _, rfl, fun c hc => .inr (Option.some.inj hc).symm, rfl⟩
  · exact ⟨none, cs, rfl, nofun, rfl⟩

theorem floatSuffix_takes (cs : List Char) :
    ∃ suffix : Option Char, ∃ rest, cs = suffix.toList ++ rest ∧
      (∀ c ∈ suffix, isFloatSuffix c = true) ∧
      floatSuffix cs = (suffix.toList.length, some .floatingLiteral) := by
  cases cs with
  | nil => exact ⟨none, [], rfl, nofun, rfl⟩
  | cons c cs =>
    by_cases hc : isFloatSuffix c = true
    · refine ⟨some c, cs, rfl, fun d hd => Option.some.inj hd ▸ hc, ?_⟩
      rw [floatSuffix, List.head?_cons, Option.any_some, if_pos hc]
      rfl
    · refine ⟨none, c :: cs, rfl, nofun, ?_⟩
      rw [floatSuffix, List.head?_cons, Option.any_some, if_neg hc]
      rfl

/-- Digits and a suffix, taken off a text. -/
def TakesRun (isDigit : Char → Bool) (cs : List Char) (n : Nat) : Prop :=
  ∃ run, ∃ suffix : Option Char, ∃ rest, cs = run ++ (suffix.toList ++ rest) ∧
    n = run.length + suffix.toList.length ∧ IsRun isDigit run ∧ ∀ c ∈ suffix, c = 'l' ∨ c = 'L'

theorem takesRun_digitRun {isDigit : Char → Bool} {length : Nat}
    (hne : digitRun isDigit cs ≠ []) (hends : isRagged (digitRun isDigit cs) = false)
    (hsuffix : integerSuffix (cs.drop (digitRun isDigit cs).length) = (length, some kind)) :
    TakesRun isDigit cs ((digitRun isDigit cs).length + length) := by
  obtain ⟨suffix, rest, hrest, hisSuffix, htakes⟩ :=
    integerSuffix_takes (cs.drop (digitRun isDigit cs).length)
  rw [htakes] at hsuffix
  have hcs := digitRun_append_drop isDigit cs
  rw [hrest] at hcs
  rw [← (Prod.mk.inj hsuffix).1]
  exact ⟨_, suffix, rest, hcs.symm, rfl, isRun_digitRun hne hends, hisSuffix⟩

theorem binaryNumeral_integer (h : binaryNumeral cs = (n, some kind)) :
    TakesRun isBinaryDigit cs n := by
  unfold binaryNumeral at h
  dsimp only at h
  split at h
  · cases h
  · rename_i hrun
    rw [Bool.not_eq_true, Bool.or_eq_false_iff, List.isEmpty_eq_false_iff] at hrun
    obtain ⟨m, hsuffix, rfl⟩ := exists_of_past h
    exact takesRun_digitRun hrun.1 hrun.2 hsuffix

theorem hexTail_integer (h : hexTail dotted cs = (n, some .integerLiteral)) :
    dotted = false ∧ integerSuffix cs = (n, some .integerLiteral) := by
  unfold hexTail at h
  split at h
  · cases h
  · split at h
    · cases h
    · exact ⟨Bool.eq_false_iff.mpr ‹_›, h⟩
  · obtain ⟨m, hsuffix, -⟩ := exists_of_past h
    cases hsuffix

theorem hexNumeral_integer (h : hexNumeral cs = (n, some .integerLiteral)) :
    TakesRun isHexDigit cs n := by
  unfold hexNumeral at h
  dsimp only at h
  obtain ⟨m, hbehind, rfl⟩ := exists_of_past h
  split at hbehind
  · cases hbehind
  · rename_i hends
    split at hbehind
    · obtain ⟨k, htail, -⟩ := exists_of_past hbehind
      split at htail
      · cases htail
      · cases (hexTail_integer htail).1
    · split at hbehind
      · cases hbehind
      · rename_i hne
        rw [List.isEmpty_iff] at hne
        exact takesRun_digitRun hne (Bool.eq_false_iff.mpr hends) (hexTail_integer hbehind).2

theorem decimalTail_integer (h : decimalTail dotted cs = (n, some .integerLiteral)) :
    dotted = false ∧ integerSuffix cs = (n, some .integerLiteral) := by
  unfold decimalTail at h
  split at h
  · cases h
  · rename_i k hexponent
    obtain ⟨m, hsuffix, rfl⟩ := exists_of_past h
    split at hsuffix
    · obtain ⟨suffix, rest, -, -, hfloat⟩ := floatSuffix_takes (cs.drop k)
      rw [hfloat] at hsuffix
      cases hsuffix
    · rename_i hplain
      simp only [Bool.or_eq_true, decide_eq_true_eq, not_or, Bool.not_eq_true, ne_eq,
        Decidable.not_not] at hplain
      obtain ⟨⟨hdotted, rfl⟩, -⟩ := hplain
      exact ⟨hdotted, by rwa [Nat.zero_add]⟩

theorem decimalNumeral_integer (h : decimalNumeral (c :: cs) = (n, some .integerLiteral))
    (hstart : isDecimalDigit c = true ∨ c = '.') : TakesRun isDecimalDigit (c :: cs) n := by
  unfold decimalNumeral at h
  dsimp only at h
  obtain ⟨m, hbehind, rfl⟩ := exists_of_past h
  split at hbehind
  · cases hbehind
  · rename_i hends
    rw [Bool.not_eq_true] at hends
    split at hbehind
    · rename_i rest hdot
      split at hbehind
      · rename_i hrange
        rw [Bool.and_eq_true, Bool.not_eq_true', List.isEmpty_eq_false_iff] at hrange
        rw [← hdot] at hbehind
        exact takesRun_digitRun hrange.2 hends (decimalTail_integer hbehind).2
      · obtain ⟨k, htail, -⟩ := exists_of_past hbehind
        split at htail
        · cases htail
        · cases (decimalTail_integer htail).1
    · rename_i hdot
      refine takesRun_digitRun (fun hnil => ?_) hends (decimalTail_integer hbehind).2
      -- A number without digits ahead of a dot starts with the dot.
      rcases hstart with hdigit | rfl
      · rw [digitRun, if_pos hdigit] at hnil
        cases hnil
      · exact hdot cs (by rw [hnil]; rfl)

/-- A mark in front of its digits and a suffix. -/
theorem TakesRun.exists_form (mark : BaseMark) (h : TakesRun mark.isDigit cs n) :
    ∃ form : IntegerForm, ∃ rest, mark.chars ++ cs = form.chars ++ rest ∧
      mark.chars.length + n = form.chars.length := by
  obtain ⟨run, suffix, rest, rfl, rfl, hrun, hsuffix⟩ := h
  refine ⟨⟨mark, run, suffix, hrun, hsuffix⟩, rest, ?_, ?_⟩
  · simp only [IntegerForm.chars, List.append_assoc]
  · simp only [IntegerForm.chars, List.length_append]

theorem numeral_integer (h : numeral (c :: cs) = (n, some .integerLiteral))
    (hstart : isDecimalDigit c = true ∨ c = '.') :
    ∃ form : IntegerForm, ∃ rest, c :: cs = form.chars ++ rest ∧ n = form.chars.length := by
  unfold numeral at h
  split at h
  · rename_i cs heq
    obtain ⟨m, hdigits, rfl⟩ := exists_of_past h
    rw [heq]
    exact (hexNumeral_integer hdigits).exists_form (.hexadecimal false)
  · rename_i cs heq
    obtain ⟨m, hdigits, rfl⟩ := exists_of_past h
    rw [heq]
    exact (hexNumeral_integer hdigits).exists_form (.hexadecimal true)
  · rename_i cs heq
    obtain ⟨m, hdigits, rfl⟩ := exists_of_past h
    rw [heq]
    exact (binaryNumeral_integer hdigits).exists_form (.binary false)
  · rename_i cs heq
    obtain ⟨m, hdigits, rfl⟩ := exists_of_past h
    rw [heq]
    exact (binaryNumeral_integer hdigits).exists_form (.binary true)
  · obtain ⟨form, rest, hform, hlength⟩ :=
      (decimalNumeral_integer h hstart).exists_form .none
    exact ⟨form, rest, hform, by rw [← hlength]; exact (Nat.zero_add n).symm⟩

/-! ### What is a hexadecimal fraction -/

/-- A number among the lexemes. -/
theorem lexeme_number (h : (lexeme c cs).kind = .ok kind)
    (hkind : kind = .integerLiteral ∨ kind = .floatingLiteral) :
    (isDecimalDigit c = true ∨ c = '.') ∧
      numeral (c :: cs) = ((lexeme c cs).length, some kind) := by
  unfold lexeme at h ⊢
  split at h
  · rename_i hstart
    rw [if_pos hstart]
    simp only [Bool.or_eq_true, Bool.and_eq_true, beq_iff_eq] at hstart
    exact ⟨hstart.imp_right And.left, number_kind h⟩
  · -- Everything else has one spelling, is a name, or is quoted.
    exfalso
    split at h
    · rename_i hsymbol
      cases h
      rcases hkind with rfl | rfl <;> cases symbol_isSome_text? hsymbol
    · split at h
      · split at h
        · rcases hkind with rfl | rfl <;> cases textBlock_kind h
        · rcases hkind with rfl | rfl <;> cases stringLiteral_kind h
      · split at h
        · rcases hkind with rfl | rfl <;> cases charLiteral_kind h
        · split at h
          · rcases hkind with rfl | rfl <;>
              rcases word_isSome_text? h with hword | hword <;> cases hword
          · cases h

/-- A number among the tokens: the text in front of which it was read starts with it. -/
theorem next_number {lexer behind : Lexer} {t : Token} (h : lexer.next = (.ok t, behind))
    (hkind : t.kind = .integerLiteral ∨ t.kind = .floatingLiteral) :
    ∃ c cs n, numeral (c :: cs) = (n, some t.kind) ∧ t.text.toList = (c :: cs).take n ∧
      (isDecimalDigit c = true ∨ c = '.') := by
  cases step_of_next h with
  | finish => rcases hkind with hkind | hkind <;> cases hkind
  | @token n len c cs kind hgap hrest hlexeme =>
    obtain ⟨hstart, hnumeral⟩ := @lexeme_number cs c kind (by rw [hlexeme]) hkind
    rw [hlexeme] at hnumeral
    exact ⟨c, cs, len, hnumeral, String.toList_ofList, hstart⟩

/-- **An integer literal is of the form of one.** -/
theorem next_integer {lexer behind : Lexer} {t : Token} (h : lexer.next = (.ok t, behind))
    (hkind : t.kind = .integerLiteral) : ∃ form : IntegerForm, t.text.toList = form.chars := by
  obtain ⟨c, cs, n, hnumeral, htext, hstart⟩ := next_number h (.inl hkind)
  rw [hkind] at hnumeral
  obtain ⟨form, rest, hform, rfl⟩ := numeral_integer hnumeral hstart
  exact ⟨form, by rw [htext, hform, List.take_left]⟩

end Lexer

end JavaSource
