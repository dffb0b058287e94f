import JavaSource.Proofs.Layout.Recognition
import JavaSource.Token.Lexer

/-!
# Lexing a text piece by piece

`Lexes cs ss` says that some characters, from a place between two tokens on, are the symbols `ss`.
It is built from the end of a text to its start, one token or blank at a time, so the symbols of a
text can be told from those of its pieces.

* `Lexes.tokenize`: without places, the tokens of such a text are these symbols.
* `Lexes.blank`, `Lexes.word`, `Lexes.symbol`: a blank, a token, a token with one spelling in front.
-/

namespace JavaSource

open Grammar (Symbol settle symbols)
open Lexer (Gap gap lexeme)
open Text (isLineBreak isSpacing isNameStart isDecimalDigit)

/-- A token that does not stand anywhere. -/
def Grammar.Symbol.token (s : Symbol) : Token := ⟨s.kind, s.text, default, default⟩

/-- The symbol of a kind that has a spelling. -/
def TokenKind.symbol (kind : TokenKind) : Symbol := ⟨kind, kind.text?.getD "", false⟩

/-- The kind of the token that a character is, whatever stands behind it. -/
def TokenKind.single? : Char → Option TokenKind
  | '('    => some .lparen
  | ')'    => some .rparen
  | '\x7b' => some .lbrace
  | '\x7d' => some .rbrace
  | '['    => some .lbrack
  | ']'    => some .rbrack
  | ';'    => some .semi
  | ','    => some .comma
  | '@'    => some .atSign
  | '~'    => some .tilde
  | '?'    => some .question
  | _      => none

/-- A source of symbols that do not stand anywhere. -/
def Grammar.Source.ofSymbols (ss : List Symbol) : Grammar.Source :=
  ⟨(ss.map Symbol.token).toArray, ss.toArray⟩

/-- Whether a token touches the next one, both being a `>`. -/
def touchesNext (kind : TokenKind) (rest : List Char) (ss : List Symbol) : Bool :=
  (gap rest).length == 0 && (kind == .gt && ss.head?.any (·.kind == .gt))

theorem touchesNext_of_ne {kind : TokenKind} (h : kind ≠ .gt) (rest : List Char)
    (ss : List Symbol) : touchesNext kind rest ss = false := by
  rw [touchesNext, beq_eq_false_iff_ne.mpr h, Bool.false_and, Bool.and_false]

/-- Characters between two tokens and the symbols from there on, the final one left out. -/
inductive Lexes : List Char → List Symbol → Prop where
  | finish {cs : List Char} {n : Nat} (hgap : gap cs = ⟨n, none⟩) (hrest : cs.drop n = []) :
    Lexes cs []
  | token {cs rest : List Char} {n len : Nat} {c : Char} {kind : TokenKind} {ss : List Symbol}
    (hgap : gap cs = ⟨n, none⟩) (hrest : cs.drop n = c :: rest)
    (hlexeme : lexeme c rest = ⟨len, .ok kind⟩) (hkind : kind ≠ .eof)
    (behind : Lexes (rest.drop (len - 1)) ss) :
    Lexes cs (⟨kind, String.ofList ((c :: rest).take len),
      touchesNext kind (rest.drop (len - 1)) ss⟩ :: ss)

theorem Lexer.tokens_of_eof {lexer behind : Lexer} {t : Token} (h : lexer.next = (.ok t, behind))
    (ht : t.kind = .eof) : lexer.tokens = .ok [t] := by
  rw [Lexer.tokens]
  split
  · rename_i hnext
    rw [h] at hnext
    cases hnext
  · rename_i t' behind' hnext
    rw [h] at hnext
    cases hnext
    rw [dif_pos ht]

theorem Lexer.tokens_of_next {lexer behind : Lexer} {t : Token} {ts : List Token}
    (h : lexer.next = (.ok t, behind)) (ht : t.kind ≠ .eof) (hts : behind.tokens = .ok ts) :
    lexer.tokens = .ok (t :: ts) := by
  rw [Lexer.tokens]
  split
  · rename_i hnext
    rw [h] at hnext
    cases hnext
  · rename_i t' behind' hnext
    rw [h] at hnext
    cases hnext
    rw [dif_neg ht, hts]

theorem settle_symbols_cons (t u : Token) (ts : List Token) :
    settle (symbols (t :: u :: ts)) =
      ⟨t.kind, t.text, t.range.stop == u.range.start && (t.kind == .gt && u.kind == .gt)⟩ ::
        settle (symbols (u :: ts)) := by
  cases ts <;> rfl

/-! ### First characters -/

theorem ne_of_isNameStart {c d : Char} (h : isNameStart c = true) (hd : isNameStart d = false) :
    c ≠ d := by
  rintro rfl
  rw [h] at hd
  cases hd

theorem isDecimalDigit_of_isNameStart {c : Char} (h : isNameStart c = true) :
    isDecimalDigit c = false := by
  rw [Bool.eq_false_iff]
  intro hdigit
  simp only [isDecimalDigit, Bool.and_eq_true, decide_eq_true_eq, Char.le_def,
    UInt32.le_iff_toNat_le] at hdigit
  have hletter : c.isAlpha = (decide (c.val ≥ 'A'.val ∧ c.val ≤ 'Z'.val) ||
      (decide (c.val ≥ 'a'.val) && decide (c.val ≤ 'z'.val))) := rfl
  simp only [isNameStart, hletter, Bool.or_eq_true, beq_iff_eq, Bool.and_eq_true,
    decide_eq_true_eq, ge_iff_le, UInt32.le_iff_toNat_le] at h
  rcases h with ((rfl | rfl) | h | h) | h
  · exact absurd hdigit.2 (by decide)
  · exact absurd hdigit.1 (by decide)
  · exact absurd (Nat.le_trans h.1 hdigit.2) (by decide)
  · exact absurd (Nat.le_trans h.1 hdigit.2) (by decide)
  · exact absurd (Nat.le_trans h.1 hdigit.2) (by decide)

theorem symbol_of_isNameStart {c : Char} {cs : List Char} (h : isNameStart c = true) :
    Lexer.symbol (c :: cs) = none := by
  unfold Lexer.symbol
  split <;> first
    | rfl
    | rename_i heq
      cases heq
      exact absurd h (by decide)

theorem lexeme_of_symbol {c : Char} {cs : List Char} {n : Nat} {kind : TokenKind}
    (hdigit : isDecimalDigit c = false) (hdot : c ≠ '.')
    (h : Lexer.symbol (c :: cs) = some (n, kind)) : lexeme c cs = ⟨n, .ok kind⟩ := by
  rw [lexeme, hdigit, beq_eq_false_iff_ne.mpr hdot, h]
  rfl

/-- What starts with a letter is a word. -/
theorem lexeme_of_isNameStart {c : Char} (hc : isNameStart c = true) (cs : List Char) :
    lexeme c cs = Lexer.word (c :: cs) := by
  have hdot : (c == '.') = false := beq_eq_false_iff_ne.mpr (ne_of_isNameStart hc (by decide))
  rw [lexeme, isDecimalDigit_of_isNameStart hc, hdot, symbol_of_isNameStart hc]
  simp only [Bool.false_and, Bool.or_self, Bool.false_eq_true, if_false,
    if_neg (ne_of_isNameStart hc (show isNameStart '\x22' = false by decide)),
    if_neg (ne_of_isNameStart hc (show isNameStart '\x27' = false by decide)), if_pos hc]

/-! ### Texts that lex -/

namespace Lexes

variable {cs rest : List Char} {ss : List Symbol}

/-- The tokens of a text whose symbols are known, and where the first one starts. -/
theorem tokens (h : Lexes cs ss) (lines : Text.Lines) (offset : Nat) :
    ∃ t ts, Lexer.tokens ⟨lines, offset, cs⟩ = .ok (t :: ts) ∧
      t.range.start = offset + (gap cs).length ∧
      (t :: ts).map Token.unplaced = (ss ++ [Symbol.final]).map Symbol.token ∧
      settle (symbols (t :: ts)) = ss ++ [Symbol.final] := by
  induction h generalizing offset with
  | @finish cs n hgap hrest =>
    have hnext : Lexer.next ⟨lines, offset, cs⟩ =
        (.ok ⟨.eof, "", lines.placeOf (offset + n), ⟨offset + n, offset + n⟩⟩,
          ⟨lines, offset + n, []⟩) := by
      simp only [Lexer.next, hgap, Lexer.advance, hrest]
    exact ⟨_, [], Lexer.tokens_of_eof hnext rfl, by rw [hgap], rfl, rfl⟩
  | @token cs rest n len c kind ss hgap hrest hlexeme hkind behind ih =>
    have hnext : Lexer.next ⟨lines, offset, cs⟩ =
        (.ok ⟨kind, String.ofList ((c :: rest).take len), lines.placeOf (offset + n),
          ⟨offset + n, offset + n + len⟩⟩,
          ⟨lines, offset + n + len, rest.drop (len - 1)⟩) := by
      simp only [Lexer.next, hgap, Lexer.advance, hrest, hlexeme]
    obtain ⟨u, us, htokens, hstart, hunplaced, hsettle⟩ := ih (offset + n + len)
    refine ⟨_, u :: us, Lexer.tokens_of_next hnext hkind htokens, by rw [hgap], ?_, ?_⟩
    · rw [List.map_cons, hunplaced]
      rfl
    · -- The next token touches this one if there is nothing in the gap between them.
      have htouch : (offset + n + len == u.range.start) =
          ((gap (rest.drop (len - 1))).length == 0) := by
        rw [hstart, Bool.eq_iff_iff, beq_iff_eq, beq_iff_eq]
        omega
      have hgt : (u.kind == .gt) = ss.head?.any (·.kind == .gt) := by
        cases ss with
        | nil =>
          have hkind := congrArg (fun ts => ts.head?.map Token.kind) hunplaced
          simp only [List.nil_append, List.map_cons, List.head?_cons, Option.map_some,
            Option.some.injEq] at hkind
          rw [show u.kind = .eof from hkind]
          rfl
        | cons s ss =>
          have hkind := congrArg (fun ts => ts.head?.map Token.kind) hunplaced
          simp only [List.cons_append, List.map_cons, List.head?_cons, Option.map_some,
            Option.some.injEq] at hkind
          rw [show u.kind = s.kind from hkind]
          rfl
      rw [settle_symbols_cons, hsettle, htouch, hgt]
      rfl

/-- **A text has the tokens that it lexes to.** -/
theorem tokenize {source : String} (h : Lexes source.toList ss) :
    ∃ ts, JavaSource.tokenize source = .ok ts ∧
      (Grammar.Source.ofTokens ts).unplaced = .ofSymbols (ss ++ [Symbol.final]) := by
  obtain ⟨t, ts, htokens, -, hunplaced, hsettle⟩ := h.tokens (.ofText source.toList) 0
  refine ⟨t :: ts, htokens, ?_⟩
  simp only [Grammar.Source.unplaced, Grammar.Source.ofTokens, Grammar.Source.ofSymbols,
    List.map_toArray, hunplaced, hsettle]

/-! ### Texts from pieces -/

theorem nil : Lexes [] [] := .finish (n := 0) (by rw [gap]) rfl

/-- Some more of a gap in front. -/
theorem behind {k : Nat} (hgap : gap cs = (gap rest).behind k) (hdrop : cs.drop k = rest)
    (h : Lexes rest ss) : Lexes cs ss := by
  have hdrop' (n : Nat) : cs.drop (k + n) = rest.drop n := by rw [← List.drop_drop, hdrop]
  cases h with
  | finish hrest hnil =>
    rw [hrest] at hgap
    exact .finish hgap ((hdrop' _).trans hnil)
  | token hrest hcons hlexeme hkind behind =>
    rw [hrest] at hgap
    exact .token hgap ((hdrop' _).trans hcons) hlexeme hkind behind

theorem gap_blank (cs : List Char) : gap (' ' :: cs) = (gap cs).behind 1 := by
  rw [gap]
  · rfl
  · rintro _ ⟨⟩
  · rintro _ ⟨⟩

theorem blank (h : Lexes cs ss) : Lexes (' ' :: cs) ss := h.behind (gap_blank cs) rfl

/-- A character that starts neither a gap nor a comment. -/
theorem gap_cons {c : Char} {cs : List Char} (hblank : (isLineBreak c || isSpacing c) = false)
    (hcomment : c = '/' → ∀ d ∈ cs.head?, d ≠ '/' ∧ d ≠ '*') : gap (c :: cs) = ⟨0, none⟩ := by
  rw [gap, hblank]
  · rfl
  · rintro cs rfl rfl
    exact (hcomment rfl '/' rfl).1 rfl
  · rintro cs rfl rfl
    exact (hcomment rfl '*' rfl).2 rfl

/-- A token in front. -/
theorem word {c : Char} {text : List Char} {kind : TokenKind}
    (hgap : gap (c :: (text ++ rest)) = ⟨0, none⟩)
    (hlexeme : lexeme c (text ++ rest) = ⟨text.length + 1, .ok kind⟩) (hkind : kind ≠ .eof)
    (h : Lexes rest ss) :
    Lexes (c :: text ++ rest)
      (⟨kind, String.ofList (c :: text), touchesNext kind rest ss⟩ :: ss) := by
  have htake : (c :: (text ++ rest)).take (text.length + 1) = c :: text := by
    rw [List.take_succ_cons, List.take_left]
  have hdrop : (text ++ rest).drop (text.length + 1 - 1) = rest := List.drop_left
  have hlexes : Lexes (c :: (text ++ rest)) _ :=
    .token hgap rfl hlexeme hkind (by rw [hdrop]; exact h)
  rw [htake, hdrop] at hlexes
  exact hlexes

/-- A token with one spelling in front. -/
theorem symbol {c : Char} {text : List Char} {kind : TokenKind}
    (hgap : gap (c :: (text ++ rest)) = ⟨0, none⟩)
    (hlexeme : lexeme c (text ++ rest) = ⟨text.length + 1, .ok kind⟩)
    (hspelled : kind.text? = some (String.ofList (c :: text))) (hkind : kind ≠ .eof)
    (hgt : kind ≠ .gt) (h : Lexes rest ss) : Lexes (c :: text ++ rest) (kind.symbol :: ss) := by
  have hword := h.word hgap hlexeme hkind
  rwa [touchesNext_of_ne hgt, ← Option.getD_some (a := String.ofList (c :: text)) (b := ""),
    ← hspelled] at hword

/-- A token of one character in front. -/
theorem sign {c : Char} {kind : TokenKind} {cs : List Char}
    (hblank : (isLineBreak c || isSpacing c) = false) (hslash : c ≠ '/')
    (hlexeme : lexeme c cs = ⟨1, .ok kind⟩) (hspelled : kind.text? = some (String.singleton c))
    (hkind : kind ≠ .eof) (hgt : kind ≠ .gt) (h : Lexes cs ss) :
    Lexes (c :: cs) (kind.symbol :: ss) := by
  have hlexeme : lexeme c ([] ++ cs) = ⟨1, .ok kind⟩ := hlexeme
  have hgap : gap (c :: ([] ++ cs)) = ⟨0, none⟩ :=
    gap_cons hblank fun heq => absurd heq hslash
  exact h.symbol hgap hlexeme (by rw [hspelled, String.singleton_eq_ofList]) hkind hgt

/-- A token in front that is one character, whatever stands behind it. -/
theorem single {c : Char} {kind : TokenKind} {cs : List Char}
    (hsingle : TokenKind.single? c = some kind) (h : Lexes cs ss) :
    Lexes (c :: cs) (kind.symbol :: ss) := by
  unfold TokenKind.single? at hsingle
  split at hsingle
  all_goals cases hsingle
  all_goals exact h.sign rfl (by decide) rfl rfl (by decide) (by decide)

end Lexes

end JavaSource
