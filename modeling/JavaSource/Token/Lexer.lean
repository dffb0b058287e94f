import JavaSource.Fault
import JavaSource.Text.Alphabet
import JavaSource.Token.Basic

/-!
# Token — Lexer

From characters to tokens.  Blanks and comments separate tokens and are dropped.  A `>` is taken
alone unless it begins `>=`, `>>=` or `>>>=`, so closing brackets of nested type arguments are
never torn apart; a grammar that wants a shift joins neighbours.

Each reader looks at the text that is left and says how many characters it takes.  A reader that
fails says that too, so that reading can go on behind the fault.
-/

namespace JavaSource.Lexer

open Text

/-- How far a token reaches and what it is. -/
structure Lexeme where
  length : Nat
  kind : Except Cause TokenKind

/-- Counts characters taken before the rest was read. -/
def past {α : Type} (n : Nat) (reading : Nat × α) : Nat × α :=
  (n + reading.1, reading.2)

/-! ### Between tokens -/

/-- The text of a comment behind its opening; `false` if it is never closed. -/
def commentBody : List Char → Nat × Bool
  | []              => (0, false)
  | '*' :: '/' :: _ => (2, true)
  | _ :: cs         => past 1 (commentBody cs)

/-- A comment that ends with its line. -/
def lineComment (cs : List Char) : Nat :=
  (cs.takeWhile fun c => !isLineBreak c).length

/-- What lies ahead of a token: its length, and where a comment opens that is never closed. -/
structure Gap where
  length : Nat
  opened : Option Nat

/-- A gap with `n` more characters ahead of it. -/
def Gap.behind (n : Nat) (gap : Gap) : Gap :=
  ⟨n + gap.length, gap.opened.map (n + ·)⟩

/-- Blanks and comments ahead of a token.  An open comment takes the rest of the text. -/
def gap : List Char → Gap
  | '/' :: '/' :: cs =>
    let n := lineComment cs
    (gap (cs.drop n)).behind (n + 2)
  | '/' :: '*' :: cs =>
    match commentBody cs with
    | (n, true)  => (gap (cs.drop n)).behind (n + 2)
    | (n, false) => ⟨n + 2, some 0⟩
  | c :: cs => if isLineBreak c || isSpacing c then (gap cs).behind 1 else ⟨0, none⟩
  | [] => ⟨0, none⟩
termination_by cs => cs.length
decreasing_by all_goals simp [List.length_drop]; try omega

/-! ### Numbers -/

/-- Digits with underscores between them.  The first must be a digit. -/
def digitRun (valid : Char → Bool) : List Char → List Char
  | []      => []
  | c :: cs => if valid c then c :: cs.takeWhile fun d => valid d || d == '_' else []

/-- Whether a run ends in an underscore. -/
def isRagged (run : List Char) : Bool :=
  run.getLast? == some '_'

/-- A number's extent, and its kind unless it is malformed. -/
abbrev Numeral := Nat × Option TokenKind

/-- An exponent: how far it reaches, and whether it is well formed; zero if there is none. -/
def exponent (marks : List Char) : List Char → Nat × Bool
  | []      => (0, true)
  | c :: cs =>
    if marks.contains c then
      let sign := if cs.head? == some '+' || cs.head? == some '-' then 1 else 0
      let run := digitRun isDecimalDigit (cs.drop sign)
      (1 + sign + run.length, !run.isEmpty && !isRagged run)
    else (0, true)

/-- What may follow the digits of an integer. -/
def integerSuffix : List Char → Numeral
  | 'l' :: _ | 'L' :: _ => (1, some .integerLiteral)
  | _                   => (0, some .integerLiteral)

/-- Whether a character marks a number as floating. -/
def isFloatSuffix (c : Char) : Bool :=
  c == 'f' || c == 'F' || c == 'd' || c == 'D'

/-- What may follow a floating number. -/
def floatSuffix (cs : List Char) : Numeral :=
  (if cs.head?.any isFloatSuffix then 1 else 0, some .floatingLiteral)

/-- A number behind `0b`. -/
def binaryNumeral (cs : List Char) : Numeral :=
  let run := digitRun isBinaryDigit cs
  if run.isEmpty || isRagged run then (run.length, none)
  else past run.length (integerSuffix (cs.drop run.length))

/-- The end of a hexadecimal number: with a fraction the exponent is required. -/
def hexTail (dotted : Bool) (cs : List Char) : Numeral :=
  match exponent ['p', 'P'] cs with
  | (n, false) => (n, none)
  | (0, true)  => if dotted then (0, none) else integerSuffix cs
  | (n, true)  => past n (floatSuffix (cs.drop n))

/-- A number behind `0x`. -/
def hexNumeral (cs : List Char) : Numeral :=
  let whole := digitRun isHexDigit cs
  let rest := cs.drop whole.length
  past whole.length <|
    if isRagged whole then (0, none)
    else match rest with
      | '.' :: rest =>
        let fraction := digitRun isHexDigit rest
        past (1 + fraction.length) <|
          if isRagged fraction || (whole.isEmpty && fraction.isEmpty) then (0, none)
          else hexTail true (rest.drop fraction.length)
      | rest => if whole.isEmpty then (0, none) else hexTail false rest

/-- The end of a decimal number. -/
def decimalTail (dotted : Bool) (cs : List Char) : Numeral :=
  match exponent ['e', 'E'] cs with
  | (n, false) => (n, none)
  | (n, true)  =>
    let rest := cs.drop n
    past n <|
      if dotted || n ≠ 0 || rest.head?.any isFloatSuffix then floatSuffix rest
      else integerSuffix rest

/-- A decimal or octal number.  `1.` and `.5` are numbers, `1..` is `1` before two dots. -/
def decimalNumeral (cs : List Char) : Numeral :=
  let whole := digitRun isDecimalDigit cs
  past whole.length <|
    if isRagged whole then (0, none)
    else match cs.drop whole.length with
      | '.' :: rest =>
        if rest.head? == some '.' && !whole.isEmpty then decimalTail false ('.' :: rest)
        else
          let fraction := digitRun isDecimalDigit rest
          past (1 + fraction.length) <|
            if isRagged fraction then (0, none)
            else decimalTail true (rest.drop fraction.length)
      | rest => decimalTail false rest

/-- A number in any base. -/
def numeral : List Char → Numeral
  | '0' :: 'x' :: cs | '0' :: 'X' :: cs => past 2 (hexNumeral cs)
  | '0' :: 'b' :: cs | '0' :: 'B' :: cs => past 2 (binaryNumeral cs)
  | cs                                  => decimalNumeral cs

/-- A number as a token. -/
def number (cs : List Char) : Lexeme :=
  match numeral cs with
  | (n, some kind) => ⟨n, .ok kind⟩
  | (n, none)      => ⟨n, .error (.malformedNumber (String.ofList (cs.take n)))⟩

/-! ### Quoted text

A backslash takes the character behind it along, whatever that is; at the very end of the text it
reaches past the end. -/

/-- The text of a string behind its opening quote; `false` if its line ends first. -/
def stringBody : List Char → Nat × Bool
  | []              => (0, false)
  | '\x22' :: _     => (1, true)
  | ['\\']          => (2, false)
  | '\\' :: _ :: cs => past 2 (stringBody cs)
  | c :: cs         => if isLineBreak c then (0, false) else past 1 (stringBody cs)

/-- A string behind its opening quote. -/
def stringLiteral (cs : List Char) : Lexeme :=
  match stringBody cs with
  | (n, true)  => ⟨n + 1, .ok .stringLiteral⟩
  | (n, false) => ⟨n + 1, .error .unterminatedString⟩

/-- The text of a text block up to the closing quotes; `false` if they never come. -/
def textBlockBody : List Char → Nat × Bool
  | []                              => (0, false)
  | '\x22' :: '\x22' :: '\x22' :: _ => (3, true)
  | ['\\']                          => (2, false)
  | '\\' :: _ :: cs                 => past 2 (textBlockBody cs)
  | _ :: cs                         => past 1 (textBlockBody cs)

/-- A text block behind its opening quotes.  Only blanks may follow them on their line. -/
def textBlock (cs : List Char) : Lexeme :=
  let blanks := (cs.takeWhile isSpacing).length
  let rest := cs.drop blanks
  if rest.head?.any isLineBreak then
    match textBlockBody rest with
    | (n, true)  => ⟨n + blanks + 3, .ok .textBlock⟩
    | (n, false) => ⟨n + blanks + 3, .error .unterminatedTextBlock⟩
  else ⟨blanks + 3, .error (.unrecognized "\"\"\"")⟩

/-- An escape behind its backslash: a code unit, up to three octal digits, or one character. -/
def escape : List Char → Nat
  | [] => 0
  | c :: cs =>
    if c = 'u' then
      let marks := ((c :: cs).takeWhile (· == 'u')).length
      marks + (((c :: cs).drop marks).take 4 |>.takeWhile isHexDigit).length
    else if isOctalDigit c then
      (((c :: cs).take (if c ≤ '3' then 3 else 2)).takeWhile isOctalDigit).length
    else 1

/-- The end of a character literal, `n` characters behind its opening quote. -/
def charEnd (cs : List Char) (n : Nat) : Lexeme :=
  match cs.drop n with
  | [] => ⟨n + 1, .error .unterminatedChar⟩
  | c :: _ =>
    if c = '\x27' then ⟨n + 2, .ok .charLiteral⟩
    else if isLineBreak c then ⟨n + 1, .error .unterminatedChar⟩
    else ⟨n + 1, .error (.unrecognized (String.ofList ('\x27' :: cs.take (n + 1))))⟩

/-- A character literal behind its opening quote: one character or one escape. -/
def charLiteral : List Char → Lexeme
  | [] => ⟨1, .error .unterminatedChar⟩
  | c :: cs =>
    if isLineBreak c then ⟨1, .error .unterminatedChar⟩
    else if c = '\x27' then ⟨1, .error (.unrecognized "''")⟩
    else if c = '\\' then charEnd (c :: cs) (1 + escape cs)
    else charEnd (c :: cs) 1

/-! ### Words and symbols -/

/-- A name, a reserved word or `non-sealed`. -/
def word (cs : List Char) : Lexeme :=
  let name := cs.takeWhile isNamePart
  let rest := cs.drop name.length
  let sealedTail := "-sealed".toList
  if name == "non".toList && sealedTail.isPrefixOf rest
      && !(rest.drop sealedTail.length).head?.any isNamePart then
    ⟨name.length + sealedTail.length, .ok .nonSealed⟩
  else
    ⟨name.length, .ok ((TokenKind.keyword? (String.ofList name)).getD .identifier)⟩

/-- A symbol: the longest that the text begins with. -/
def symbol : List Char → Option (Nat × TokenKind)
  | '(' :: _                        => some (1, .lparen)
  | ')' :: _                        => some (1, .rparen)
  | '\x7b' :: _                     => some (1, .lbrace)
  | '\x7d' :: _                     => some (1, .rbrace)
  | '[' :: _                        => some (1, .lbrack)
  | ']' :: _                        => some (1, .rbrack)
  | ';' :: _                        => some (1, .semi)
  | ',' :: _                        => some (1, .comma)
  | '@' :: _                        => some (1, .atSign)
  | '~' :: _                        => some (1, .tilde)
  | '?' :: _                        => some (1, .question)
  | '.' :: '.' :: '.' :: _          => some (3, .ellipsis)
  | '.' :: _                        => some (1, .dot)
  | ':' :: ':' :: _                 => some (2, .colonColon)
  | ':' :: _                        => some (1, .colon)
  | '=' :: '=' :: _                 => some (2, .eqEq)
  | '=' :: _                        => some (1, .assign)
  | '!' :: '=' :: _                 => some (2, .notEq)
  | '!' :: _                        => some (1, .bang)
  | '<' :: '<' :: '=' :: _          => some (3, .lshiftAssign)
  | '<' :: '<' :: _                 => some (2, .lshift)
  | '<' :: '=' :: _                 => some (2, .le)
  | '<' :: _                        => some (1, .lt)
  | '>' :: '>' :: '>' :: '=' :: _   => some (4, .urshiftAssign)
  | '>' :: '>' :: '=' :: _          => some (3, .rshiftAssign)
  | '>' :: '=' :: _                 => some (2, .ge)
  | '>' :: _                        => some (1, .gt)
  | '+' :: '+' :: _                 => some (2, .inc)
  | '+' :: '=' :: _                 => some (2, .addAssign)
  | '+' :: _                        => some (1, .add)
  | '-' :: '-' :: _                 => some (2, .dec)
  | '-' :: '=' :: _                 => some (2, .subAssign)
  | '-' :: '>' :: _                 => some (2, .arrow)
  | '-' :: _                        => some (1, .sub)
  | '*' :: '=' :: _                 => some (2, .mulAssign)
  | '*' :: _                        => some (1, .mul)
  | '/' :: '=' :: _                 => some (2, .divAssign)
  | '/' :: _                        => some (1, .div)
  | '%' :: '=' :: _                 => some (2, .modAssign)
  | '%' :: _                        => some (1, .mod)
  | '&' :: '&' :: _                 => some (2, .andAnd)
  | '&' :: '=' :: _                 => some (2, .andAssign)
  | '&' :: _                        => some (1, .bitAnd)
  | '|' :: '|' :: _                 => some (2, .orOr)
  | '|' :: '=' :: _                 => some (2, .orAssign)
  | '|' :: _                        => some (1, .bitOr)
  | '^' :: '=' :: _                 => some (2, .xorAssign)
  | '^' :: _                        => some (1, .caret)
  | _                               => none

/-- A token that starts with `c`.  A dot before a digit begins a number. -/
def lexeme (c : Char) (cs : List Char) : Lexeme :=
  if isDecimalDigit c || (c == '.' && cs.head?.any isDecimalDigit) then number (c :: cs)
  else match symbol (c :: cs) with
    | some (n, kind) => ⟨n, .ok kind⟩
    | none =>
      if c = '\x22' then
        if cs.take 2 = ['\x22', '\x22'] then textBlock (cs.drop 2) else stringLiteral cs
      else if c = '\x27' then charLiteral cs
      else if isNameStart c then word (c :: cs)
      else ⟨0, .error (.unrecognized (String.singleton c))⟩

end Lexer

/-! ### The token stream -/

/-- Where reading stands in a text: the offset, and the text from there on. -/
structure Lexer where
  lines : Text.Lines
  offset : Nat
  rest : List Char

namespace Lexer

/-- Ready to read a text from its start. -/
def ofText (text : List Char) : Lexer :=
  ⟨.ofText text, 0, text⟩

/-- The lexer with `n` more characters read. -/
def advance (lexer : Lexer) (n : Nat) : Lexer :=
  { lexer with offset := lexer.offset + n, rest := lexer.rest.drop n }

/-- The next token or fault, and the lexer behind it.  At the end of the text there is an `eof`
token, as often as asked for. -/
def next (lexer : Lexer) : Except Fault Token × Lexer :=
  match gap lexer.rest with
  | ⟨n, some opened⟩ =>
    (.error ⟨lexer.lines.placeOf (lexer.offset + opened), .unterminatedComment⟩, lexer.advance n)
  | ⟨n, none⟩ =>
    let here := lexer.advance n
    let place := lexer.lines.placeOf here.offset
    match here.rest with
    | [] => (.ok ⟨.eof, "", place, ⟨here.offset, here.offset⟩⟩, here)
    | c :: cs =>
      let found := lexeme c cs
      match found.kind with
      | .error cause => (.error ⟨place, cause⟩, here.advance found.length)
      | .ok kind     =>
        let stop := here.offset + found.length
        (.ok ⟨kind, String.ofList ((c :: cs).take found.length), place, ⟨here.offset, stop⟩⟩,
          { here with offset := stop, rest := cs.drop (found.length - 1) })

/-- A token other than the last leaves less text to read. -/
theorem length_rest_next_lt {lexer behind : Lexer} {t : Token}
    (h : lexer.next = (.ok t, behind)) (ht : t.kind ≠ .eof) :
    behind.rest.length < lexer.rest.length := by
  unfold next at h
  split at h
  · simp at h
  · rename_i n _
    dsimp only at h
    split at h
    · simp only [Prod.mk.injEq, Except.ok.injEq] at h
      exact absurd (h.1 ▸ rfl) ht
    · rename_i c cs hr
      split at h
      · simp at h
      · simp only [Prod.mk.injEq] at h
        have hlen : (c :: cs).length ≤ lexer.rest.length := by
          rw [← hr]; simp [advance]
        rw [← h.2]
        simp only [List.length_cons, List.length_drop] at hlen ⊢
        omega

/-- All tokens from here on, the final `eof` included, or the first fault. -/
def tokens (lexer : Lexer) : Except Fault (List Token) :=
  match _h : lexer.next with
  | (.error fault, _) => .error fault
  | (.ok t, behind)   =>
    if _ht : t.kind = .eof then .ok [t]
    else match behind.tokens with
      | .error fault => .error fault
      | .ok ts       => .ok (t :: ts)
termination_by lexer.rest.length
decreasing_by exact length_rest_next_lt _h _ht

/-- What the next `n` readings give, faults and the end of the text not stopping them. -/
def readings : Nat → Lexer → List (Except Fault Token)
  | 0, _         => []
  | n + 1, lexer =>
    let (result, behind) := lexer.next
    result :: readings n behind

end Lexer

/-- The tokens of a source, the final `eof` included. -/
def tokenize (source : String) : Except Fault (List Token) :=
  (Lexer.ofText source.toList).tokens

end JavaSource
