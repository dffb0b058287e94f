import JavaSource.Proofs.Limit
import JavaSource.Proofs.Messages.Filling
import JavaSource.Proofs.Tokens

/-!
# Messages

What the message of a fault makes of its arguments.  The texts of the catalogue set their holes off
(`Cause.setOff_pieces`), so a message is its text with all holes filled at once, unless an argument
holds the hole of a later one.  Only two messages have two holes, those that say what was found and
what was expected instead; what was found may be a string or a text block, and so may hold the hole
of what was expected.

* `Lexer.next_cause`: causes that say so come from rules and not from readers of tokens.
* `parseTree_found`: what they say was found is a token of the source.
* **`messages_quote`**: messages quote their arguments unless one holds the hole of a later one; the
  token at which a source is refused is quoted unless it holds the second hole.
* `parseTree_misquotes`: a string that does.
-/

namespace JavaSource

open Template (hole substitute settled replaceAll)
open Template.Piece (expand setOff words expand_append expand_words expand_hole)

variable {source : String} {mode : Mode} {limit : Nat} {fault : Fault}

/-! ### The catalogue -/

/-- The text of a cause, in pieces. -/
def Cause.pieces : Cause → List Template.Piece
  | .unrecognized _        => words "token recognition error at: '" ++ [.hole 0] ++ words "'"
  | .unterminatedString    => words "unterminated string literal"
  | .unterminatedChar      => words "unterminated character literal"
  | .unterminatedTextBlock => words "unterminated text block"
  | .unterminatedComment   => words "unterminated comment"
  | .malformedNumber _     => words "malformed numeric literal '" ++ [.hole 0] ++ words "'"
  | .mismatched _ _        =>
    words "mismatched input '" ++ [.hole 0] ++ words "' expecting " ++ [.hole 1]
  | .noViableAlternative _ => words "no viable alternative at input '" ++ [.hole 0] ++ words "'"
  | .extraneous _ _        =>
    words "extraneous input '" ++ [.hole 0] ++ words "' expecting " ++ [.hole 1]
  | .tooDeep _             => words "input nested deeper than " ++ [.hole 0] ++ words " levels"
  | .lambdaReceiver        => words "receiver parameter not allowed in lambda"

theorem Cause.toList_text (c : Cause) : c.template.text.toList = expand hole c.pieces := by
  cases c <;> (dsimp only [Cause.template, Cause.pieces]; rfl)

/-- The texts of the catalogue set their holes off. -/
theorem Cause.setOff_pieces (c : Cause) : setOff c.pieces = true := by
  cases c <;> rfl

/-- A message is its text with all holes filled at once, by what its arguments come to. -/
theorem Cause.text_eq (c : Cause) : c.text =
    String.ofList (substitute (settled 0 c.arguments) c.template.text.toList) := by
  rw [Cause.text, Template.format, Template.fill, c.toList_text,
    Template.fillFrom_eq_substitute c.setOff_pieces]

/-- What a cause says was found instead of something else. -/
inductive Cause.Finds (found expecting : String) : Cause → Prop where
  | mismatched : Finds found expecting (.mismatched found expecting)
  | extraneous : Finds found expecting (.extraneous found expecting)

/-- How both messages say so. -/
theorem Cause.Finds.substitute_eq {c : Cause} {found expecting : String}
    (h : c.Finds found expecting) : ∃ front, ∀ found' expecting' : String,
      substitute [found', expecting'] c.template.text.toList =
        front ++ (found'.toList ++ ("' expecting ".toList ++ expecting'.toList)) := by
  cases h with
  | mismatched =>
    refine ⟨"mismatched input '".toList, fun found' expecting' => ?_⟩
    rw [Cause.toList_text, Template.Piece.substitute_expand (Cause.setOff_pieces _)]
    simp only [Cause.pieces, expand_append, expand_words, expand_hole, List.append_assoc]
    rfl
  | extraneous =>
    refine ⟨"extraneous input '".toList, fun found' expecting' => ?_⟩
    rw [Cause.toList_text, Template.Piece.substitute_expand (Cause.setOff_pieces _)]
    simp only [Cause.pieces, expand_append, expand_words, expand_hole, List.append_assoc]
    rfl

/-- **What was found is quoted** unless it holds the hole of what was expected. -/
theorem Cause.Finds.text_eq_iff {c : Cause} {found expecting : String}
    (h : c.Finds found expecting) :
    c.text = String.ofList (substitute [found, expecting] c.template.text.toList) ↔
      ¬ hole 1 <:+: found.toList ∨ expecting.toList = hole 1 := by
  have harguments : c.arguments = [found, expecting] := by cases h <;> rfl
  have hsettled : settled 0 [found, expecting] =
      [String.ofList (replaceAll (hole 1) expecting.toList found.toList), expecting] := by
    simp only [settled, Template.fillFrom, String.ofList_toList]
  obtain ⟨front, hfront⟩ := h.substitute_eq
  rw [← Template.replaceAll_eq_self_iff (Template.hole_ne_nil 1), c.text_eq, harguments, hsettled,
    String.ofList_inj, hfront, hfront, List.append_right_inj, List.append_left_inj,
    String.toList_ofList]

/-! ### Tokens that cannot be read -/

/-- Causes for which a token cannot be read. -/
def Cause.isLexical : Cause → Bool
  | .unrecognized _ | .unterminatedString | .unterminatedChar | .unterminatedTextBlock
  | .unterminatedComment | .malformedNumber _ => true
  | _ => false

theorem Cause.Finds.not_isLexical {c : Cause} {found expecting : String}
    (h : c.Finds found expecting) : c.isLexical = false := by
  cases h <;> rfl

namespace Lexer

variable {c : Char} {cs : List Char} {n : Nat} {cause : Cause} {lexer behind : Lexer}

theorem number_cause (h : (number cs).kind = .error cause) : cause.isLexical = true := by
  unfold number at h
  split at h <;> cases h
  rfl

theorem stringLiteral_cause (h : (stringLiteral cs).kind = .error cause) :
    cause.isLexical = true := by
  unfold stringLiteral at h
  split at h <;> cases h
  rfl

theorem textBlock_cause (h : (textBlock cs).kind = .error cause) : cause.isLexical = true := by
  unfold textBlock at h
  dsimp only at h
  split at h
  · split at h <;> cases h
    rfl
  · cases h
    rfl

theorem charEnd_cause (h : (charEnd cs n).kind = .error cause) : cause.isLexical = true := by
  unfold charEnd at h
  split at h
  · cases h
    rfl
  · split at h
    · cases h
    · split at h <;> cases h <;> rfl

theorem charLiteral_cause (h : (charLiteral cs).kind = .error cause) : cause.isLexical = true := by
  unfold charLiteral at h
  split at h
  · cases h
    rfl
  · split at h
    · cases h
      rfl
    · split at h
      · cases h
        rfl
      · split at h <;> exact charEnd_cause h

theorem lexeme_cause (h : (lexeme c cs).kind = .error cause) : cause.isLexical = true := by
  unfold lexeme at h
  split at h
  · exact number_cause h
  · split at h
    · cases h
    · split at h
      · split at h
        · exact textBlock_cause h
        · exact stringLiteral_cause h
      · split at h
        · exact charLiteral_cause h
        · split at h
          · unfold word at h
            dsimp only at h
            split at h <;> cases h
          · cases h
            rfl

theorem next_cause (h : lexer.next = (.error fault, behind)) : fault.cause.isLexical = true := by
  cases step_of_next h with
  | unclosed => rfl
  | fault _ _ hlexeme => exact lexeme_cause (congrArg Lexeme.kind hlexeme)

theorem tokens_cause (h : lexer.tokens = .error fault) : fault.cause.isLexical = true := by
  fun_induction tokens lexer with
  | case1 lexer fault' behind hnext =>
    obtain rfl := Except.error.inj h
    exact next_cause hnext
  | case2 => cases h
  | case3 lexer t behind hnext ht fault' htokens ih =>
    obtain rfl := Except.error.inj h
    exact ih htokens
  | case4 => cases h

end Lexer

/-! ### Sources that are refused -/

/-- What a rule found is a token, and stands where it is. -/
theorem parseTree_found (h : parseTree mode limit source = .error fault) {found expecting : String}
    (hfinds : fault.cause.Finds found expecting) : ∃ ts t, tokenize source = .ok ts ∧ t ∈ ts ∧
      t.place = fault.place ∧ t.display = found := by
  cases htokens : tokenize source with
  | error fault' =>
    rw [parseTree, htokens] at h
    obtain rfl : fault' = fault := Except.error.inj h
    have hlexical : fault'.cause.isLexical = true := Lexer.tokens_cause htokens
    rw [hfinds.not_isLexical] at hlexical
    cases hlexical
  | ok ts =>
    rw [parseTree, htokens] at h
    have hverdict : Grammar.recognize limit mode.start ts = .error fault := h
    rw [Grammar.recognize_eq_verdict] at hverdict
    obtain ⟨-, init, last, hts, -⟩ := tokenize_found htokens
    cases hrun : mode.start.run (.ofTokens ts) limit ⟨0, 0, [], []⟩ with
    | done value s =>
      rw [hrun] at hverdict
      cases hverdict
    | refused place why memo =>
      rw [hrun] at hverdict
      obtain rfl := Except.error.inj hverdict
      refine ⟨ts, (ts[place]? <|> ts.getLast?).getD default, rfl, ?_, rfl, ?_⟩
      · have hlast : ts.getLast? = some last := by rw [hts, List.getLast?_concat]
        rw [hlast]
        cases hat : ts[place]? with
        | none => exact List.mem_of_getLast? hlast
        | some t => exact List.mem_of_getElem? hat
      · cases why with
        | tooDeep => cases hfinds
        | refusal why => cases why <;> cases hfinds <;> rfl

/-- **Messages quote their arguments** unless one holds the hole of a later one: a text that sets
its holes off is filled with what the arguments say, and nothing else in it changes.  A source that
is refused because of what was found is told so in the words of the token at which it is refused,
exactly where these do not hold the hole of what was expected. -/
theorem messages_quote (text : String) (args : List String) (mode : Mode) (limit : Nat)
    (source : String) :
    (∀ ps : List Template.Piece, setOff ps = true → text.toList = expand hole ps →
      (∀ i j arg, args[i]? = some arg → i < j → j < args.length → ¬ hole j <:+: arg.toList) →
        Template.fill text args = String.ofList (substitute args text.toList)) ∧
    ∀ fault found expecting, parseTree mode limit source = .error fault →
      fault.cause.Finds found expecting →
        ∃ ts t, tokenize source = .ok ts ∧ t ∈ ts ∧ t.place = fault.place ∧ t.display = found ∧
          (fault.cause.text = String.ofList
              (substitute [t.display, expecting] fault.cause.template.text.toList) ↔
            ¬ hole 1 <:+: t.display.toList ∨ expecting.toList = hole 1) := by
  refine ⟨fun ps hps htext hargs => ?_, fun fault found expecting h hfinds => ?_⟩
  · have hsettled : settled 0 args = args := Template.settled_eq_self fun i j arg harg hij hj => by
      rw [Nat.zero_add]
      exact hargs i j arg harg hij hj
    rw [Template.fill, htext, Template.fillFrom_eq_substitute hps, hsettled]
  · obtain ⟨ts, t, hts, ht, hplace, rfl⟩ := parseTree_found h hfinds
    exact ⟨ts, t, hts, ht, hplace, rfl, hfinds.text_eq_iff⟩

/-- The fault of a source. -/
theorem parseTree_of_fault {fault : Fault}
    (h : (match parseTree mode limit source with
      | .error fault => some fault
      | .ok _ => none) = some fault) : parseTree mode limit source = .error fault := by
  cases hparse : parseTree mode limit source with
  | error fault' =>
    rw [hparse] at h
    rw [Option.some.inj h]
  | ok tree =>
    rw [hparse] at h
    cases h

/-- A string that holds the first hole is quoted. -/
theorem messages_quote_first :
    Template.fill "'\x7b0\x7d' expecting \x7b1\x7d" ["\x7b0\x7d", "';'"] =
      "'\x7b0\x7d' expecting ';'" ∧
    ∃ fault, parseTree .expr 20 "a \"\x7b0\x7d\"" = .error fault ∧
      fault.cause.Finds "\"\x7b0\x7d\"" "<EOF>" ∧
      fault.cause.text = "extraneous input '\"\x7b0\x7d\"' expecting <EOF>" := by
  have hquote := messages_quote "'\x7b0\x7d' expecting \x7b1\x7d" ["\x7b0\x7d", "';'"] .expr 20
    "a \"\x7b0\x7d\""
  constructor
  · have hargs : ∀ i j arg, ["\x7b0\x7d", "';'"][i]? = some arg → i < j → j < 2 →
        ¬ hole j <:+: arg.toList := fun i j arg harg hij hj => by
      obtain rfl : i = 0 := by omega
      obtain rfl : j = 1 := by omega
      cases harg
      decide
    rw [hquote.1 (words "'" ++ [.hole 0] ++ words "' expecting " ++ [.hole 1]) (by decide)
      (by decide) hargs]
    decide +kernel
  · have hparse : parseTree .expr 20 "a \"\x7b0\x7d\"" =
        .error ⟨⟨1, 2⟩, .extraneous "\"\x7b0\x7d\"" "<EOF>"⟩ :=
      parseTree_of_fault (by decide +kernel)
    obtain ⟨ts, t, -, -, -, ht, hquotes⟩ := hquote.2 _ _ _ hparse .extraneous
    rw [ht] at hquotes
    refine ⟨_, hparse, .extraneous, ?_⟩
    rw [hquotes.mpr (.inl (by decide +kernel))]
    decide +kernel

/-- **A message can misquote.**  An argument that holds the hole of a later one is not put in as it
is, and a string that holds the second hole is shown with what was expected in its place. -/
theorem parseTree_misquotes :
    Template.fill "\x7b0\x7d\x7b1\x7d" ["\x7b1\x7d", "x"] = "xx" ∧
    substitute ["\x7b1\x7d", "x"] "\x7b0\x7d\x7b1\x7d".toList = "\x7b1\x7dx".toList ∧
    ∃ fault, parseTree .expr 200 "a \"\x7b1\x7d\"" = .error fault ∧
      fault.cause.Finds "\"\x7b1\x7d\"" "<EOF>" ∧
      fault.cause.text = "extraneous input '\"<EOF>\"' expecting <EOF>" ∧
      substitute ["\"\x7b1\x7d\"", "<EOF>"] fault.cause.template.text.toList =
        "extraneous input '\"\x7b1\x7d\"' expecting <EOF>".toList := by
  have hparse : parseTree .expr 200 "a \"\x7b1\x7d\"" =
      .error ⟨⟨1, 2⟩, .extraneous "\"\x7b1\x7d\"" "<EOF>"⟩ :=
    parseTree_of_fault (by decide +kernel)
  exact ⟨by decide +kernel, by decide +kernel, _, hparse, .extraneous, by decide +kernel,
    by decide +kernel⟩

end JavaSource
