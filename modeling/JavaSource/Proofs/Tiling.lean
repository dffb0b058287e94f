import JavaSource.Proofs.Tokens

/-!
# Tokens tile a text

A text is cut into tokens and what separates them, and nothing of it is lost.

`Trivia cs rest` says that `cs`, in front of `rest`, is made of blanks and comments alone.  The gap
ahead of a token is made so (`Lexer.gap_trivia`), and a lexeme lies within the text
(`Lexer.lexeme_le`).

* **`tokenize_tiles`**: the tokens of a source follow each other without overlap, each one is the
  text of its range and stands in the line and column where that starts, and what lies between them
  is trivia.
-/

namespace JavaSource

open Text

/-- Blanks and comments in front of the rest of a text.  A comment behind `//` ends where its line
does; one behind `/*` ends with the first `*/`. -/
inductive Trivia : List Char → List Char → Prop where
  | nil (rest : List Char) : Trivia [] rest
  | blank {c : Char} {cs rest : List Char} (hc : c ∈ [' ', '\t', '\x0c', '\r', '\n'])
    (behind : Trivia cs rest) : Trivia (c :: cs) rest
  | line {body cs rest : List Char} (hbody : ∀ c ∈ body, c ≠ '\r' ∧ c ≠ '\n')
    (hend : ∀ c ∈ (cs ++ rest).head?, c = '\r' ∨ c = '\n') (behind : Trivia cs rest) :
    Trivia ('/' :: '/' :: (body ++ cs)) rest
  | block {body cs rest : List Char} (hbody : ¬['*', '/'] <:+: body ++ ['*'])
    (behind : Trivia cs rest) : Trivia ('/' :: '*' :: (body ++ '*' :: '/' :: cs)) rest

namespace Lexer

/-! ### The gap ahead of a token -/

theorem mem_blanks {c : Char} (h : (isLineBreak c || isSpacing c) = true) :
    c ∈ [' ', '\t', '\x0c', '\r', '\n'] := by
  simp only [isLineBreak, isSpacing, Bool.or_eq_true, beq_iff_eq] at h
  rcases h with (rfl | rfl) | (rfl | rfl) | rfl <;> decide

theorem past_eq {α : Type} {k n : Nat} {reading : Nat × α} {a : α}
    (h : past k reading = (n, a)) : reading = (reading.1, a) ∧ k + reading.1 = n :=
  ⟨Prod.ext rfl (Prod.mk.inj h).2, (Prod.mk.inj h).1⟩

/-- A comment that is closed ends with the first `*/`. -/
theorem commentBody_eq {cs : List Char} {n : Nat} (h : commentBody cs = (n, true)) :
    ∃ body rest, cs = body ++ '*' :: '/' :: rest ∧ n = body.length + 2 ∧
      ¬['*', '/'] <:+: body ++ ['*'] := by
  fun_induction commentBody cs generalizing n with
  | case1 => cases h
  | case2 rest =>
    cases h
    exact ⟨[], rest, rfl, rfl, by decide⟩
  | case3 c cs hopen ih =>
    obtain ⟨hcs, rfl⟩ := past_eq h
    obtain ⟨body, rest, rfl, hlength, hfirst⟩ := ih hcs
    refine ⟨c :: body, rest, rfl, by rw [hlength, List.length_cons]; omega, fun hinfix => ?_⟩
    rcases List.infix_cons_iff.mp hinfix with hstart | hlater
    · -- Then `c` and what stands behind it would have closed the comment.
      obtain ⟨hc, tail, htail⟩ := List.cons_prefix_cons.mp hstart
      cases body with
      | nil => cases htail
      | cons d body =>
        obtain rfl : '/' = d := (List.cons.inj htail).1
        exact hopen _ hc.symm rfl
    · exact hfirst hlater

/-- A comment of one line ends where the line does. -/
theorem lineComment_eq (cs : List Char) :
    ∃ body rest, cs = body ++ rest ∧ lineComment cs = body.length ∧
      (∀ c ∈ body, c ≠ '\r' ∧ c ≠ '\n') ∧ ∀ c ∈ rest.head?, c = '\r' ∨ c = '\n' := by
  refine ⟨cs.takeWhile fun c => !isLineBreak c, cs.dropWhile fun c => !isLineBreak c,
    List.takeWhile_append_dropWhile.symm, rfl, fun c hc => ?_, fun c hc => ?_⟩
  · have hbreak : (!isLineBreak c) = true := List.all_eq_true.mp List.all_takeWhile c hc
    simp only [isLineBreak, Bool.not_eq_true', Bool.or_eq_false_iff, beq_eq_false_iff_ne] at hbreak
    exact hbreak.symm
  · have hbreak := List.head?_dropWhile_not (fun c => !isLineBreak c) cs
    rw [hc] at hbreak
    have hbreak : (!isLineBreak c) = false := hbreak
    simp only [isLineBreak, Bool.not_eq_false', Bool.or_eq_true, beq_iff_eq] at hbreak
    exact hbreak.symm

theorem behind_eq {gap : Gap} {k n : Nat} (h : gap.behind k = ⟨n, none⟩) :
    gap = ⟨gap.length, none⟩ ∧ k + gap.length = n := by
  obtain ⟨length, opened⟩ := gap
  cases opened with
  | none => exact ⟨rfl, congrArg Gap.length h⟩
  | some i => cases h

/-- **The gap ahead of a token is trivia.** -/
theorem gap_trivia {cs : List Char} {n : Nat} (h : gap cs = ⟨n, none⟩) :
    ∃ blanks rest, cs = blanks ++ rest ∧ n = blanks.length ∧ Trivia blanks rest := by
  fun_induction gap cs generalizing n with
  | case1 cs k =>
    rename_i ih
    obtain ⟨hgap, rfl⟩ := behind_eq h
    obtain ⟨body, behind, rfl, hlength, hbody, hend⟩ := lineComment_eq cs
    have hk : k = body.length := hlength
    rw [hk, List.drop_left] at ih hgap ⊢
    obtain ⟨blanks, rest, rfl, hn, htrivia⟩ := ih hgap
    refine ⟨'/' :: '/' :: (body ++ blanks), rest, ?_, ?_, .line hbody hend htrivia⟩
    · simp only [List.cons_append, List.append_assoc]
    · simp only [List.length_cons, List.length_append, hn]
      omega
  | case2 cs k hclosed ih =>
    obtain ⟨hgap, rfl⟩ := behind_eq h
    obtain ⟨body, behind, rfl, rfl, hbody⟩ := commentBody_eq hclosed
    have hdrop : (body ++ '*' :: '/' :: behind).drop (body.length + 2) = behind := by
      rw [List.drop_append, List.drop_of_length_le (by omega)]
      simp
    rw [hdrop] at ih hgap ⊢
    obtain ⟨blanks, rest, rfl, hn, htrivia⟩ := ih hgap
    refine ⟨'/' :: '*' :: (body ++ '*' :: '/' :: blanks), rest, ?_, ?_, .block hbody htrivia⟩
    · simp only [List.cons_append, List.append_assoc]
    · simp only [List.length_cons, List.length_append, hn]
      omega
  | case3 cs k hopen => cases h
  | case4 c cs hline hblock hc ih =>
    obtain ⟨hgap, rfl⟩ := behind_eq h
    obtain ⟨blanks, rest, rfl, hn, htrivia⟩ := ih hgap
    exact ⟨c :: blanks, rest, rfl, by rw [hn, List.length_cons, Nat.add_comm],
      .blank (mem_blanks hc) htrivia⟩
  | case5 c cs =>
    cases h
    exact ⟨[], c :: cs, rfl, rfl, .nil _⟩
  | case6 =>
    cases h
    exact ⟨[], [], rfl, rfl, .nil _⟩

/-! ### A lexeme lies within the text -/

/-- A reading takes no more characters than there are. -/
def Fits {α : Type} (cs : List Char) (reading : Nat × α) : Prop := reading.1 ≤ cs.length

theorem Fits.past {α : Type} {n : Nat} {cs : List Char} {reading : Nat × α}
    (h : Fits (cs.drop n) reading) (hn : n ≤ cs.length) : Fits cs (past n reading) := by
  simp only [Fits, List.length_drop, Lexer.past] at h ⊢
  omega

theorem length_digitRun_le (valid : Char → Bool) (cs : List Char) :
    (digitRun valid cs).length ≤ cs.length := by
  cases cs with
  | nil => exact Nat.le_refl 0
  | cons c cs =>
    rw [digitRun]
    split
    · exact Nat.succ_le_succ (List.takeWhile_sublist _).length_le
    · exact Nat.zero_le _

theorem exponent_fits (marks cs : List Char) : Fits cs (exponent marks cs) := by
  cases cs with
  | nil => exact Nat.le_refl 0
  | cons c cs =>
    rw [exponent]
    split
    · have hsign : (if cs.head? == some '+' || cs.head? == some '-' then 1 else 0) ≤ cs.length := by
        cases cs with
        | nil => exact Nat.le_refl 0
        | cons d ds => split <;> simp
      generalize (if cs.head? == some '+' || cs.head? == some '-' then 1 else 0) = sign at hsign ⊢
      have hrun := length_digitRun_le isDecimalDigit (cs.drop sign)
      rw [List.length_drop] at hrun
      simp only [Fits, List.length_cons]
      omega
    · exact Nat.zero_le _

theorem integerSuffix_fits (cs : List Char) : Fits cs (integerSuffix cs) := by
  unfold integerSuffix
  split
  · exact Nat.succ_le_succ (Nat.zero_le _)
  · exact Nat.succ_le_succ (Nat.zero_le _)
  · exact Nat.zero_le _

theorem floatSuffix_fits (cs : List Char) : Fits cs (floatSuffix cs) := by
  cases cs with
  | nil => exact Nat.zero_le _
  | cons c cs =>
    simp only [Fits, floatSuffix]
    split
    · exact Nat.succ_le_succ (Nat.zero_le _)
    · exact Nat.zero_le _

theorem binaryNumeral_fits (cs : List Char) : Fits cs (binaryNumeral cs) := by
  have hrun := length_digitRun_le isBinaryDigit cs
  simp only [binaryNumeral]
  split
  · exact hrun
  · exact (integerSuffix_fits _).past hrun

theorem hexTail_fits (dotted : Bool) (cs : List Char) : Fits cs (hexTail dotted cs) := by
  have hexponent := exponent_fits ['p', 'P'] cs
  unfold hexTail
  split
  · rename_i h
    rwa [h] at hexponent
  · split
    · exact Nat.zero_le _
    · exact integerSuffix_fits cs
  · rename_i h
    rw [h] at hexponent
    exact (floatSuffix_fits _).past hexponent

theorem hexNumeral_fits (cs : List Char) : Fits cs (hexNumeral cs) := by
  simp only [hexNumeral]
  refine Fits.past ?_ (length_digitRun_le isHexDigit cs)
  split
  · exact Nat.zero_le _
  · split
    · rename_i rest hrest
      have hfraction := length_digitRun_le isHexDigit rest
      rw [hrest]
      refine Fits.past ?_ (by rw [List.length_cons]; omega)
      split
      · exact Nat.zero_le _
      · rw [Nat.add_comm, List.drop_succ_cons]
        exact hexTail_fits true _
    · split
      · exact Nat.zero_le _
      · exact hexTail_fits false _

theorem decimalTail_fits (dotted : Bool) (cs : List Char) : Fits cs (decimalTail dotted cs) := by
  have hexponent := exponent_fits ['e', 'E'] cs
  unfold decimalTail
  split
  · rename_i h
    rwa [h] at hexponent
  · rename_i h
    rw [h] at hexponent
    refine Fits.past ?_ hexponent
    split
    · exact floatSuffix_fits _
    · exact integerSuffix_fits _

theorem decimalNumeral_fits (cs : List Char) : Fits cs (decimalNumeral cs) := by
  simp only [decimalNumeral]
  refine Fits.past ?_ (length_digitRun_le isDecimalDigit cs)
  split
  · exact Nat.zero_le _
  · split
    · rename_i rest hrest
      rw [hrest]
      split
      · exact decimalTail_fits false _
      · have hfraction := length_digitRun_le isDecimalDigit rest
        refine Fits.past ?_ (by rw [List.length_cons]; omega)
        split
        · exact Nat.zero_le _
        · rw [Nat.add_comm, List.drop_succ_cons]
          exact decimalTail_fits true _
    · exact decimalTail_fits false _

theorem numeral_fits (cs : List Char) : Fits cs (numeral cs) := by
  unfold numeral
  split
  · exact (hexNumeral_fits _).past (Nat.le_add_left 2 _)
  · exact (hexNumeral_fits _).past (Nat.le_add_left 2 _)
  · exact (binaryNumeral_fits _).past (Nat.le_add_left 2 _)
  · exact (binaryNumeral_fits _).past (Nat.le_add_left 2 _)
  · exact decimalNumeral_fits cs

theorem stringBody_le {cs : List Char} {n : Nat} (h : stringBody cs = (n, true)) :
    n ≤ cs.length := by
  fun_induction stringBody cs generalizing n
  case case1 => cases h
  case case2 cs =>
    cases h
    exact Nat.succ_le_succ (Nat.zero_le _)
  case case3 => cases h
  case case4 c cs ih =>
    obtain ⟨hcs, rfl⟩ := past_eq h
    have hn := ih hcs
    simp only [List.length_cons]
    omega
  case case5 => cases h
  case case6 c cs _ _ _ ih =>
    obtain ⟨hcs, rfl⟩ := past_eq h
    have hn := ih hcs
    simp only [List.length_cons]
    omega

/-- A text block that is closed ends with three quotes, whatever stands behind them. -/
theorem textBlockBody_eq {cs : List Char} {n : Nat} (h : textBlockBody cs = (n, true)) :
    ∃ body rest, cs = body ++ '\x22' :: '\x22' :: '\x22' :: rest ∧ n = body.length + 3 ∧
      ∀ tail, textBlockBody (body ++ '\x22' :: '\x22' :: '\x22' :: tail) = (n, true) := by
  fun_induction textBlockBody cs generalizing n with
  | case1 => cases h
  | case2 rest =>
    cases h
    exact ⟨[], rest, rfl, rfl, fun _ => rfl⟩
  | case3 => cases h
  | case4 c cs ih =>
    obtain ⟨hcs, rfl⟩ := past_eq h
    obtain ⟨body, rest, rfl, hlength, htail⟩ := ih hcs
    refine ⟨'\\' :: c :: body, rest, rfl, ?_, fun tail => congrArg (past 2) (htail tail)⟩
    rw [hlength, List.length_cons, List.length_cons]
    omega
  | case5 c cs hquotes hlast hslash ih =>
    obtain ⟨hcs, rfl⟩ := past_eq h
    obtain ⟨body, rest, rfl, hlength, htail⟩ := ih hcs
    refine ⟨c :: body, rest, rfl, by rw [hlength, List.length_cons]; omega, fun tail => ?_⟩
    rw [List.cons_append, textBlockBody, htail]
    · rfl
    · -- Two quotes behind a quote stand there with any text behind the three that close.
      intro rest' hc heq
      rcases body with _ | ⟨d, _ | ⟨e, body⟩⟩ <;> cases heq <;> exact hquotes _ hc rfl
    · exact fun _ hnil => by cases body <;> cases hnil
    · intro d rest' hc heq
      cases body <;> exact hslash _ _ hc rfl

theorem textBlockBody_le {cs : List Char} {n : Nat} (h : textBlockBody cs = (n, true)) :
    n ≤ cs.length := by
  obtain ⟨body, rest, rfl, rfl, -⟩ := textBlockBody_eq h
  simp only [List.length_append, List.length_cons]
  omega

theorem stringLiteral_le {cs : List Char} {kind : TokenKind}
    (h : (stringLiteral cs).kind = .ok kind) : (stringLiteral cs).length ≤ cs.length + 1 := by
  unfold stringLiteral at h ⊢
  split at h
  · exact Nat.succ_le_succ (stringBody_le ‹_›)
  · cases h

theorem textBlock_le {cs : List Char} {kind : TokenKind} (h : (textBlock cs).kind = .ok kind) :
    (textBlock cs).length ≤ cs.length + 3 := by
  have hblanks : (cs.takeWhile isSpacing).length ≤ cs.length := (List.takeWhile_sublist _).length_le
  simp only [textBlock] at h ⊢
  split at h
  · rw [if_pos ‹_›]
    split at h
    · rename_i hbody
      have hn := textBlockBody_le hbody
      rw [List.length_drop] at hn
      dsimp only
      omega
    · cases h
  · cases h

theorem escape_le (cs : List Char) : escape cs ≤ cs.length := by
  cases cs with
  | nil => exact Nat.le_refl 0
  | cons c cs =>
    rw [escape]
    split
    · dsimp only
      have hmarks : ((c :: cs).takeWhile (· == 'u')).length ≤ (c :: cs).length :=
        (List.takeWhile_sublist _).length_le
      have hdigits : ((((c :: cs).drop ((c :: cs).takeWhile (· == 'u')).length).take 4).takeWhile
          isHexDigit).length ≤ ((c :: cs).drop ((c :: cs).takeWhile (· == 'u')).length).length :=
        ((List.takeWhile_sublist _).trans (List.take_sublist ..)).length_le
      rw [List.length_drop] at hdigits
      omega
    · split
      · exact ((List.takeWhile_sublist _).trans (List.take_sublist ..)).length_le
      · exact Nat.succ_le_succ (Nat.zero_le _)

theorem charEnd_le {cs : List Char} {n : Nat} (hn : n ≤ cs.length) :
    (charEnd cs n).length ≤ cs.length + 1 := by
  unfold charEnd
  split
  · exact Nat.succ_le_succ hn
  · rename_i c rest hrest
    have hlength : (cs.drop n).length = rest.length + 1 := congrArg List.length hrest
    rw [List.length_drop] at hlength
    split
    · dsimp only
      omega
    · split <;> exact Nat.succ_le_succ hn

theorem charLiteral_le (cs : List Char) : (charLiteral cs).length ≤ cs.length + 1 := by
  unfold charLiteral
  split
  · exact Nat.le_refl 1
  · rename_i c cs
    split
    · exact Nat.succ_le_succ (Nat.zero_le _)
    · split
      · exact Nat.succ_le_succ (Nat.zero_le _)
      · split
        · have hescape := escape_le cs
          exact charEnd_le (by rw [List.length_cons]; omega)
        · exact charEnd_le (Nat.succ_le_succ (Nat.zero_le _))

theorem word_le (cs : List Char) : (word cs).length ≤ cs.length := by
  have hname : (cs.takeWhile isNamePart).length ≤ cs.length := (List.takeWhile_sublist _).length_le
  simp only [word]
  split
  · rename_i h
    simp only [Bool.and_eq_true] at h
    have htail := (List.isPrefixOf_iff_prefix.mp h.1.2).length_le
    rw [List.length_drop] at htail
    dsimp only
    omega
  · exact hname

theorem symbol_le {cs : List Char} {n : Nat} {kind : TokenKind} (h : symbol cs = some (n, kind)) :
    n ≤ cs.length := by
  unfold symbol at h
  split at h <;> cases h <;> simp only [List.length_cons] <;> omega

theorem number_le (cs : List Char) : (number cs).length ≤ cs.length := by
  have hnumeral : (numeral cs).1 ≤ cs.length := numeral_fits cs
  unfold number
  split <;> rename_i hn <;> rwa [hn] at hnumeral

/-- What is not quoted lies within the text, well formed or not. -/
theorem lexeme_le_of_ne {c : Char} (hc : c ≠ '\x22') (cs : List Char) :
    (lexeme c cs).length ≤ cs.length + 1 := by
  unfold lexeme
  split
  · exact number_le (c :: cs)
  · split
    · exact symbol_le ‹_›
    · split
      · exact charLiteral_le cs
      · split
        · exact word_le (c :: cs)
        · exact Nat.zero_le _

theorem lexeme_quote (cs : List Char) : lexeme '\x22' cs =
    if cs.take 2 = ['\x22', '\x22'] then textBlock (cs.drop 2) else stringLiteral cs := rfl

/-- Quotes in front of a text block. -/
theorem two_le_length_of_take {cs : List Char} (h : cs.take 2 = ['\x22', '\x22']) :
    2 ≤ cs.length := by
  have htake : min 2 cs.length = 2 := by
    rw [← List.length_take, h]
    rfl
  omega

/-- **A lexeme lies within the text.** -/
theorem lexeme_le {c : Char} {cs : List Char} {kind : TokenKind}
    (h : (lexeme c cs).kind = .ok kind) : (lexeme c cs).length ≤ cs.length + 1 := by
  by_cases hc : c = '\x22'
  · subst hc
    rw [lexeme_quote] at h ⊢
    split at h
    · rename_i hquotes
      rw [if_pos hquotes]
      have hblock := textBlock_le h
      have hlength := two_le_length_of_take hquotes
      rw [List.length_drop] at hblock
      omega
    · rw [if_neg ‹_›]
      exact stringLiteral_le h
  · exact lexeme_le_of_ne hc cs

end Lexer

/-! ### Tiles -/

/-- The characters in a range of a text. -/
def Text.Range.cut (text : List Char) (r : Range) : List Char := (text.drop r.start).take r.length

theorem Text.Range.cut_append {before cut after : List Char} {r : Range}
    (hstart : r.start = before.length) (hstop : r.stop = before.length + cut.length) :
    r.cut (before ++ (cut ++ after)) = cut := by
  rw [Range.cut, Range.length, hstart, hstop, Nat.add_sub_cancel_left, List.drop_left,
    List.take_left]

/-- A token behind some trivia, in a text that is cut up around it. -/
structure Token.Cuts (text before blanks word after : List Char) (t : Token) : Prop where
  pieces : text = before ++ (blanks ++ (word ++ after))
  trivia : Trivia blanks (word ++ after)
  range : t.range = ⟨before.length + blanks.length, before.length + blanks.length + word.length⟩
  text_eq : t.text.toList = word
  place_eq : t.place = (Lines.ofText text).placeOf t.range.start

namespace Token.Cuts

variable {text before blanks word after : List Char} {t : Token}

theorem cut_word (h : t.Cuts text before blanks word after) : t.range.cut text = word := by
  rw [h.pieces, ← List.append_assoc]
  exact Range.cut_append (by rw [h.range, List.length_append])
    (by rw [h.range, List.length_append])

theorem stop_le (h : t.Cuts text before blanks word after) : t.range.stop ≤ text.length := by
  rw [h.pieces, h.range]
  simp only [List.length_append]
  omega

end Token.Cuts

namespace Lexer

/-- The next token is cut out of the text where the lexer stands. -/
theorem next_cuts {text before : List Char} {lexer behind : Lexer} {t : Token}
    (hlines : lexer.lines = .ofText text) (hoffset : lexer.offset = before.length)
    (htext : text = before ++ lexer.rest) (h : lexer.next = (.ok t, behind)) :
    ∃ blanks word, t.Cuts text before blanks word behind.rest ∧
      (t.kind = .eof → word = [] ∧ behind.rest = []) ∧ (t.kind ≠ .eof → word ≠ []) ∧
      behind.lines = .ofText text ∧ behind.offset = t.range.stop := by
  cases step_of_next h with
  | finish hgap hrest =>
    obtain ⟨blanks, rest, heq, rfl, htrivia⟩ := gap_trivia hgap
    rw [heq, List.drop_left] at hrest
    subst hrest
    have hbehind : (lexer.advance blanks.length).rest = [] := by
      rw [advance, heq, List.drop_left]
    refine ⟨blanks, [], ⟨?_, ?_, ?_, rfl, by rw [hlines]⟩, fun _ => ⟨rfl, hbehind⟩,
      fun he => absurd rfl he, hlines, rfl⟩
    · rw [htext, heq, hbehind, List.nil_append]
    · rwa [hbehind]
    · rw [hoffset, List.length_nil, Nat.add_zero]
  | @token n len c cs kind hgap hrest hlexeme =>
    obtain ⟨blanks, rest, heq, rfl, htrivia⟩ := gap_trivia hgap
    rw [heq, List.drop_left] at hrest
    subst hrest
    have hkind : (lexeme c cs).kind = .ok kind := by rw [hlexeme]
    have hpos := lexeme_pos hkind
    have hle := lexeme_le hkind
    rw [hlexeme] at hpos hle
    have hbehind : ((lexer.advance blanks.length).advance len).rest = (c :: cs).drop len := by
      rw [advance, advance, heq, List.drop_left]
    have hword : (c :: cs).take len ++ (c :: cs).drop len = c :: cs := List.take_append_drop ..
    have hlength : ((c :: cs).take len).length = len := by
      rw [List.length_take]
      exact Nat.min_eq_left hle
    refine ⟨blanks, (c :: cs).take len, ⟨?_, ?_, ?_, String.toList_ofList, by rw [hlines]⟩,
      fun he => absurd he (lexeme_spells hkind).1.1, fun _ hnil => ?_, hlines, rfl⟩
    · rw [htext, heq, hbehind, hword]
    · rwa [hbehind, hword]
    · rw [hlength, hoffset]
    · rw [hnil] at hlength
      exact absurd hlength.symm (Nat.ne_of_gt hpos)

end Lexer

end JavaSource
