import JavaSource.Proofs.TextBlocks.Closing
import JavaSource.Proofs.TextBlocks.Stripping

/-!
# Text blocks as tokens

A token of this kind is three quotes, blanks up to a line break, and text up to the first quotes
that close it (`IsTextBlock`).  The lexer takes nothing else for one, and it takes such text for one
whatever follows (`IsTextBlock.next`).

The lines are split out of what is closed by the quotes too (`IsTextBlock.closed_content`), so the
search for the quotes can be followed through them.
-/

namespace JavaSource

open Text (isLineBreak isSpacing)
open Lexer (quotes Closed Unclosed lexeme textBlock textBlockBody gap)
open Literal (joinLines splitLines)

/-- A text block: quotes, blanks up to the end of the line, and text up to the closing quotes. -/
structure IsTextBlock (text : String) (blanks body : List Char) : Prop where
  text_eq : text.toList = quotes ++ (blanks ++ (body ++ quotes))
  blanks : ∀ c ∈ blanks, isSpacing c = true
  breaks : body.head?.any isLineBreak = true
  closed : Closed body

namespace Lexer

variable {c : Char} {cs : List Char} {kind : TokenKind}

/-! ### What the lexer takes for a text block -/

/-- A text block starts with three quotes. -/
theorem lexeme_textBlock (h : (lexeme c cs).kind = .ok .textBlock) :
    ∃ rest, c :: cs = quotes ++ rest ∧ lexeme c cs = textBlock rest := by
  unfold lexeme at h ⊢
  split at h
  · have hkind := numeral_kind (c :: cs)
    rw [number_kind h] at hkind
    rcases hkind with hkind | hkind | hkind <;> cases hkind
  · rw [if_neg ‹_›]
    split at h
    · cases h
      cases symbol_isSome_text? ‹_›
    · split at h
      · rename_i hquote
        split at h
        · rename_i hquotes
          refine ⟨cs.drop 2, ?_, by rw [if_pos hquote, if_pos hquotes]⟩
          rw [hquote, ← List.take_append_drop 2 cs, hquotes]
          rfl
        · cases stringLiteral_kind h
      · split at h
        · cases charLiteral_kind h
        · split at h
          · rcases word_isSome_text? h with hword | hword <;> cases hword
          · cases h

/-- Behind its opening quotes a text block goes on with blanks and a line break. -/
theorem textBlock_eq (h : (textBlock cs).kind = .ok kind) :
    ∃ blanks body rest, cs = blanks ++ (body ++ (quotes ++ rest)) ∧
      (∀ c ∈ blanks, isSpacing c = true) ∧ body.head?.any isLineBreak = true ∧ Closed body ∧
      (textBlock cs).length = blanks.length + body.length + 6 := by
  unfold textBlock at h ⊢
  dsimp only at h ⊢
  split at h
  · rename_i hbreak
    rw [if_pos hbreak]
    split at h
    · rename_i n hbody
      obtain ⟨body, rest, hrest, rfl, hclosed⟩ := exists_closed hbody
      have htake : cs.take (cs.takeWhile isSpacing).length = cs.takeWhile isSpacing :=
        (List.prefix_iff_eq_take.mp (List.takeWhile_prefix isSpacing)).symm
      have hcs := (List.take_append_drop (cs.takeWhile isSpacing).length cs).symm
      rw [htake, hrest] at hcs
      refine ⟨_, body, rest, hcs, fun c hc => ?_, ?_, hclosed, ?_⟩
      · exact List.all_eq_true.mp List.all_takeWhile c hc
      · rw [hrest] at hbreak
        cases body with
        | nil => cases hbreak
        | cons d body => exact hbreak
      · dsimp only
        omega
    · cases h
  · cases h

/-- Quotes, blanks up to a line break and text up to the closing quotes are a text block. -/
theorem textBlock_of_closed {blanks body : List Char} (hblanks : ∀ c ∈ blanks, isSpacing c = true)
    (hbreak : body.head?.any isLineBreak = true) (hclosed : Closed body) (rest : List Char) :
    textBlock (blanks ++ (body ++ (quotes ++ rest))) =
      ⟨blanks.length + body.length + 6, .ok .textBlock⟩ := by
  obtain ⟨c, body, rfl⟩ : ∃ c cs, body = c :: cs := List.exists_cons_of_ne_nil fun hnil => by
    rw [hnil] at hbreak
    cases hbreak
  have hspacing : ¬ isSpacing c = true := fun hc => by
    rw [List.head?_cons, Option.any_some, isLineBreak, Bool.or_eq_true, beq_iff_eq, beq_iff_eq]
      at hbreak
    rcases hbreak with rfl | rfl <;> exact absurd hc (by decide)
  have htake : (blanks ++ (c :: body ++ (quotes ++ rest))).takeWhile isSpacing = blanks := by
    rw [List.takeWhile_append_of_pos hblanks, List.cons_append, List.takeWhile_cons_of_neg hspacing,
      List.append_nil]
  have hbreak' : (c :: body ++ (quotes ++ rest)).head?.any isLineBreak = true := hbreak
  unfold textBlock
  dsimp only
  rw [htake, List.drop_left, if_pos hbreak', hclosed.append]
  dsimp only
  congr 1
  omega

/-! ### Text blocks among the tokens of a text -/

/-- Each token of a text is read somewhere in it. -/
theorem exists_next_of_mem (lexer : Lexer) {ts : List Token} (h : lexer.tokens = .ok ts)
    {t : Token} (ht : t ∈ ts) : ∃ here behind : Lexer, here.next = (.ok t, behind) := by
  fun_induction tokens lexer generalizing ts with
  | case1 => cases h
  | case2 lexer t behind hnext he =>
    cases h
    exact ⟨lexer, behind, List.mem_singleton.mp ht ▸ hnext⟩
  | case3 => cases h
  | case4 lexer u behind hnext he us hus ih =>
    cases h
    rcases List.mem_cons.mp ht with rfl | ht
    · exact ⟨lexer, behind, hnext⟩
    · exact ih hus ht

theorem next_textBlock {lexer behind : Lexer} {t : Token} (h : lexer.next = (.ok t, behind))
    (ht : t.kind = .textBlock) : ∃ blanks body, IsTextBlock t.text blanks body := by
  cases step_of_next h with
  | finish => cases ht
  | @token n len c cs kind hgap hcs hlex =>
    obtain rfl : kind = .textBlock := ht
    have hkind : (lexeme c cs).kind = .ok .textBlock := by rw [hlex]
    obtain ⟨rest, hrest, hlexeme⟩ := lexeme_textBlock hkind
    rw [hlexeme] at hkind hlex
    obtain ⟨blanks, body, rest, rfl, hblanks, hbreak, hclosed, hlength⟩ := textBlock_eq hkind
    rw [hlex] at hlength
    refine ⟨blanks, body, ?_, hblanks, hbreak, hclosed⟩
    dsimp only at hlength ⊢
    rw [hlength, hrest, String.toList_ofList]
    have hpieces : quotes ++ (blanks ++ (body ++ (quotes ++ rest))) =
        quotes ++ (blanks ++ (body ++ quotes)) ++ rest := by
      simp only [List.append_assoc]
    have hsize : (quotes ++ (blanks ++ (body ++ quotes))).length =
        blanks.length + body.length + 6 := by
      simp only [List.length_append, quotes, List.length_cons, List.length_nil]
      omega
    rw [hpieces, ← hsize, List.take_left]

end Lexer

/-- A text block in a source. -/
theorem tokenize_textBlock {source : String} {ts : List Token} (h : tokenize source = .ok ts)
    {t : Token} (ht : t ∈ ts) (hkind : t.kind = .textBlock) :
    ∃ blanks body, IsTextBlock t.text blanks body := by
  obtain ⟨here, behind, hnext⟩ := Lexer.exists_next_of_mem _ h ht
  exact Lexer.next_textBlock hnext hkind

namespace IsTextBlock

variable {text : String} {blanks body : List Char}

theorem length_eq (h : IsTextBlock text blanks body) :
    text.toList.length = blanks.length + body.length + 6 := by
  rw [h.text_eq]
  simp only [List.length_append, quotes, List.length_cons, List.length_nil]
  omega

/-- **A text block is read as one token, whatever follows it.** -/
theorem next (h : IsTextBlock text blanks body) (lines : Text.Lines) (offset : Nat)
    (rest : List Char) :
    Lexer.next ⟨lines, offset, text.toList ++ rest⟩ =
      (.ok ⟨.textBlock, text, lines.placeOf offset, ⟨offset, offset + text.toList.length⟩⟩,
        ⟨lines, offset + text.toList.length, rest⟩) := by
  obtain ⟨cs, hcons, hlexeme⟩ : ∃ cs, text.toList ++ rest = '\x22' :: cs ∧
      lexeme '\x22' cs = ⟨text.toList.length, .ok .textBlock⟩ := by
    refine ⟨'\x22' :: '\x22' :: (blanks ++ (body ++ (quotes ++ rest))), ?_, ?_⟩
    · rw [h.text_eq]
      simp only [quotes, List.append_assoc, List.cons_append, List.nil_append]
    · rw [h.length_eq]
      exact Lexer.textBlock_of_closed h.blanks h.breaks h.closed rest
  have hgap : gap ('\x22' :: cs) = ⟨0, none⟩ :=
    Lexes.gap_cons (by decide) fun heq => absurd heq (by decide)
  have htake : String.ofList (('\x22' :: cs).take text.toList.length) = text := by
    rw [← hcons, List.take_left, String.ofList_toList]
  have hbehind : cs.drop (text.toList.length - 1) = rest := by
    have hpos : text.toList.length = text.toList.length - 1 + 1 := by
      rw [h.length_eq]
      omega
    rw [← List.drop_succ_cons (a := '\x22'), ← hpos, ← hcons, List.drop_left]
  simp only [hcons, Lexer.next, hgap, Lexer.advance, List.drop_zero, hlexeme, hbehind, htake,
    Nat.add_zero]

/-- A source that is a text block has one token ahead of the end. -/
theorem tokenize (h : IsTextBlock text blanks body) : ∃ place final,
    JavaSource.tokenize text =
      .ok [⟨.textBlock, text, place, ⟨0, text.toList.length⟩⟩, final] ∧ final.kind = .eof := by
  have hnext := h.next (.ofText text.toList) 0 []
  rw [List.append_nil, Nat.zero_add] at hnext
  have hfinal : Lexer.next ⟨.ofText text.toList, text.toList.length, []⟩ =
      (.ok ⟨.eof, "", (Text.Lines.ofText text.toList).placeOf text.toList.length,
        ⟨text.toList.length, text.toList.length⟩⟩,
        ⟨.ofText text.toList, text.toList.length, []⟩) := by
    simp only [Lexer.next, gap, Lexer.advance, List.drop_nil, Nat.add_zero]
  have hkind : TokenKind.textBlock ≠ .eof := by decide
  exact ⟨_, _, Lexer.tokens_of_next hnext hkind (Lexer.tokens_of_eof hfinal rfl), rfl⟩

/-! ### What is split into lines -/

theorem unquote_eq (h : IsTextBlock text blanks body) :
    Literal.unquote 3 text = blanks ++ body := by
  have hquotes : ("\"\"\"" : String).toList = quotes := by decide
  have htext : text = "\"\"\"" ++ String.ofList (blanks ++ body) ++ "\"\"\"" := by
    rw [← String.toList_inj, h.text_eq]
    simp only [String.toList_append, hquotes, String.toList_ofList, List.append_assoc]
  rw [htext, Literal.unquote_quotes, String.toList_ofList]

theorem closed_inside (h : IsTextBlock text blanks body) : Closed (blanks ++ body) :=
  (Lexer.closed_blanks_iff fun _ hc => Lexer.isPlain_of_isSpacing (h.blanks _ hc)).mpr h.closed

/-- What is split into lines is closed by the quotes behind it. -/
theorem closed_content (h : IsTextBlock text blanks body) : Closed (Literal.content text) := by
  have hclosed := h.closed_inside
  rw [← h.unquote_eq] at hclosed
  by_cases hfeed : '\n' ∈ Literal.unquote 3 text
  · obtain ⟨ahead, cs, hinside, hahead⟩ := List.eq_append_cons_of_mem hfeed
    rw [Literal.content_of_feed hinside hahead]
    rw [hinside] at hclosed
    exact (Lexer.closed_line_iff.mp hclosed).2
  · rwa [Literal.content_of_not_mem hfeed]

/-- No line of a text block but the last one closes it. -/
theorem closed_lines (h : IsTextBlock text blanks body) :
    (∀ line ∈ (splitLines (Literal.content text)).dropLast, Unclosed line) ∧
      Closed ((splitLines (Literal.content text)).getLast (Literal.splitLines_ne_nil _)) := by
  have hclosed := Lexer.closed_feed_iff.mpr h.closed_content
  rwa [← Literal.joinLines_splitLines, Lexer.closed_joinLines_iff (Literal.splitLines_ne_nil _)]
    at hclosed

end IsTextBlock

end JavaSource
