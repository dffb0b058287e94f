import JavaSource.Proofs.TextBlocks.Tokens

/-!
# Where the lines of a text block start

The opening quotes and the blanks behind them stand on a line of their own.  The lexer and the table
of lines take a line feed, a carriage return with a line feed or a lone carriage return for the end
of that line (`EndsLine`).  The lines of a text block are split at line feeds alone, and the first
of them starts behind the first line feed.

So nothing of the opening line is kept and no line is lost unless a lone carriage return ends it
(`textBlockLines_opening`); there are as many lines as the table has unless there is a lone carriage
return among them (`ReturnsPaired`).  Where the opening line ends that way the lines up to the first
line feed are lost (`lone_return_opening`), or the opening line is kept if there is none.
-/

namespace JavaSource

open Text (isLineBreak lineStarts)
open Lexer (quotes Closed)
open Literal (content contentLines dropReturn splitLines stripped textBlockLines)

/-! ### Line ends -/

/-- The end of a line, with what stands behind it. -/
inductive EndsLine : List Char → List Char → Prop where
  | feed (behind : List Char) : EndsLine ['\n'] behind
  | both (behind : List Char) : EndsLine ['\r', '\n'] behind
  | lone {behind : List Char} (h : behind.head? ≠ some '\n') : EndsLine ['\r'] behind

theorem exists_endsLine {body : List Char} (h : body.head?.any isLineBreak = true) :
    ∃ ending behind, body = ending ++ behind ∧ EndsLine ending behind := by
  cases body with
  | nil => cases h
  | cons c cs =>
    rw [List.head?_cons, Option.any_some, isLineBreak, Bool.or_eq_true, beq_iff_eq, beq_iff_eq] at h
    rcases h with rfl | rfl
    · exact ⟨['\n'], cs, rfl, .feed cs⟩
    · by_cases hfeed : cs.head? = some '\n'
      · obtain ⟨behind, rfl⟩ := List.head?_eq_some_iff.mp hfeed
        exact ⟨['\r', '\n'], behind, rfl, .both behind⟩
      · exact ⟨['\r'], cs, rfl, .lone hfeed⟩

theorem lineStarts_lone {cs : List Char} (h : cs.head? ≠ some '\n') (offset : Nat) :
    lineStarts offset ('\r' :: cs) = (offset + 1) :: lineStarts (offset + 1) cs := by
  rw [lineStarts]
  exact fun rest heq => h (by rw [heq]; rfl)

/-- The table of lines has the same line ends. -/
theorem EndsLine.lineStarts {ending behind : List Char} (h : EndsLine ending behind)
    (offset : Nat) : lineStarts offset (ending ++ behind) =
      (offset + ending.length) :: lineStarts (offset + ending.length) behind := by
  cases h with
  | feed => rfl
  | both => rfl
  | lone h => exact lineStarts_lone h offset

/-! ### How many lines there are -/

/-- Every carriage return has a line feed behind it. -/
def ReturnsPaired (cs : List Char) : Prop :=
  ∀ ahead behind, cs = ahead ++ '\r' :: behind → behind.head? = some '\n'

theorem length_splitLines (cs : List Char) : (splitLines cs).length = cs.count '\n' + 1 := by
  induction cs with
  | nil => rfl
  | cons c cs ih =>
    rw [splitLines]
    split
    · exact absurd ‹_› (Literal.splitLines_ne_nil cs)
    · rename_i line lines heq
      rw [heq, List.length_cons] at ih
      split
      · rename_i hfeed
        rw [hfeed, List.count_cons_self, List.length_cons, List.length_cons, ih]
      · rename_i hfeed
        rw [List.count_cons_of_ne hfeed, List.length_cons, ih]

/-- A text block has a line more than there are line feeds. -/
theorem length_textBlockLines (text : String) :
    (textBlockLines text).length = (content text).count '\n' + 1 := by
  rw [Literal.textBlockLines_eq, List.length_map, Literal.stripped, List.length_map, contentLines,
    List.length_map, length_splitLines]

theorem returnsPaired_cons {c : Char} {cs : List Char} :
    ReturnsPaired (c :: cs) ↔ (c = '\r' → cs.head? = some '\n') ∧ ReturnsPaired cs := by
  constructor
  · exact fun h => ⟨fun hc => h [] cs (hc ▸ rfl), fun ahead behind heq =>
      h (c :: ahead) behind (congrArg (c :: ·) heq)⟩
  · intro ⟨hc, h⟩ ahead behind heq
    cases ahead with
    | nil =>
      cases heq
      exact hc rfl
    | cons d ahead => exact h ahead behind (List.cons.inj heq).2

/-- The table has a line for each line feed, and more of them only for lone carriage returns. -/
theorem length_lineStarts (offset : Nat) (cs : List Char) :
    cs.count '\n' ≤ (lineStarts offset cs).length ∧
      ((lineStarts offset cs).length = cs.count '\n' ↔ ReturnsPaired cs) := by
  fun_induction lineStarts offset cs with
  | case1 =>
    refine ⟨Nat.le_refl _, fun _ ahead behind heq => ?_, fun _ => rfl⟩
    cases ahead <;> cases heq
  | case2 offset cs ih =>
    have hpaired : ReturnsPaired ('\r' :: '\n' :: cs) ↔ ReturnsPaired cs := by
      rw [returnsPaired_cons, returnsPaired_cons]
      exact ⟨fun h => h.2.2, fun h => ⟨fun _ => rfl, fun hfeed => absurd hfeed (by decide), h⟩⟩
    rw [List.count_cons_of_ne (by decide), List.count_cons_self, List.length_cons, hpaired]
    exact ⟨Nat.succ_le_succ ih.1, Nat.succ_inj.trans ih.2⟩
  | case3 offset cs hfeed ih =>
    rw [List.count_cons_of_ne (by decide), List.length_cons]
    refine ⟨Nat.le_succ_of_le ih.1, fun heq => absurd ih.1 (by omega), fun h => ?_⟩
    obtain ⟨behind, hbehind⟩ := List.head?_eq_some_iff.mp ((returnsPaired_cons.mp h).1 rfl)
    exact (hfeed behind hbehind).elim
  | case4 offset cs ih =>
    have hpaired : ReturnsPaired ('\n' :: cs) ↔ ReturnsPaired cs := by
      rw [returnsPaired_cons]
      exact ⟨fun h => h.2, fun h => ⟨fun hfeed => absurd hfeed (by decide), h⟩⟩
    rw [List.count_cons_self, List.length_cons, hpaired]
    exact ⟨Nat.succ_le_succ ih.1, Nat.succ_inj.trans ih.2⟩
  | case5 offset c cs hboth hreturn hfeed ih =>
    have hpaired : ReturnsPaired (c :: cs) ↔ ReturnsPaired cs := by
      rw [returnsPaired_cons]
      exact ⟨fun h => h.2, fun h => ⟨fun hc => (hreturn hc).elim, h⟩⟩
    rw [List.count_cons_of_ne hfeed, hpaired]
    exact ih

/-! ### Where they start -/

namespace IsTextBlock

variable {text : String} {blanks ending behind : List Char}

theorem not_mem_blanks (h : IsTextBlock text blanks behind) : '\n' ∉ blanks := fun hfeed =>
  absurd (h.blanks _ hfeed) (by decide)

theorem content_of_lone (h : IsTextBlock text blanks (['\r'] ++ behind)) :
    (∀ lost rest, behind = lost ++ '\n' :: rest → '\n' ∉ lost → content text = rest) ∧
      ('\n' ∉ behind → content text = blanks ++ '\r' :: behind) := by
  have hnot {cs : List Char} (hcs : '\n' ∉ cs) : '\n' ∉ blanks ++ '\r' :: cs := fun hfeed => by
    rcases List.mem_append.mp hfeed with hfeed | hfeed
    · exact h.not_mem_blanks hfeed
    · exact hcs ((List.mem_cons.mp hfeed).resolve_left (by decide))
  constructor
  · rintro lost rest rfl hlost
    have hinside : Literal.unquote 3 text = (blanks ++ '\r' :: lost) ++ '\n' :: rest := by
      rw [h.unquote_eq, List.append_assoc]
      rfl
    exact Literal.content_of_feed hinside (hnot hlost)
  · intro hbehind
    have hinside : Literal.unquote 3 text = blanks ++ '\r' :: behind := h.unquote_eq
    rw [Literal.content_of_not_mem (hinside ▸ hnot hbehind), hinside]

/-- The lines start behind the opening line unless a lone carriage return ends that. -/
theorem content_eq_iff (h : IsTextBlock text blanks (ending ++ behind))
    (hending : EndsLine ending behind) : content text = behind ↔ ending ≠ ['\r'] := by
  cases hending with
  | feed => exact iff_of_true (Literal.content_of_feed h.unquote_eq h.not_mem_blanks) (by decide)
  | both =>
    have hinside : Literal.unquote 3 text = (blanks ++ ['\r']) ++ '\n' :: behind := by
      rw [h.unquote_eq, List.append_assoc]
      rfl
    have hfeed : '\n' ∉ blanks ++ ['\r'] := fun hfeed =>
      (List.mem_append.mp hfeed).elim h.not_mem_blanks (by decide)
    exact iff_of_true (Literal.content_of_feed hinside hfeed) (by decide)
  | lone =>
    refine iff_of_false (fun heq => ?_) (not_not_intro rfl)
    by_cases hfeed : '\n' ∈ behind
    · obtain ⟨lost, rest, hbehind, hlost⟩ := List.eq_append_cons_of_mem hfeed
      rw [h.content_of_lone.1 lost rest hbehind hlost] at heq
      have hlength := congrArg List.length (heq.trans hbehind)
      simp only [List.length_append, List.length_cons] at hlength
      omega
    · rw [h.content_of_lone.2 hfeed] at heq
      have hlength := congrArg List.length heq
      simp only [List.length_append, List.length_cons] at hlength
      omega

end IsTextBlock

/-- **The lines of a text block are what stands behind its opening line, unless a lone carriage
return ends that,** and as many as in the table of lines, unless there is a lone carriage return
among them.  Behind a lone carriage return what stands ahead of the first line feed is lost; without
a line feed the opening line is kept. -/
theorem textBlockLines_opening {source : String} {ts : List Token} (h : tokenize source = .ok ts)
    {t : Token} (ht : t ∈ ts) (hkind : t.kind = .textBlock) :
    ∃ blanks ending behind, IsTextBlock t.text blanks (ending ++ behind) ∧
      EndsLine ending behind ∧
      (∀ offset, lineStarts offset (ending ++ behind) =
        (offset + ending.length) :: lineStarts (offset + ending.length) behind) ∧
      textBlockLines t.text =
        (stripped ((splitLines (content t.text)).map dropReturn)).map String.ofList ∧
      (content t.text = behind ↔ ending ≠ ['\r']) ∧
      (ending = ['\r'] →
        (∀ lost rest, behind = lost ++ '\n' :: rest → '\n' ∉ lost → content t.text = rest) ∧
        ('\n' ∉ behind → content t.text = blanks ++ '\r' :: behind)) ∧
      ((textBlockLines t.text).length = (lineStarts 0 (content t.text)).length + 1 ↔
        ReturnsPaired (content t.text)) := by
  obtain ⟨blanks, body, hblock⟩ := tokenize_textBlock h ht hkind
  obtain ⟨ending, behind, rfl, hending⟩ := exists_endsLine hblock.breaks
  refine ⟨blanks, ending, behind, hblock, hending, hending.lineStarts,
    Literal.textBlockLines_eq t.text, hblock.content_eq_iff hending, ?_, ?_⟩
  · rintro rfl
    exact hblock.content_of_lone
  · rw [length_textBlockLines, ← (length_lineStarts 0 (content t.text)).2]
    exact ⟨fun heq => (Nat.succ.inj heq).symm, fun heq => by rw [heq]⟩

/-- A line end of two characters behind a blank, and three lines. -/
theorem textBlockLines_opening_both : ∃ ts t,
    tokenize "\"\"\" \x0d\na\x0d\n\nb\"\"\"" = .ok ts ∧ t ∈ ts ∧ t.kind = .textBlock ∧
      (∃ blanks ending behind, IsTextBlock t.text blanks (ending ++ behind) ∧
        EndsLine ending behind ∧
        (∀ offset, lineStarts offset (ending ++ behind) =
          (offset + ending.length) :: lineStarts (offset + ending.length) behind) ∧
        textBlockLines t.text =
          (stripped ((splitLines (content t.text)).map dropReturn)).map String.ofList ∧
        (content t.text = behind ↔ ending ≠ ['\r']) ∧
        (ending = ['\r'] →
          (∀ lost rest, behind = lost ++ '\n' :: rest → '\n' ∉ lost → content t.text = rest) ∧
          ('\n' ∉ behind → content t.text = blanks ++ '\r' :: behind)) ∧
        ((textBlockLines t.text).length = (lineStarts 0 (content t.text)).length + 1 ↔
          ReturnsPaired (content t.text))) ∧
      textBlockLines t.text = ["a", "", "b"] := by
  have hblock : IsTextBlock "\"\"\" \x0d\na\x0d\n\nb\"\"\"" [' '] "\x0d\na\x0d\n\nb".toList :=
    ⟨by decide, List.forall_mem_singleton.mpr rfl, by decide, by rfl⟩
  have hlines : textBlockLines "\"\"\" \x0d\na\x0d\n\nb\"\"\"" = ["a", "", "b"] := by decide +kernel
  obtain ⟨_, _, hts, -⟩ := hblock.tokenize
  exact ⟨_, _, hts, List.mem_cons_self, rfl, textBlockLines_opening hts List.mem_cons_self rfl,
    hlines⟩

/-- **A line is lost behind a lone carriage return.**  It ends the opening line of the first text
block, for the lexer and for the table of lines, so `abc` stands on a line of its own.  In the
second text block it ends the line of `a`. -/
theorem lone_return_opening :
    (∃ ts t, tokenize "\"\"\"\x0dabc\ndef\"\"\"" = .ok ts ∧ t ∈ ts ∧
      IsTextBlock t.text [] (['\r'] ++ "abc\ndef".toList) ∧
      content t.text = "def".toList ∧ textBlockLines t.text = ["def"] ∧
      (lineStarts 0 "abc\ndef".toList).length + 1 = 2) ∧
    ∃ ts t, tokenize "\"\"\"\na\x0db\"\"\"" = .ok ts ∧ t ∈ ts ∧
      IsTextBlock t.text [] (['\n'] ++ "a\x0db".toList) ∧
      content t.text = "a\x0db".toList ∧ textBlockLines t.text = ["a\x0db"] ∧
      (lineStarts 0 "a\x0db".toList).length + 1 = 2 := by
  have hfirst : IsTextBlock "\"\"\"\x0dabc\ndef\"\"\"" [] (['\r'] ++ "abc\ndef".toList) :=
    ⟨by decide, nofun, by decide, by rfl⟩
  have hsecond : IsTextBlock "\"\"\"\na\x0db\"\"\"" [] (['\n'] ++ "a\x0db".toList) :=
    ⟨by decide, nofun, by decide, by rfl⟩
  have hlines : textBlockLines "\"\"\"\x0dabc\ndef\"\"\"" = ["def"] := by decide +kernel
  have hlines' : textBlockLines "\"\"\"\na\x0db\"\"\"" = ["a\x0db"] := by decide +kernel
  obtain ⟨_, _, hts, -⟩ := hfirst.tokenize
  obtain ⟨_, _, hts', -⟩ := hsecond.tokenize
  exact ⟨⟨_, _, hts, List.mem_cons_self, hfirst,
      hfirst.content_of_lone.1 "abc".toList _ rfl (by decide), hlines, by decide⟩,
    _, _, hts', List.mem_cons_self, hsecond,
    (hsecond.content_eq_iff (.feed _)).mpr (by decide), hlines', by decide⟩

end JavaSource
