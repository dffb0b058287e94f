import JavaSource.Proofs.TextBlocks.Opening

/-!
# Text blocks read back

The lines of a text block are written behind a margin and between quotes.  Read again they are the
same lines, at every indent and depth, if each carriage return in the text block has a line feed
behind it (`readsBack_of_returnsPaired`).

Otherwise they may not be.  Reading a line drops one carriage return at its end, which then stands
nowhere.  If there was another one ahead of it, that one is dropped when the line is read again.  If
it was the last line, what stood ahead of the return comes to stand ahead of the quotes: a backslash
takes one of them along, and a quote closes the text block with two of them.  These are all the ways
in which reading back goes wrong (`readsBack_iff`).
-/

namespace JavaSource

open Lexer (quotes Closed Unclosed)
open Literal (content contentLines dropIndentation dropReturn indentation joinLines splitLines
  stripped textBlockLines)

/-- Lines that are read back as they are written: as one text block, whatever follows it, with the
same lines. -/
def ReadsBack (indent depth : Nat) (lines : List String) : Prop :=
  ∃ text, (Doc.textBlock lines).write indent depth "" = .ok text ∧
    (∀ starts offset rest, ∃ t behind,
      Lexer.next ⟨starts, offset, text.toList ++ rest⟩ = (.ok t, behind) ∧
        t.kind = .textBlock ∧ t.text = text ∧ behind.rest = rest) ∧
    textBlockLines text = lines

namespace Literal

/-! ### Lines as they are written -/

theorem write_textBlock (indent depth : Nat) (lines : List String) :
    (Doc.textBlock lines).write indent depth "" =
      .ok ("\"\"\"" ++ Doc.blockText indent depth lines ++ "\"\"\"") := by
  rw [Doc.write, String.empty_append]

/-- What is written is a text block if the quotes behind the lines close them. -/
theorem isTextBlock_written {lines : List String} (hne : lines ≠ [])
    (h : Closed (joinLines (lines.map String.toList))) (indent depth : Nat) :
    IsTextBlock ("\"\"\"" ++ Doc.blockText indent depth lines ++ "\"\"\"") []
      (Doc.blockText indent depth lines).toList := by
  have hne' : lines.map String.toList ≠ [] := mt List.map_eq_nil_iff.mp hne
  have hindented : Indented (Doc.margin indent (depth + 1)).toList (lines.map String.toList) _ :=
    .behindMargin hne'
  have hquotes : ("\"\"\"" : String).toList = quotes := by decide
  constructor
  case text_eq => simp only [String.toList_append, hquotes, List.nil_append, List.append_assoc]
  case blanks => exact nofun
  case breaks =>
    rw [toList_blockText]
    obtain ⟨first, others, hlines⟩ := List.exists_cons_of_ne_nil hindented.ne_nil
    rw [hlines]
    rfl
  case closed =>
    rw [toList_blockText]
    exact (hindented.closed_iff (margin_isBlank indent (depth + 1))).mpr h

theorem closed_written {lines : List String} (hne : lines ≠ []) {indent depth : Nat}
    {blanks body : List Char}
    (h : IsTextBlock ("\"\"\"" ++ Doc.blockText indent depth lines ++ "\"\"\"") blanks body) :
    Closed (joinLines (lines.map String.toList)) := by
  have hne' : lines.map String.toList ≠ [] := mt List.map_eq_nil_iff.mp hne
  have hindented : Indented (Doc.margin indent (depth + 1)).toList (lines.map String.toList) _ :=
    .behindMargin hne'
  have hclosed := h.closed_inside
  rw [← h.unquote_eq, unquote_quotes, toList_blockText] at hclosed
  exact (hindented.closed_iff (margin_isBlank indent (depth + 1))).mp hclosed

/-- Lines are read back if the quotes behind them close them and none is changed by reading. -/
theorem readsBack_iff_closed {lines : List String} (hne : lines ≠ [])
    (hlines : ∀ line ∈ lines, '\n' ∉ line.toList) (indent depth : Nat) :
    ReadsBack indent depth lines ↔ Closed (joinLines (lines.map String.toList)) ∧
      (stripped ((lines.map String.toList).map dropReturn)).map String.ofList = lines := by
  have hread := textBlockLines_written hne hlines indent depth
  rw [← stripped] at hread
  constructor
  · rintro ⟨text, hwrite, hnext, hsame⟩
    cases (write_textBlock indent depth lines).symm.trans hwrite
    obtain ⟨t, behind, hnext, hkind, htext, -⟩ := hnext ⟨[]⟩ 0 []
    obtain ⟨blanks, body, hblock⟩ := Lexer.next_textBlock hnext hkind
    rw [htext] at hblock
    exact ⟨closed_written hne hblock, hread.symm.trans hsame⟩
  · rintro ⟨hclosed, hsame⟩
    exact ⟨_, write_textBlock indent depth lines, fun starts offset rest =>
      ⟨_, _, (isTextBlock_written hne hclosed indent depth).next starts offset rest, rfl, rfl, rfl⟩,
      hread.trans hsame⟩

/-! ### Lines that reading does not change -/

theorem dropReturn_eq_iff {line : List Char} :
    dropReturn line = line ↔ line.getLast? ≠ some '\r' := by
  constructor
  · intro h hlast
    obtain ⟨ahead, rfl⟩ := List.getLast?_eq_some_iff.mp hlast
    rw [dropReturn, if_pos (beq_iff_eq.mpr hlast), List.dropLast_concat] at h
    have hlength := congrArg List.length h
    rw [List.length_append, List.length_singleton] at hlength
    omega
  · intro h
    rw [dropReturn, if_neg (mt beq_iff_eq.mp h)]

/-- A line has no carriage return but at its end if it has none behind its first character, and that
one only where the line ends. -/
theorem not_mem_dropReturn_cons {c : Char} {line : List Char} (hline : '\r' ∉ dropReturn line)
    (hc : c = '\r' → line = []) : '\r' ∉ dropReturn (c :: line) := by
  cases line with
  | nil =>
    intro hmem
    have hr := List.mem_singleton.mp ((dropReturn_sublist [c]).subset hmem)
    rw [← hr] at hmem
    exact absurd hmem (by decide)
  | cons d line =>
    have hcons : dropReturn (c :: d :: line) = c :: dropReturn (d :: line) := by
      rw [dropReturn, dropReturn, List.getLast?_cons_cons]
      split <;> rfl
    rw [hcons, List.mem_cons, not_or]
    exact ⟨fun hr => List.cons_ne_nil _ _ (hc hr.symm), hline⟩

theorem dropIndentation_of_nil (line : List Char) : dropIndentation [] line = line :=
  dropIndentation_of_isPrefix List.nil_prefix |>.symm

/-- Lines without blanks in common are not changed unless a carriage return ends one. -/
theorem stripped_dropReturn_iff {lines : List (List Char)} (h : indentation lines = []) :
    stripped (lines.map dropReturn) = lines ↔ ∀ line ∈ lines, line.getLast? ≠ some '\r' := by
  constructor
  · intro hsame line hline
    have hall : lines.map (dropIndentation (indentation (lines.map dropReturn)) ∘ dropReturn) =
        lines.map id := by
      rw [List.map_id, ← List.map_map]
      exact hsame
    have hline : dropIndentation (indentation (lines.map dropReturn)) (dropReturn line) = line :=
      List.map_inj_left.mp hall line hline
    -- A line that has become shorter does not become what it was.
    have hle := (dropIndentation_sublist (indentation (lines.map dropReturn))
      (dropReturn line)).length_le
    rw [hline] at hle
    exact dropReturn_eq_iff.mp ((dropReturn_sublist line).eq_of_length_le hle)
  · intro hreturn
    have hlines : lines.map dropReturn = lines := by
      refine (List.map_congr_left fun line hline => ?_).trans (List.map_id _)
      exact dropReturn_eq_iff.mpr (hreturn line hline)
    rw [hlines, stripped, h]
    exact (List.map_congr_left fun line _ => dropIndentation_of_nil line).trans (List.map_id _)

end Literal

/-! ### The lines of a text block in a source -/

namespace IsTextBlock

variable {text : String} {blanks body : List Char}

theorem unclosed_stripped (h : IsTextBlock text blanks body) :
    ∀ line ∈ (stripped (contentLines text)).dropLast, Unclosed line := by
  rw [stripped, contentLines, List.map_map, ← List.map_dropLast]
  intro line hline
  obtain ⟨raw, hraw, rfl⟩ := List.mem_map.mp hline
  exact Literal.unclosed_dropIndentation (Literal.indentation_isBlank _)
    (Literal.unclosed_dropReturn (h.closed_lines.1 raw hraw))

/-- The lines of a text block are read back if no carriage return ends one and the quotes behind the
last line close it. -/
theorem readsBack_iff (h : IsTextBlock text blanks body) (indent depth : Nat) :
    ReadsBack indent depth (textBlockLines text) ↔
      (∀ line ∈ textBlockLines text, line.toList.getLast? ≠ some '\r') ∧
        ∀ last, (textBlockLines text).getLast? = some last → Closed last.toList := by
  have hne : stripped (contentLines text) ≠ [] :=
    mt List.map_eq_nil_iff.mp (Literal.contentLines_ne_nil text)
  have hclosed : Closed (joinLines (stripped (contentLines text))) ↔
      ∀ last, (textBlockLines text).getLast? = some last → Closed last.toList := by
    rw [Lexer.closed_joinLines_iff hne, and_iff_right h.unclosed_stripped,
      Literal.textBlockLines_eq, List.getLast?_map, List.getLast?_eq_some_getLast hne]
    constructor
    · rintro hlast _ ⟨⟩
      rwa [String.toList_ofList]
    · intro hlast
      have hlast := hlast _ rfl
      rwa [String.toList_ofList] at hlast
  have hreturn : (stripped ((stripped (contentLines text)).map dropReturn)).map String.ofList =
      textBlockLines text ↔ ∀ line ∈ textBlockLines text, line.toList.getLast? ≠ some '\r' := by
    rw [Literal.textBlockLines_eq, List.map_inj_right fun _ _ => String.ofList_inj.mp,
      Literal.stripped_dropReturn_iff
        (Literal.indentation_stripped (Literal.contentLines_ne_nil text)), List.forall_mem_map]
    simp only [String.toList_ofList]
  rw [Literal.readsBack_iff_closed (Literal.textBlockLines_ne_nil text)
    (Literal.not_mem_textBlockLines text), Literal.toList_textBlockLines, hclosed, hreturn,
    and_comm]

/-- The quotes behind the last line close it as they did before it was read, if no carriage return
was dropped. -/
theorem closed_last (h : IsTextBlock text blanks body)
    (hreturn : ∀ raw, (splitLines (content text)).getLast? = some raw → raw.getLast? ≠ some '\r') :
    ∀ last, (textBlockLines text).getLast? = some last → Closed last.toList := by
  have hclosed := h.closed_lines.2
  have hraw := List.getLast?_eq_some_getLast (Literal.splitLines_ne_nil (content text))
  generalize (splitLines (content text)).getLast _ = raw at hclosed hraw
  have hkept : dropReturn raw = raw := Literal.dropReturn_eq_iff.mpr (hreturn raw hraw)
  have hlast : (contentLines text).getLast? = some raw := by
    rw [contentLines, List.getLast?_map, hraw, Option.map_some, hkept]
  -- The last line counts, so it loses the blanks in common and keeps the rest.
  have hstart := Literal.dropIndentation_of_isPrefix
    (Literal.indentation_isPrefix (Literal.getLast?_mem_significantLines hlast))
  rw [hstart, Lexer.closed_blanks_iff fun c hc => Lexer.isPlain_of_isBlank
    (List.all_eq_true.mp (Literal.indentation_isBlank _) c hc)] at hclosed
  intro last hstripped
  rw [Literal.textBlockLines_eq, stripped, List.getLast?_map, List.getLast?_map, hlast] at hstripped
  cases hstripped
  rwa [String.toList_ofList]

end IsTextBlock

/-! ### Carriage returns in pairs -/

namespace ReturnsPaired

variable {ahead cs : List Char}

theorem of_append (h : ReturnsPaired (ahead ++ cs)) : ReturnsPaired cs := by
  rintro before behind rfl
  exact h (ahead ++ before) behind (List.append_assoc ..).symm

/-- A carriage return ahead of the closing quotes has no line feed behind it. -/
theorem of_quotes (h : ReturnsPaired (cs ++ quotes)) : ReturnsPaired cs := by
  rintro ahead behind rfl
  have hfeed := h ahead (behind ++ quotes) (by rw [List.append_assoc, List.cons_append])
  cases behind with
  | nil => cases hfeed
  | cons c behind => exact hfeed

/-- Lines have no carriage returns once those at their ends are dropped, the last line none at
all. -/
theorem not_mem_lines (h : ReturnsPaired cs) :
    (∀ line ∈ splitLines cs, '\r' ∉ dropReturn line) ∧
      ∀ last, (splitLines cs).getLast? = some last → '\r' ∉ last := by
  induction cs with
  | nil => exact ⟨by decide, by rintro _ ⟨⟩; exact List.not_mem_nil⟩
  | cons c cs ih =>
    obtain ⟨hc, hcs⟩ := returnsPaired_cons.mp h
    obtain ⟨hlines, hlast⟩ := ih hcs
    rw [splitLines]
    split
    · exact absurd ‹_› (Literal.splitLines_ne_nil cs)
    · rename_i line lines heq
      rw [heq] at hlines hlast
      -- Behind a carriage return its line ends, and there is another one.
      have hreturn (hr : c = '\r') : line = [] ∧ lines ≠ [] := by
        obtain ⟨rest, rfl⟩ := List.head?_eq_some_iff.mp (hc hr)
        have hline : splitLines ('\n' :: rest) = [] :: splitLines rest :=
          Literal.splitLines_line List.not_mem_nil rest
        rw [heq] at hline
        cases hline
        exact ⟨rfl, Literal.splitLines_ne_nil rest⟩
      obtain ⟨hline, hothers⟩ := List.forall_mem_cons.mp hlines
      split
      · refine ⟨List.forall_mem_cons.mpr ⟨by decide, hlines⟩, fun last heq => hlast last ?_⟩
        rwa [List.getLast?_cons_cons] at heq
      · refine ⟨List.forall_mem_cons.mpr ⟨?_, hothers⟩, ?_⟩
        · exact Literal.not_mem_dropReturn_cons hline fun hr => (hreturn hr).1
        · cases lines with
          | nil =>
            rintro _ ⟨⟩
            rw [List.getLast_singleton, List.mem_cons, not_or]
            exact ⟨fun hr => (hreturn hr.symm).2 rfl, hlast line rfl⟩
          | cons second lines =>
            rw [List.getLast?_cons_cons] at hlast ⊢
            exact hlast

end ReturnsPaired

namespace IsTextBlock

variable {text : String} {blanks body : List Char}

theorem returnsPaired_content (h : IsTextBlock text blanks body)
    (hpaired : ReturnsPaired text.toList) : ReturnsPaired (content text) := by
  obtain ⟨ahead, hahead⟩ := Literal.content_suffix text
  have htext : text.toList = (quotes ++ ahead) ++ (content text ++ quotes) := by
    rw [h.text_eq, ← List.append_assoc blanks, ← h.unquote_eq, ← hahead]
    simp only [List.append_assoc]
  rw [htext] at hpaired
  exact hpaired.of_append.of_quotes

/-- **Text blocks are read back if each of their carriage returns has a line feed behind it.** -/
theorem readsBack_of_returnsPaired (h : IsTextBlock text blanks body)
    (hpaired : ReturnsPaired text.toList) (indent depth : Nat) :
    ReadsBack indent depth (textBlockLines text) := by
  obtain ⟨hlines, hlast⟩ := (h.returnsPaired_content hpaired).not_mem_lines
  refine (h.readsBack_iff indent depth).mpr ⟨fun line hline hr => ?_,
    h.closed_last fun raw hraw hr => hlast raw hraw (List.mem_of_getLast? hr)⟩
  obtain ⟨raw, hraw, hsubset⟩ := Literal.exists_splitLine hline
  exact hlines raw hraw (hsubset (List.mem_of_getLast? hr))

end IsTextBlock

/-- **When the lines of a text block in a source are read back.**  Whatever the indent and the depth
are, they are if and only if no line ends in a carriage return and the last line is closed by the
quotes behind it.  That is so if each carriage return in the text block has a line feed behind
it. -/
theorem textBlock_readsBack {source : String} {ts : List Token} (h : tokenize source = .ok ts)
    {t : Token} (ht : t ∈ ts) (hkind : t.kind = .textBlock) (indent depth : Nat) :
    (ReadsBack indent depth (textBlockLines t.text) ↔
      (∀ line ∈ textBlockLines t.text, line.toList.getLast? ≠ some '\r') ∧
        ∀ last, (textBlockLines t.text).getLast? = some last → Closed last.toList) ∧
    (ReturnsPaired t.text.toList → ReadsBack indent depth (textBlockLines t.text)) := by
  obtain ⟨blanks, body, hblock⟩ := tokenize_textBlock h ht hkind
  exact ⟨hblock.readsBack_iff indent depth,
    fun hpaired => hblock.readsBack_of_returnsPaired hpaired indent depth⟩

/-- A paired carriage return, an empty line, a backslash ahead of a line feed, and the closing
quotes on a line of their own. -/
theorem textBlock_readsBack_backslash : ∃ ts t,
    tokenize "\"\"\"\n  a\x0d\n\n    b\\\n  \"\"\"" = .ok ts ∧ t ∈ ts ∧ t.kind = .textBlock ∧
      textBlockLines t.text = ["a", "", "  b\\", ""] ∧
      ReadsBack 4 1 (textBlockLines t.text) := by
  have hblock : IsTextBlock "\"\"\"\n  a\x0d\n\n    b\\\n  \"\"\"" []
      "\n  a\x0d\n\n    b\\\n  ".toList := ⟨by decide, nofun, by decide, by rfl⟩
  have hlines : textBlockLines "\"\"\"\n  a\x0d\n\n    b\\\n  \"\"\"" =
      ["a", "", "  b\\", ""] := by decide +kernel
  obtain ⟨_, _, hts, -⟩ := hblock.tokenize
  refine ⟨_, _, hts, List.mem_cons_self, rfl, hlines,
    (textBlock_readsBack hts List.mem_cons_self rfl 4 1).1.mpr ⟨?_, ?_⟩⟩
  · rw [hlines]
    decide
  · rw [hlines]
    rintro _ ⟨⟩
    rfl

/-- **Lines that are not read back.**  A backslash and a carriage return stand ahead of the closing
quotes of the first text block; the second has two carriage returns ahead of a line feed. -/
theorem return_not_readsBack :
    (∃ ts t, tokenize "\"\"\"\na\\\x0d\"\"\"" = .ok ts ∧ t ∈ ts ∧ t.kind = .textBlock ∧
      textBlockLines t.text = ["a\\"] ∧ ¬ ReadsBack 0 0 (textBlockLines t.text)) ∧
    ∃ ts t, tokenize "\"\"\"\na\x0d\x0d\n\"\"\"" = .ok ts ∧ t ∈ ts ∧ t.kind = .textBlock ∧
      textBlockLines t.text = ["a\x0d", ""] ∧ ¬ ReadsBack 0 0 (textBlockLines t.text) := by
  have hfirst : IsTextBlock "\"\"\"\na\\\x0d\"\"\"" [] "\na\\\x0d".toList :=
    ⟨by decide, nofun, by decide, by rfl⟩
  have hsecond : IsTextBlock "\"\"\"\na\x0d\x0d\n\"\"\"" [] "\na\x0d\x0d\n".toList :=
    ⟨by decide, nofun, by decide, by rfl⟩
  have hlines : textBlockLines "\"\"\"\na\\\x0d\"\"\"" = ["a\\"] := by decide +kernel
  have hlines' : textBlockLines "\"\"\"\na\x0d\x0d\n\"\"\"" = ["a\x0d", ""] := by decide +kernel
  obtain ⟨_, _, hts, -⟩ := hfirst.tokenize
  obtain ⟨_, _, hts', -⟩ := hsecond.tokenize
  refine ⟨⟨_, _, hts, List.mem_cons_self, rfl, hlines, fun hread => ?_⟩,
    _, _, hts', List.mem_cons_self, rfl, hlines', fun hread => ?_⟩
  · -- The backslash takes along the first of the quotes.
    have hclosed := ((hfirst.readsBack_iff 0 0).mp hread).2 "a\\" (congrArg List.getLast? hlines)
    cases hclosed
  · have hreturn := ((hsecond.readsBack_iff 0 0).mp hread).1 "a\x0d"
      (hlines' ▸ List.mem_cons_self)
    exact hreturn rfl

end JavaSource
