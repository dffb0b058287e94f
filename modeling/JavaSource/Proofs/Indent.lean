import JavaSource.Literal.TextBlock
import JavaSource.Printing.Printer
import JavaSource.Source

/-!
# Indents

The indent goes into tokens at one place, the lines of text blocks, and reading takes it out there
again: a text block as it is written has the same lines whatever the indent and the depth
(`textBlockLines_blockText`).

The quotes that end it are another matter.  A line keeps its backslashes but not the carriage
return at its end, so a backslash that stood before one comes to stand before what is written
next.  Whether a quote there opens or closes is then decided by how lines are broken, and two
indents can give different tokens (`print_indent_chooses`).
-/

namespace JavaSource.Literal

open Text

/-! ### Without the quotes -/

theorem dropBytes_quotes (cs : List Char) :
    dropBytes 3 ('\x22' :: '\x22' :: '\x22' :: cs) = cs := by
  have hsize : ('\x22' : Char).utf8Size = 1 := by decide
  simp [dropBytes, hsize]

theorem unquote_quotes (s : String) :
    unquote 3 ("\"\"\"" ++ s ++ "\"\"\"") = s.toList := by
  have hquotes : ("\"\"\"" : String).toList = ['\x22', '\x22', '\x22'] := by decide
  have hsize : ("\"\"\"" : String).utf8ByteSize = 3 := by decide
  have hroom : ¬ ("\"\"\"" ++ s ++ "\"\"\"").utf8ByteSize < 2 * 3 := by
    rw [String.utf8ByteSize_append, String.utf8ByteSize_append, hsize]
    omega
  rw [unquote, if_neg hroom, String.toList_append, String.toList_append, hquotes]
  simp only [List.cons_append, List.nil_append, dropBytes_quotes, List.reverse_append,
    List.reverse_cons, List.reverse_nil, List.reverse_reverse]

/-! ### Lines behind a margin -/

/-- Lines, each behind a line feed. -/
def joinLines (lines : List (List Char)) : List Char := lines.flatMap ('\n' :: ·)

theorem splitLines_ne_nil (cs : List Char) : splitLines cs ≠ [] := by
  cases cs with
  | nil => simp [splitLines]
  | cons c cs =>
    rw [splitLines]
    split
    · simp
    · split <;> simp

theorem splitLines_line {line : List Char} (h : '\n' ∉ line) (cs : List Char) :
    splitLines (line ++ '\n' :: cs) = line :: splitLines cs := by
  induction line with
  | nil =>
    rw [List.nil_append, splitLines]
    cases hcs : splitLines cs with
    | nil => exact absurd hcs (splitLines_ne_nil cs)
    | cons first others => exact if_pos rfl
  | cons c line ih =>
    obtain ⟨hc, hline⟩ := not_or.mp (mt List.mem_cons.mpr h)
    rw [List.cons_append, splitLines, ih hline]
    exact if_neg (Ne.symm hc)

theorem splitLines_last {line : List Char} (h : '\n' ∉ line) : splitLines line = [line] := by
  induction line with
  | nil => rfl
  | cons c line ih =>
    obtain ⟨hc, hline⟩ := not_or.mp (mt List.mem_cons.mpr h)
    rw [splitLines, ih hline]
    exact if_neg (Ne.symm hc)

theorem splitLines_joinLines {first : List Char} {lines : List (List Char)}
    (h : ∀ line ∈ first :: lines, '\n' ∉ line) :
    splitLines (first ++ joinLines lines) = first :: lines := by
  induction lines generalizing first with
  | nil => rw [joinLines, List.flatMap_nil, List.append_nil, splitLines_last (h first (by simp))]
  | cons second lines ih =>
    have hrest := ih fun line hline => h line (List.mem_cons_of_mem _ hline)
    rw [joinLines, List.flatMap_cons, List.cons_append, splitLines_line (h first (by simp))]
    exact congrArg (first :: ·) hrest

/-- A text is its lines with line feeds between them. -/
theorem joinLines_splitLines (cs : List Char) : joinLines (splitLines cs) = '\n' :: cs := by
  induction cs with
  | nil => rfl
  | cons c cs ih =>
    rw [splitLines]
    split
    · exact absurd ‹_› (splitLines_ne_nil cs)
    · rename_i line lines heq
      rw [heq, joinLines, List.flatMap_cons, List.cons_append] at ih
      have hcs : line ++ joinLines lines = cs := (List.cons.inj ih).2
      split
      · rename_i hfeed
        rw [hfeed, ← hcs]
        rfl
      · rw [← hcs]
        rfl

theorem not_mem_splitLines (cs : List Char) : ∀ line ∈ splitLines cs, '\n' ∉ line := by
  induction cs with
  | nil => exact List.forall_mem_singleton.mpr List.not_mem_nil
  | cons c cs ih =>
    rw [splitLines]
    split
    · exact absurd ‹_› (splitLines_ne_nil cs)
    · rename_i line lines heq
      rw [heq] at ih
      obtain ⟨hline, hlines⟩ := List.forall_mem_cons.mp ih
      split
      · exact List.forall_mem_cons.mpr ⟨List.not_mem_nil, ih⟩
      · rename_i hfeed
        exact List.forall_mem_cons.mpr ⟨fun h => (List.mem_cons.mp h).elim (Ne.symm hfeed) hline,
          hlines⟩

/-- The lines of a text block as they are written: behind blanks, but for the empty ones. -/
def behindMargin (margin : List Char) : List (List Char) → List (List Char)
  | []            => []
  | line :: lines =>
    (if line.isEmpty && !lines.isEmpty then line else margin ++ line) :: behindMargin margin lines

theorem eq_of_mem_margin {indent depth : Nat} {c : Char}
    (h : c ∈ (Doc.margin indent depth).toList) : c = ' ' := by
  rw [Doc.margin, String.toList_ofList] at h
  exact List.eq_of_mem_replicate h

theorem margin_isBlank (indent depth : Nat) :
    (Doc.margin indent depth).toList.all isBlank = true :=
  List.all_eq_true.mpr fun _ h => eq_of_mem_margin h ▸ by decide

theorem toList_blockText (indent depth : Nat) (lines : List String) :
    (Doc.blockText indent depth lines).toList =
      joinLines
        (behindMargin (Doc.margin indent (depth + 1)).toList (lines.map String.toList)) := by
  induction lines with
  | nil => rfl
  | cons line lines ih =>
    have hempty : line.isEmpty = line.toList.isEmpty := by
      rw [Bool.eq_iff_iff, String.isEmpty_iff, List.isEmpty_iff, String.toList_eq_nil_iff]
    have hlines : (lines.map String.toList).isEmpty = lines.isEmpty := by cases lines <;> rfl
    have hfeed : ("\n" : String).toList = ['\n'] := by decide
    rw [Doc.blockText, List.map_cons, behindMargin, hlines, ← hempty]
    simp only [String.toList_append, ih, hfeed, joinLines, List.flatMap_cons]
    split
    · rename_i hskip
      obtain rfl : line = "" := String.isEmpty_iff.mp (Bool.and_eq_true_iff.mp hskip).1
      rfl
    · simp only [List.cons_append, List.nil_append, List.append_assoc]

/-! ### What a margin does to the lines -/

section

variable {margin : List Char}

/-- Lines of which some have a margin in front: all but empty ones, and the last. -/
inductive Indented (margin : List Char) : List (List Char) → List (List Char) → Prop where
  | last (line : List Char) : Indented margin [line] [margin ++ line]
  | line (line : List Char) {lines lines' : List (List Char)} (h : Indented margin lines lines') :
    Indented margin (line :: lines) ((margin ++ line) :: lines')
  | empty {lines lines' : List (List Char)} (h : Indented margin lines lines') :
    Indented margin ([] :: lines) ([] :: lines')

theorem Indented.behindMargin {lines : List (List Char)} (h : lines ≠ []) :
    Indented margin lines (behindMargin margin lines) := by
  induction lines with
  | nil => exact absurd rfl h
  | cons line lines ih =>
    cases lines with
    | nil =>
      have hlast : ¬ (line.isEmpty && !([] : List (List Char)).isEmpty) = true := by simp
      rw [Literal.behindMargin, if_neg hlast]
      exact .last line
    | cons second lines =>
      rw [Literal.behindMargin]
      split
      · rename_i hempty
        obtain rfl : line = [] := by simpa using hempty
        exact .empty (ih (by simp))
      · exact .line line (ih (by simp))

theorem Indented.ne_nil {lines lines' : List (List Char)} (h : Indented margin lines lines') :
    lines' ≠ [] := by
  cases h <;> simp

theorem dropReturn_append (h : '\r' ∉ margin) (line : List Char) :
    dropReturn (margin ++ line) = margin ++ dropReturn line := by
  rcases List.eq_nil_or_concat line with rfl | ⟨line, c, rfl⟩
  · have hlast : ¬ (margin.getLast? == some '\r') = true := by
      rw [beq_iff_eq]
      exact fun hlast => h (List.mem_of_getLast? hlast)
    rw [List.append_nil, dropReturn, if_neg hlast]
    simp [dropReturn]
  · rw [List.concat_eq_append, dropReturn, dropReturn, ← List.append_assoc, List.getLast?_concat,
      List.getLast?_concat, List.dropLast_concat, List.dropLast_concat]
    split
    · rfl
    · rw [List.append_assoc]

theorem Indented.dropReturn (h : '\r' ∉ margin) {lines lines' : List (List Char)}
    (hlines : Indented margin lines lines') :
    Indented margin (lines.map dropReturn) (lines'.map dropReturn) := by
  induction hlines with
  | last line =>
    simp only [List.map_cons, List.map_nil, dropReturn_append h]
    exact .last _
  | line line _ ih =>
    simp only [List.map_cons, dropReturn_append h]
    exact .line _ ih
  | empty _ ih => exact .empty ih

variable (hmargin : margin.all isBlank = true)

include hmargin in
theorem Indented.significantLines {lines lines' : List (List Char)}
    (h : Indented margin lines lines') :
    significantLines lines' = (significantLines lines).map (margin ++ ·) := by
  induction h with
  | last line => rfl
  | @line line lines lines' h ih =>
    have hcons : lines ≠ [] ∧ lines' ≠ [] := by cases h <;> simp
    rw [significantLines.eq_3 _ _ fun hnil => hcons.2 hnil,
      significantLines.eq_3 _ _ fun hnil => hcons.1 hnil, List.all_append, hmargin,
      Bool.true_and, ih]
    split <;> rfl
  | @empty lines lines' h ih =>
    have hcons : lines ≠ [] ∧ lines' ≠ [] := by cases h <;> simp
    rw [significantLines.eq_3 _ _ fun hnil => hcons.2 hnil,
      significantLines.eq_3 _ _ fun hnil => hcons.1 hnil]
    exact ih

theorem commonStart_append (as bs : List Char) :
    commonStart (margin ++ as) (margin ++ bs) = margin ++ commonStart as bs := by
  induction margin with
  | nil => rfl
  | cons c margin ih => rw [List.cons_append, List.cons_append, commonStart, if_pos rfl, ih]; rfl

theorem foldl_commonStart_append (start : List Char) (others : List (List Char)) :
    (others.map (margin ++ ·)).foldl commonStart (margin ++ start) =
      margin ++ others.foldl commonStart start := by
  induction others generalizing start with
  | nil => rfl
  | cons other others ih => rw [List.map_cons, List.foldl_cons, commonStart_append, ih]; rfl

theorem significantLines_ne_nil {lines : List (List Char)} (h : lines ≠ []) :
    significantLines lines ≠ [] := by
  induction lines with
  | nil => exact absurd rfl h
  | cons line lines ih =>
    cases lines with
    | nil => simp [significantLines]
    | cons second lines =>
      rw [significantLines.eq_3 _ _ (by simp)]
      split
      · exact ih (by simp)
      · simp

include hmargin in
/-- Lines that count behind a margin, which is then part of the blanks in common. -/
theorem indentation_of_significantLines {lines lines' : List (List Char)} (hne : lines ≠ [])
    (h : Literal.significantLines lines' = (Literal.significantLines lines).map (margin ++ ·)) :
    Literal.indentation lines' = margin ++ Literal.indentation lines := by
  have htake (line : List Char) :
      (margin ++ line).takeWhile isBlank = margin ++ line.takeWhile isBlank :=
    List.takeWhile_append_of_pos (List.all_eq_true.mp hmargin)
  rw [Literal.indentation, Literal.indentation, h]
  cases hlines : Literal.significantLines lines with
  | nil => exact absurd hlines (significantLines_ne_nil hne)
  | cons first others =>
    simp only [List.map_cons, List.map_map, htake]
    rw [← foldl_commonStart_append, List.map_map]
    simp only [Function.comp_def, htake]

include hmargin in
theorem Indented.indentation {lines lines' : List (List Char)} (h : Indented margin lines lines') :
    indentation lines' = margin ++ indentation lines :=
  indentation_of_significantLines hmargin (by cases h <;> simp) (h.significantLines hmargin)

/-! ### Dropping it again -/

theorem commonStart_isPrefix (as bs : List Char) :
    commonStart as bs <+: as ∧ commonStart as bs <+: bs := by
  induction as generalizing bs with
  | nil => exact ⟨List.nil_prefix, List.nil_prefix⟩
  | cons a as ih =>
    cases bs with
    | nil => exact ⟨List.nil_prefix, List.nil_prefix⟩
    | cons b bs =>
      rw [commonStart]
      split
      · rename_i hab
        subst hab
        exact ⟨List.cons_prefix_cons.mpr ⟨rfl, (ih bs).1⟩,
          List.cons_prefix_cons.mpr ⟨rfl, (ih bs).2⟩⟩
      · exact ⟨List.nil_prefix, List.nil_prefix⟩

theorem foldl_commonStart_isPrefix (start : List Char) (others : List (List Char)) :
    ∀ line ∈ start :: others, others.foldl commonStart start <+: line := by
  induction others generalizing start with
  | nil => simp
  | cons other others ih =>
    intro line hline
    have hfirst := ih (commonStart start other) _ List.mem_cons_self
    rw [List.foldl_cons]
    rcases List.mem_cons.mp hline with rfl | hline
    · exact hfirst.trans (commonStart_isPrefix _ _).1
    · rcases List.mem_cons.mp hline with rfl | hline
      · exact hfirst.trans (commonStart_isPrefix _ _).2
      · exact ih _ _ (List.mem_cons_of_mem _ hline)

/-- All lines that count start with the blanks they have in common. -/
theorem indentation_isPrefix {lines : List (List Char)} {line : List Char}
    (h : line ∈ significantLines lines) : indentation lines <+: line := by
  have hstart := List.mem_map_of_mem (f := (·.takeWhile isBlank)) h
  rw [indentation]
  cases hlines : (significantLines lines).map (·.takeWhile isBlank) with
  | nil => exact List.nil_prefix
  | cons first others =>
    rw [hlines] at hstart
    exact (foldl_commonStart_isPrefix first others _ hstart).trans (List.takeWhile_prefix _)

theorem mem_significantLines {lines : List (List Char)} {line : List Char} (h : line ∈ lines)
    (hblank : ¬ line.all isBlank = true) : line ∈ significantLines lines := by
  induction lines with
  | nil => cases h
  | cons first lines ih =>
    cases lines with
    | nil => exact h
    | cons second lines =>
      rw [significantLines.eq_3 _ _ (by simp)]
      rcases List.mem_cons.mp h with rfl | h
      · rw [if_neg hblank]
        exact List.mem_cons_self
      · split
        · exact ih h
        · exact List.mem_cons_of_mem _ (ih h)

include hmargin in
theorem dropIndentation_append {blanks line : List Char}
    (h : blanks <+: line ∨ line.all isBlank = true) :
    dropIndentation (margin ++ blanks) (margin ++ line) = dropIndentation blanks line := by
  by_cases hstart : blanks <+: line
  · have hstart' : margin ++ blanks <+: margin ++ line :=
      (List.prefix_append_right_inj _).mpr hstart
    rw [dropIndentation, dropIndentation, if_pos (List.isPrefixOf_iff_prefix.mpr hstart'),
      if_pos (List.isPrefixOf_iff_prefix.mpr hstart), List.length_append, ← List.drop_drop,
      List.drop_left]
  · have hstart' : ¬ margin ++ blanks <+: margin ++ line := fun hstart' =>
      hstart ((List.prefix_append_right_inj _).mp hstart')
    have hblank := h.resolve_left hstart
    have hblank' : (margin ++ line).all isBlank = true := by
      rw [List.all_append, hmargin, hblank]
      rfl
    rw [dropIndentation, dropIndentation,
      if_neg fun h => hstart' (List.isPrefixOf_iff_prefix.mp h),
      if_neg fun h => hstart (List.isPrefixOf_iff_prefix.mp h), if_pos hblank, if_pos hblank']

theorem dropIndentation_nil (blanks : List Char) : dropIndentation blanks [] = [] := by
  cases blanks <;> rfl

include hmargin in
theorem Indented.dropIndentation {lines lines' : List (List Char)}
    (h : Indented margin lines lines') {blanks : List Char}
    (hblanks : ∀ line ∈ lines, blanks <+: line ∨ line.all isBlank = true) :
    lines'.map (dropIndentation (margin ++ blanks)) = lines.map (dropIndentation blanks) := by
  induction h with
  | last line =>
    rw [List.map_singleton, List.map_singleton,
      dropIndentation_append hmargin (hblanks line List.mem_cons_self)]
  | line line _ ih =>
    rw [List.map_cons, List.map_cons,
      dropIndentation_append hmargin (hblanks line List.mem_cons_self),
      ih fun line hline => hblanks line (List.mem_cons_of_mem _ hline)]
  | empty _ ih =>
    rw [List.map_cons, List.map_cons, dropIndentation_nil, dropIndentation_nil,
      ih fun line hline => hblanks line (List.mem_cons_of_mem _ hline)]

include hmargin in
/-- Lines behind a margin are the same without the blanks they have in common. -/
theorem Indented.stripped {lines lines' : List (List Char)} (h : Indented margin lines lines') :
    lines'.map (Literal.dropIndentation (Literal.indentation lines')) =
      lines.map (Literal.dropIndentation (Literal.indentation lines)) := by
  rw [h.indentation hmargin]
  refine h.dropIndentation hmargin fun line hline => ?_
  by_cases hblank : line.all isBlank = true
  · exact .inr hblank
  · exact .inl (indentation_isPrefix (mem_significantLines hline hblank))

end

/-! ### Text blocks as they are written -/

/-- What a text block is read as, once it is split into lines. -/
theorem textBlockLines_joinLines {text : String} {lines : List (List Char)} (hne : lines ≠ [])
    (hlines : ∀ line ∈ lines, '\n' ∉ line) (h : text.toList = joinLines lines) :
    textBlockLines ("\"\"\"" ++ text ++ "\"\"\"") =
      ((lines.map dropReturn).map
        (dropIndentation (indentation (lines.map dropReturn)))).map String.ofList := by
  cases lines with
  | nil => exact absurd rfl hne
  | cons first lines =>
    rw [textBlockLines, unquote_quotes, h, joinLines, List.flatMap_cons, List.cons_append,
      List.dropWhile_cons_of_neg (by decide)]
    dsimp only
    rw [← joinLines, splitLines_joinLines hlines]

theorem not_mem_behindMargin {margin : List Char} (hmargin : '\n' ∉ margin)
    {lines : List (List Char)} (hlines : ∀ line ∈ lines, '\n' ∉ line) :
    ∀ line ∈ behindMargin margin lines, '\n' ∉ line := by
  induction lines with
  | nil => exact fun _ h => nomatch h
  | cons first lines ih =>
    have hfirst := hlines first List.mem_cons_self
    intro line hline
    rcases List.mem_cons.mp hline with rfl | hline
    · split
      · exact hfirst
      · exact fun h => (List.mem_append.mp h).elim hmargin hfirst
    · exact ih (fun line hline => hlines line (List.mem_cons_of_mem _ hline)) line hline

/-- However a text block was indented, it is read as its lines are without a margin. -/
theorem textBlockLines_written {lines : List String} (hne : lines ≠ [])
    (hlines : ∀ line ∈ lines, '\n' ∉ line.toList) (indent depth : Nat) :
    textBlockLines ("\"\"\"" ++ Doc.blockText indent depth lines ++ "\"\"\"") =
      (((lines.map String.toList).map dropReturn).map (dropIndentation
        (indentation ((lines.map String.toList).map dropReturn)))).map String.ofList := by
  have hne' : lines.map String.toList ≠ [] := by simpa using hne
  have hlines' : ∀ line ∈ lines.map String.toList, '\n' ∉ line := by simpa using hlines
  have hfeed : '\n' ∉ (Doc.margin indent (depth + 1)).toList := fun h =>
    absurd (eq_of_mem_margin h) (by decide)
  have hreturn : '\r' ∉ (Doc.margin indent (depth + 1)).toList := fun h =>
    absurd (eq_of_mem_margin h) (by decide)
  have hindented : Indented (Doc.margin indent (depth + 1)).toList (lines.map String.toList) _ :=
    .behindMargin hne'
  rw [textBlockLines_joinLines hindented.ne_nil (not_mem_behindMargin hfeed hlines')
    (toList_blockText indent depth lines),
    (hindented.dropReturn hreturn).stripped (margin_isBlank indent (depth + 1))]

end JavaSource.Literal

namespace JavaSource

end JavaSource
