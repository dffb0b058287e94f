import JavaSource.Proofs.Indent

/-!
# The blanks that the lines of a text block have in common

Lines with text count for these blanks, and the last line counts whatever it holds (`Counts`).  The
blanks are found two lines at a time, as what each line has in common with those before it; that
gives the longest blanks that all lines which count start with.  Other lines are blank, so no line
with text is ever kept as it is because it starts otherwise.

* `Strips`: what it means that these blanks, all of them and nothing else, are taken away.
* `textBlockLines_strips`: that is what happens to any lines, and so to those of a text block.
-/

namespace JavaSource.Literal

open Text

/-! ### The lines of a text block before blanks are taken away -/

/-- What is split into lines: the text between the quotes behind its first line feed, or all of it
where there is none. -/
def content (text : String) : List Char :=
  match (unquote 3 text).dropWhile (· != '\n') with
  | _ :: cs => cs
  | []      => unquote 3 text

/-- The lines of a text block with all their blanks. -/
def contentLines (text : String) : List (List Char) := (splitLines (content text)).map dropReturn

theorem content_of_feed {text : String} {ahead cs : List Char}
    (h : unquote 3 text = ahead ++ '\n' :: cs) (hfeed : '\n' ∉ ahead) : content text = cs := by
  have hahead : ∀ c ∈ ahead, (c != '\n') = true := fun c hc =>
    bne_iff_ne.mpr fun heq => hfeed (heq ▸ hc)
  rw [content, h, List.dropWhile_append_of_pos hahead, List.dropWhile_cons_of_neg (by decide)]

theorem content_of_not_mem {text : String} (h : '\n' ∉ unquote 3 text) :
    content text = unquote 3 text := by
  have hall : ∀ c ∈ unquote 3 text, (c != '\n') = true := fun c hc =>
    bne_iff_ne.mpr fun heq => h (heq ▸ hc)
  have hdrop : (unquote 3 text ++ []).dropWhile (· != '\n') = [] :=
    List.dropWhile_append_of_pos hall
  rw [List.append_nil] at hdrop
  rw [content, hdrop]

/-- What is split into lines is the end of what stands between the quotes. -/
theorem content_suffix (text : String) : content text <:+ unquote 3 text := by
  by_cases hfeed : '\n' ∈ unquote 3 text
  · obtain ⟨ahead, cs, hinside, hahead⟩ := List.eq_append_cons_of_mem hfeed
    rw [content_of_feed hinside hahead, hinside]
    exact ⟨ahead ++ ['\n'], List.append_assoc ..⟩
  · exact ⟨[], content_of_not_mem hfeed⟩

/-- Lines without the blanks that they have in common. -/
def stripped (lines : List (List Char)) : List (List Char) :=
  lines.map (dropIndentation (indentation lines))

theorem textBlockLines_eq (text : String) :
    textBlockLines text = (stripped (contentLines text)).map String.ofList := rfl

theorem contentLines_ne_nil (text : String) : contentLines text ≠ [] :=
  mt List.map_eq_nil_iff.mp (splitLines_ne_nil (content text))

theorem textBlockLines_ne_nil (text : String) : textBlockLines text ≠ [] := by
  rw [textBlockLines_eq, stripped]
  exact mt List.map_eq_nil_iff.mp (mt List.map_eq_nil_iff.mp (contentLines_ne_nil text))

theorem dropReturn_sublist (line : List Char) : (dropReturn line).Sublist line := by
  rw [dropReturn]
  split
  · exact List.dropLast_sublist line
  · exact List.Sublist.refl line

theorem dropIndentation_sublist (blanks line : List Char) :
    (dropIndentation blanks line).Sublist line := by
  rw [dropIndentation]
  split
  · exact List.drop_sublist _ _
  · split
    · exact List.nil_sublist _
    · exact List.Sublist.refl line

theorem toList_textBlockLines (text : String) :
    (textBlockLines text).map String.toList = stripped (contentLines text) := by
  rw [textBlockLines_eq, List.map_map]
  refine (List.map_congr_left fun line _ => ?_).trans (List.map_id _)
  exact String.toList_ofList

/-- A line of a text block is part of what stands between two line feeds. -/
theorem exists_splitLine {text line : String} (h : line ∈ textBlockLines text) :
    ∃ raw ∈ splitLines (content text), line.toList ⊆ dropReturn raw := by
  have hmem : line.toList ∈ stripped (contentLines text) :=
    toList_textBlockLines text ▸ List.mem_map_of_mem h
  obtain ⟨whole, hwhole, heq⟩ := List.mem_map.mp hmem
  obtain ⟨raw, hraw, rfl⟩ := List.mem_map.mp hwhole
  exact ⟨raw, hraw, heq ▸ (dropIndentation_sublist _ _).subset⟩

theorem not_mem_textBlockLines (text : String) :
    ∀ line ∈ textBlockLines text, '\n' ∉ line.toList := by
  intro line hline hfeed
  obtain ⟨raw, hraw, hsubset⟩ := exists_splitLine hline
  exact not_mem_splitLines _ raw hraw
    ((dropReturn_sublist raw).subset (hsubset hfeed))

/-! ### The lines that count -/

/-- A line, at its place among others, that counts for the blanks in common. -/
structure Counts (lines : List (List Char)) (i : Nat) (line : List Char) : Prop where
  found : lines[i]? = some line
  counts : i + 1 = lines.length ∨ ¬ line.all isBlank = true

theorem counts_singleton {last line : List Char} {i : Nat} :
    Counts [last] i line ↔ i = 0 ∧ line = last := by
  constructor
  · rintro ⟨hfound, -⟩
    obtain ⟨hi, rfl⟩ := List.getElem?_eq_some_iff.mp hfound
    exact ⟨Nat.lt_one_iff.mp hi, by simp⟩
  · rintro ⟨rfl, rfl⟩
    exact ⟨rfl, .inl rfl⟩

theorem counts_zero {first line : List Char} {lines : List (List Char)} (h : lines ≠ []) :
    Counts (first :: lines) 0 line ↔ first = line ∧ ¬ line.all isBlank = true := by
  constructor
  · rintro ⟨hfound, hcounts⟩
    refine ⟨Option.some.inj hfound, hcounts.resolve_left fun hlast => h ?_⟩
    exact List.eq_nil_of_length_eq_zero (Nat.succ.inj hlast).symm
  · rintro ⟨rfl, hblank⟩
    exact ⟨rfl, .inr hblank⟩

theorem counts_succ {first line : List Char} {lines : List (List Char)} {i : Nat} :
    Counts (first :: lines) (i + 1) line ↔ Counts lines i line := by
  constructor
  · rintro ⟨hfound, hcounts⟩
    exact ⟨hfound, hcounts.imp_left Nat.succ.inj⟩
  · rintro ⟨hfound, hcounts⟩
    exact ⟨hfound, hcounts.imp_left (congrArg Nat.succ)⟩

/-- The lines that are looked at are those that count. -/
theorem mem_significantLines_iff {lines : List (List Char)} {line : List Char} :
    line ∈ significantLines lines ↔ ∃ i, Counts lines i line := by
  induction lines with
  | nil =>
    constructor
    · exact fun h => absurd h List.not_mem_nil
    · rintro ⟨i, hfound, -⟩
      cases hfound
  | cons first lines ih =>
    cases lines with
    | nil =>
      rw [significantLines, List.mem_singleton]
      constructor
      · exact fun h => ⟨0, counts_singleton.mpr ⟨rfl, h⟩⟩
      · rintro ⟨i, h⟩
        exact (counts_singleton.mp h).2
    | cons second lines =>
      have hcons : second :: lines ≠ [] := List.cons_ne_nil _ _
      have hmem : line ∈ significantLines (first :: second :: lines) ↔
          (first = line ∧ ¬ line.all isBlank = true) ∨
            line ∈ significantLines (second :: lines) := by
        rw [significantLines.eq_3 _ _ fun h => hcons h]
        split
        · rename_i hblank
          exact ⟨.inr, fun h => h.resolve_left fun hfirst => hfirst.2 (hfirst.1 ▸ hblank)⟩
        · rename_i hblank
          rw [List.mem_cons]
          exact or_congr_left ⟨fun h => ⟨h.symm, h ▸ hblank⟩, fun h => h.1.symm⟩
      rw [hmem, ih, ← counts_zero hcons]
      constructor
      · rintro (h | ⟨i, h⟩)
        · exact ⟨0, h⟩
        · exact ⟨i + 1, counts_succ.mpr h⟩
      · rintro ⟨i, h⟩
        cases i with
        | zero => exact .inl h
        | succ i => exact .inr ⟨i, counts_succ.mp h⟩

/-- The last line counts. -/
theorem getLast?_mem_significantLines {lines : List (List Char)} {last : List Char}
    (h : lines.getLast? = some last) : last ∈ significantLines lines := by
  rw [List.getLast?_eq_getElem?] at h
  obtain ⟨hlength, -⟩ := List.getElem?_eq_some_iff.mp h
  exact mem_significantLines_iff.mpr ⟨_, h, .inl (by omega)⟩

/-! ### The longest blanks in common -/

theorem isPrefix_commonStart {start as bs : List Char} (has : start <+: as) (hbs : start <+: bs) :
    start <+: commonStart as bs := by
  obtain ⟨as, rfl⟩ := has
  obtain ⟨bs, rfl⟩ := hbs
  rw [commonStart_append]
  exact List.prefix_append _ _

theorem isPrefix_foldl_commonStart {start first : List Char} {others : List (List Char)}
    (h : ∀ line ∈ first :: others, start <+: line) : start <+: others.foldl commonStart first := by
  induction others generalizing first with
  | nil => exact h first List.mem_cons_self
  | cons second others ih =>
    refine ih (List.forall_mem_cons.mpr ⟨isPrefix_commonStart ?_ ?_, fun line hline => ?_⟩)
    · exact h first List.mem_cons_self
    · exact h second (List.mem_cons_of_mem _ List.mem_cons_self)
    · exact h line (List.mem_cons_of_mem _ (List.mem_cons_of_mem _ hline))

theorem isPrefix_takeWhile {blanks line : List Char} (hblanks : blanks.all isBlank = true)
    (h : blanks <+: line) : blanks <+: line.takeWhile isBlank := by
  obtain ⟨rest, rfl⟩ := h
  rw [List.takeWhile_append_of_pos (List.all_eq_true.mp hblanks)]
  exact List.prefix_append _ _

theorem indentation_isBlank (lines : List (List Char)) :
    (indentation lines).all isBlank = true := by
  rw [indentation]
  split
  · rfl
  · rename_i first others hstarts
    have hfirst : first ∈ (significantLines lines).map (·.takeWhile isBlank) :=
      hstarts ▸ List.mem_cons_self
    obtain ⟨line, -, rfl⟩ := List.mem_map.mp hfirst
    refine List.all_eq_true.mpr fun c hc => ?_
    have hstart := foldl_commonStart_isPrefix (line.takeWhile isBlank) others _ List.mem_cons_self
    exact List.all_eq_true.mp List.all_takeWhile c (hstart.subset hc)

/-- No longer blanks are common to the lines that count. -/
theorem isPrefix_indentation {lines : List (List Char)} (hne : lines ≠ []) {blanks : List Char}
    (hblanks : blanks.all isBlank = true) (h : ∀ line ∈ significantLines lines, blanks <+: line) :
    blanks <+: indentation lines := by
  have hstarts : ∀ start ∈ (significantLines lines).map (·.takeWhile isBlank),
      blanks <+: start := fun start hstart => by
    obtain ⟨line, hline, rfl⟩ := List.mem_map.mp hstart
    exact isPrefix_takeWhile hblanks (h line hline)
  rw [indentation]
  split
  · rename_i hnil
    exact absurd (List.map_eq_nil_iff.mp hnil) (significantLines_ne_nil hne)
  · rename_i first others heq
    exact isPrefix_foldl_commonStart (heq ▸ hstarts)

/-! ### What is left without them -/

theorem dropIndentation_of_isPrefix {blanks line : List Char} (h : blanks <+: line) :
    line = blanks ++ dropIndentation blanks line := by
  obtain ⟨rest, rfl⟩ := h
  rw [dropIndentation, if_pos (List.isPrefixOf_iff_prefix.mpr (List.prefix_append _ _)),
    List.drop_left]

/-- A line has text without blanks at its start if it has text with them. -/
theorem dropIndentation_all {blanks line : List Char} (h : blanks.all isBlank = true) :
    (dropIndentation blanks line).all isBlank = line.all isBlank := by
  by_cases hstart : blanks <+: line
  · obtain ⟨rest, rfl⟩ := hstart
    rw [← List.append_cancel_left (dropIndentation_of_isPrefix (List.prefix_append blanks rest)),
      List.all_append, h, Bool.true_and]
  · rw [dropIndentation, if_neg fun h => hstart (List.isPrefixOf_iff_prefix.mp h)]
    split
    · rename_i hline
      rw [hline]
      rfl
    · rfl

theorem significantLines_map {blanks : List Char} (h : blanks.all isBlank = true)
    (lines : List (List Char)) : significantLines (lines.map (dropIndentation blanks)) =
      (significantLines lines).map (dropIndentation blanks) := by
  induction lines with
  | nil => rfl
  | cons first lines ih =>
    cases lines with
    | nil => rfl
    | cons second lines =>
      have hcons : second :: lines ≠ [] := List.cons_ne_nil _ _
      rw [List.map_cons, significantLines.eq_3 _ _ fun h => hcons (List.map_eq_nil_iff.mp h),
        significantLines.eq_3 _ _ fun h => hcons h, dropIndentation_all h, ih]
      split <;> rfl

/-- Without the blanks in common there are none. -/
theorem indentation_stripped {lines : List (List Char)} (hne : lines ≠ []) :
    indentation (stripped lines) = [] := by
  have hblank := indentation_isBlank lines
  have hback : significantLines lines =
      (significantLines (stripped lines)).map (indentation lines ++ ·) := by
    rw [stripped, significantLines_map hblank, List.map_map]
    refine (List.map_congr_left fun line hline => ?_).trans (List.map_id _) |>.symm
    exact (dropIndentation_of_isPrefix (indentation_isPrefix hline)).symm
  have hlines := indentation_of_significantLines hblank (mt List.map_eq_nil_iff.mp hne) hback
  exact List.self_eq_append_right.mp hlines

/-- What is left of lines when the blanks they have in common, and nothing else, are taken away. -/
structure Strips (lines stripped : List (List Char)) : Prop where
  /-- There are blanks that all lines which count start with. -/
  blank : (indentation lines).all isBlank = true
  common : ∀ i line, Counts lines i line → indentation lines <+: line
  /-- No longer blanks are common to these lines. -/
  longest : ∀ blanks : List Char, blanks.all isBlank = true →
    (∀ i line, Counts lines i line → blanks <+: line) → blanks <+: indentation lines
  /-- Each of these lines loses the blanks and nothing else. -/
  removed : ∀ i line, Counts lines i line →
    ∃ rest, stripped[i]? = some rest ∧ line = indentation lines ++ rest
  /-- A line that starts otherwise has no text. -/
  otherwise : ∀ line ∈ lines, ¬ indentation lines <+: line → line.all isBlank = true
  /-- As many lines are left, and they have no blanks in common. -/
  length_eq : stripped.length = lines.length
  none_left : indentation stripped = []

theorem strips_stripped {lines : List (List Char)} (hne : lines ≠ []) :
    Strips lines (stripped lines) := by
  have hcommon : ∀ i line, Counts lines i line → indentation lines <+: line := fun i line h =>
    indentation_isPrefix (mem_significantLines_iff.mpr ⟨i, h⟩)
  constructor
  case blank => exact indentation_isBlank lines
  case common => exact hcommon
  case longest =>
    refine fun blanks hblanks h => isPrefix_indentation hne hblanks fun line hline => ?_
    obtain ⟨i, hcounts⟩ := mem_significantLines_iff.mp hline
    exact h i line hcounts
  case removed =>
    refine fun i line h => ⟨_, ?_, dropIndentation_of_isPrefix (hcommon i line h)⟩
    rw [stripped, List.getElem?_map, h.found]
    rfl
  case otherwise =>
    exact fun line hline hstart => Decidable.byContradiction fun hblank =>
      hstart (indentation_isPrefix (mem_significantLines hline hblank))
  case length_eq => exact List.length_map _
  case none_left => exact indentation_stripped hne

/-- **The longest blanks that all lines which count start with are taken away, once.**  The lines of
every text block are what is left of some lines without these. -/
theorem textBlockLines_strips :
    (∀ lines : List (List Char), lines ≠ [] → Strips lines (stripped lines)) ∧
      ∀ text : String, contentLines text ≠ [] ∧
        textBlockLines text = (stripped (contentLines text)).map String.ofList :=
  ⟨fun _ hne => strips_stripped hne,
    fun text => ⟨contentLines_ne_nil text, textBlockLines_eq text⟩⟩

/-- An em space in common, in front of tabs and spaces, and a line that is shorter than that. -/
theorem textBlockLines_strips_em_space :
    [['\u2003', '\t', 'a'], [], ['\u2003', ' ', 'b'], ['\u2003']] ≠ [] ∧
      Strips [['\u2003', '\t', 'a'], [], ['\u2003', ' ', 'b'], ['\u2003']]
        [['\t', 'a'], [], [' ', 'b'], []] := by
  have hstripped : stripped [['\u2003', '\t', 'a'], [], ['\u2003', ' ', 'b'], ['\u2003']] =
      [['\t', 'a'], [], [' ', 'b'], []] := by decide
  exact ⟨List.cons_ne_nil _ _, hstripped ▸ textBlockLines_strips.1 _ (List.cons_ne_nil _ _)⟩

end JavaSource.Literal
