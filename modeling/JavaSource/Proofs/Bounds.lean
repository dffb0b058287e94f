import JavaSource.Proofs.Tiling

/-!
# Reading on behind a fault

A lexer can be asked for tokens behind a fault and behind the end of a text.  It then stands in the
text or at its end, with one exception: a backslash at the very end of the text, in a string or a
text block that is never closed, takes along a character that is not there (`Dangles`).  The reading
that comes to it fails, and leaves the lexer one character behind the end (`Past`).

* `next_within`, `next_past`: where one reading leaves the lexer.
* `readings_within`: a token that is read lies within the text exactly if no reading before it came
  to such a backslash.  Otherwise it is the end, one character too far.
-/

namespace JavaSource

open Text (Range isLineBreak isSpacing isHexDigit)

/-- A token that lies in a text is the text of its range. -/
structure Token.LiesIn (text : List Char) (t : Token) : Prop where
  start_le : t.range.start ≤ t.range.stop
  stop_le : t.range.stop ≤ text.length
  text_eq : t.text.toList = t.range.cut text

namespace Lexer

variable {c : Char} {cs ds text : List Char} {ends : List Char → Bool} {reading : Nat × Bool}

/-! ### A backslash at the end -/

/-- Quoted text that is never closed, with a backslash at its end that takes nothing along.  `ends`
says where such text is over. -/
inductive Dangles (ends : List Char → Bool) : List Char → Prop where
  | lone : Dangles ends ['\\']
  | escape {c : Char} {cs : List Char} (behind : Dangles ends cs) : Dangles ends ('\\' :: c :: cs)
  | plain {c : Char} {cs : List Char} (hslash : c ≠ '\\') (hends : ends (c :: cs) = false)
    (behind : Dangles ends cs) : Dangles ends (c :: cs)

/-- A string is over at a quote or the end of its line. -/
def endsString : List Char → Bool
  | []     => false
  | c :: _ => c == '\x22' || isLineBreak c

/-- A text block is over at three quotes. -/
def endsTextBlock (cs : List Char) : Bool := ['\x22', '\x22', '\x22'].isPrefixOf cs

namespace Dangles

theorem not_nil : ¬Dangles ends [] := fun h => by cases h

theorem escape_iff : Dangles ends ('\\' :: c :: cs) ↔ Dangles ends cs := by
  refine ⟨fun h => ?_, .escape⟩
  cases h with
  | escape behind => exact behind
  | plain hslash => exact absurd rfl hslash

theorem cons_iff (hc : c ≠ '\\') :
    Dangles ends (c :: cs) ↔ ends (c :: cs) = false ∧ Dangles ends cs := by
  refine ⟨fun h => ?_, fun h => .plain hc h.1 h.2⟩
  cases h with
  | lone => exact absurd rfl hc
  | escape => exact absurd rfl hc
  | plain _ hends behind => exact ⟨hends, behind⟩

theorem getLast?_eq (h : Dangles ends cs) : cs.getLast? = some '\\' := by
  induction h with
  | lone => rfl
  | @escape c cs behind ih =>
    rw [List.getLast?_cons_cons, List.getLast?_cons, ih]
    rfl
  | @plain c cs hslash hends behind ih =>
    rw [List.getLast?_cons, ih]
    rfl

end Dangles

/-- How far quoted text is read: not beyond the end, unless it dangles. -/
def Reaches (ends : List Char → Bool) (cs : List Char) (reading : Nat × Bool) : Prop :=
  (reading.1 ≤ cs.length ∧ ¬Dangles ends cs) ∨
    (reading = (cs.length + 1, false) ∧ Dangles ends cs)

theorem Reaches.past {k : Nat} (h : Reaches ends cs reading)
    (hiff : Dangles ends ds ↔ Dangles ends cs) (hlength : ds.length = k + cs.length) :
    Reaches ends ds (past k reading) := by
  rcases h with ⟨hle, hnot⟩ | ⟨rfl, hdangles⟩
  · exact .inl ⟨by rw [hlength]; exact Nat.add_le_add_left hle k, fun h => hnot (hiff.mp h)⟩
  · exact .inr ⟨by rw [hlength]; rfl, hiff.mpr hdangles⟩

/-- What neither closes quoted text nor is a backslash takes itself along. -/
theorem Reaches.plain (hc : c ≠ '\\') (hends : ends (c :: cs) = false)
    (h : Reaches ends cs reading) : Reaches ends (c :: cs) (Lexer.past 1 reading) :=
  h.past ((Dangles.cons_iff hc).trans (and_iff_right hends))
    (by rw [List.length_cons, Nat.add_comm])

/-- What closes quoted text does not dangle. -/
theorem Reaches.closed (hc : c ≠ '\\') (hends : ends (c :: cs) = true)
    (hle : reading.1 ≤ cs.length + 1) : Reaches ends (c :: cs) reading := by
  refine .inl ⟨hle, fun h => ?_⟩
  have hopen := ((Dangles.cons_iff hc).mp h).1
  rw [hends] at hopen
  cases hopen

theorem ne_backslash (hlone : c = '\\' → cs = [] → False)
    (hslash : ∀ d ds, c = '\\' → cs = d :: ds → False) : c ≠ '\\' := by
  rintro rfl
  cases cs with
  | nil => exact hlone rfl rfl
  | cons d ds => exact hslash d ds rfl rfl

theorem reaches_stringBody (cs : List Char) : Reaches endsString cs (stringBody cs) := by
  fun_induction stringBody cs with
  | case1 => exact .inl ⟨Nat.le_refl 0, Dangles.not_nil⟩
  | case2 cs => exact .closed (by decide) rfl (Nat.succ_le_succ (Nat.zero_le _))
  | case3 => exact .inr ⟨rfl, .lone⟩
  | case4 c cs ih => exact ih.past Dangles.escape_iff (by simp only [List.length_cons]; omega)
  | case5 c cs hquote hlone hslash hbreak =>
    refine .closed (ne_backslash hlone hslash) ?_ (Nat.zero_le _)
    rw [endsString, hbreak, Bool.or_true]
  | case6 c cs hquote hlone hslash hbreak ih =>
    refine .plain (ne_backslash hlone hslash) ?_ ih
    rw [endsString, beq_eq_false_iff_ne.mpr hquote, Bool.eq_false_iff.mpr hbreak]
    rfl

theorem reaches_textBlockBody (cs : List Char) : Reaches endsTextBlock cs (textBlockBody cs) := by
  fun_induction textBlockBody cs with
  | case1 => exact .inl ⟨Nat.le_refl 0, Dangles.not_nil⟩
  | case2 cs => exact .closed (by decide) rfl (by simp only [List.length_cons]; omega)
  | case3 => exact .inr ⟨rfl, .lone⟩
  | case4 c cs ih => exact ih.past Dangles.escape_iff (by simp only [List.length_cons]; omega)
  | case5 c cs hquotes hlone hslash ih =>
    refine .plain (ne_backslash hlone hslash) (Bool.eq_false_iff.mpr fun hends => ?_) ih
    obtain ⟨rest, hrest⟩ := List.isPrefixOf_iff_prefix.mp hends
    obtain ⟨hc, hcs⟩ := List.cons.inj hrest
    exact hquotes rest hc.symm hcs.symm

theorem getLast?_of_suffix (h : ds <:+ cs) (hlast : ds.getLast? = some c) :
    cs.getLast? = some c := by
  obtain ⟨front, rfl⟩ := h
  rw [List.getLast?_append, hlast, Option.some_or]

/-! ### One lexeme -/

/-- A text that starts with a string or a text block which dangles. -/
inductive OpensDangling : List Char → Prop where
  | string {cs : List Char} (hquotes : cs.take 2 ≠ ['\x22', '\x22'])
    (body : Dangles endsString cs) : OpensDangling ('\x22' :: cs)
  | textBlock {cs : List Char} (hbreak : (cs.dropWhile isSpacing).head?.any isLineBreak = true)
    (body : Dangles endsTextBlock (cs.dropWhile isSpacing)) :
    OpensDangling ('\x22' :: '\x22' :: '\x22' :: cs)

theorem opensDangling_string_iff (hquotes : cs.take 2 ≠ ['\x22', '\x22']) :
    OpensDangling ('\x22' :: cs) ↔ Dangles endsString cs := by
  refine ⟨fun h => ?_, .string hquotes⟩
  cases h with
  | string _ body => exact body
  | textBlock => exact absurd rfl hquotes

theorem opensDangling_textBlock_iff : OpensDangling ('\x22' :: '\x22' :: '\x22' :: cs) ↔
    (cs.dropWhile isSpacing).head?.any isLineBreak = true ∧
      Dangles endsTextBlock (cs.dropWhile isSpacing) := by
  refine ⟨fun h => ?_, fun h => .textBlock h.1 h.2⟩
  cases h with
  | string hquotes => exact absurd rfl hquotes
  | textBlock hbreak body => exact ⟨hbreak, body⟩

/-- How far a lexeme reaches: within a length, unless quoted text dangles, which is a fault then. -/
def Lexeme.Reaches (found : Lexeme) (length : Nat) (dangles : Prop) : Prop :=
  (found.length ≤ length ∧ ¬dangles) ∨
    (found.length = length + 1 ∧ dangles ∧
      (found.kind = .error .unterminatedString ∨ found.kind = .error .unterminatedTextBlock))

theorem stringLiteral_reaches (cs : List Char) :
    (stringLiteral cs).Reaches (cs.length + 1) (Dangles endsString cs) := by
  have hbody := reaches_stringBody cs
  unfold stringLiteral
  split <;> rename_i hread <;> rw [hread] at hbody
  · rcases hbody with ⟨hle, hnot⟩ | ⟨hfalse, -⟩
    · exact .inl ⟨Nat.succ_le_succ hle, hnot⟩
    · cases hfalse
  · rcases hbody with ⟨hle, hnot⟩ | ⟨heq, hdangles⟩
    · exact .inl ⟨Nat.succ_le_succ hle, hnot⟩
    · cases heq
      exact .inr ⟨rfl, hdangles, .inl rfl⟩

theorem textBlock_reaches (cs : List Char) : (textBlock cs).Reaches (cs.length + 3)
    ((cs.dropWhile isSpacing).head?.any isLineBreak = true ∧
      Dangles endsTextBlock (cs.dropWhile isSpacing)) := by
  have hcut : (cs.takeWhile isSpacing).length + (cs.dropWhile isSpacing).length = cs.length := by
    rw [← List.length_append, List.takeWhile_append_dropWhile]
  have hdrop : (cs.takeWhile isSpacing ++ cs.dropWhile isSpacing).drop
      (cs.takeWhile isSpacing).length = cs.dropWhile isSpacing := List.drop_left
  rw [List.takeWhile_append_dropWhile] at hdrop
  have hbody := reaches_textBlockBody (cs.dropWhile isSpacing)
  unfold textBlock
  dsimp only
  rw [hdrop]
  split
  · rename_i hbreak
    split <;> rename_i hread <;> rw [hread] at hbody
    · rcases hbody with ⟨hle, hnot⟩ | ⟨hfalse, -⟩
      · exact .inl ⟨by dsimp only at hle ⊢; omega, fun h => hnot h.2⟩
      · cases hfalse
    · rcases hbody with ⟨hle, hnot⟩ | ⟨heq, hdangles⟩
      · exact .inl ⟨by dsimp only at hle ⊢; omega, fun h => hnot h.2⟩
      · cases heq
        exact .inr ⟨by dsimp only; omega, ⟨hbreak, hdangles⟩, .inr rfl⟩
  · rename_i hbreak
    exact .inl ⟨by dsimp only; omega, fun h => hbreak h.1⟩

/-- **A lexeme lies within the text**, well formed or not, unless quoted text dangles. -/
theorem lexeme_reaches (c : Char) (cs : List Char) :
    (lexeme c cs).Reaches (cs.length + 1) (OpensDangling (c :: cs)) := by
  by_cases hc : c = '\x22'
  · subst hc
    rw [lexeme_quote]
    split
    · rename_i hquotes
      obtain ⟨rest, rfl⟩ : ∃ rest, cs = '\x22' :: '\x22' :: rest :=
        ⟨cs.drop 2, by rw [← List.take_append_drop 2 cs, hquotes]; rfl⟩
      have hblock := textBlock_reaches rest
      rwa [← opensDangling_textBlock_iff] at hblock
    · rename_i hquotes
      rw [opensDangling_string_iff hquotes]
      exact stringLiteral_reaches cs
  · exact .inl ⟨lexeme_le_of_ne hc cs, fun h => by cases h <;> exact hc rfl⟩

/-! ### One reading -/

theorem commentBody_le (cs : List Char) : (commentBody cs).1 ≤ cs.length := by
  fun_induction commentBody cs with
  | case1 => exact Nat.le_refl 0
  | case2 => simp only [List.length_cons]; omega
  | case3 c cs _ ih =>
    rw [List.length_cons, Nat.add_comm]
    exact Nat.add_le_add_left ih 1

/-- What lies ahead of a token lies within the text, an open comment too. -/
theorem gap_le (cs : List Char) : (gap cs).length ≤ cs.length := by
  fun_induction gap cs with
  | case1 cs n ih =>
    have hn : n ≤ cs.length := (List.takeWhile_sublist _).length_le
    rw [List.length_drop] at ih
    simp only [Gap.behind, List.length_cons]
    omega
  | case2 cs n hclosed ih =>
    have hn := commentBody_le cs
    rw [hclosed] at hn
    rw [List.length_drop] at ih
    simp only [Gap.behind, List.length_cons]
    omega
  | case3 cs n hopen =>
    have hn := commentBody_le cs
    rw [hopen] at hn
    exact Nat.add_le_add_right hn 2
  | case4 c cs _ _ _ ih =>
    simp only [Gap.behind, List.length_cons]
    omega
  | case5 => exact Nat.zero_le _
  | case6 => exact Nat.le_refl 0

/-- The next reading comes to quoted text that dangles. -/
def Overruns (lexer : Lexer) : Prop :=
  ∃ n, gap lexer.rest = ⟨n, none⟩ ∧ OpensDangling (lexer.rest.drop n)

/-- A lexer that stands within a text or at its end. -/
def Within (text : List Char) (lexer : Lexer) : Prop :=
  lexer.In text ∧ lexer.offset ≤ text.length

/-- A lexer that stands one character behind the end of a text. -/
def Past (text : List Char) (lexer : Lexer) : Prop :=
  lexer.rest = [] ∧ lexer.offset = text.length + 1

theorem Within.advance {n : Nat} {lexer : Lexer} (h : lexer.Within text)
    (hn : n ≤ lexer.rest.length) : (lexer.advance n).Within text := by
  obtain ⟨hin, hoffset⟩ := h
  rw [hin.2, List.length_drop] at hn
  refine ⟨hin.advance n, ?_⟩
  change lexer.offset + n ≤ text.length
  omega

theorem overruns_iff {n : Nat} {lexer : Lexer} (hgap : gap lexer.rest = ⟨n, none⟩) :
    lexer.Overruns ↔ OpensDangling (lexer.rest.drop n) := by
  refine ⟨fun ⟨m, hm, hopens⟩ => ?_, fun hopens => ⟨n, hgap, hopens⟩⟩
  rw [hgap] at hm
  cases hm
  exact hopens

/-- A token that is read within a text lies there. -/
theorem Within.liesIn {lexer behind : Lexer} {t : Token} (h : lexer.Within text)
    (hnext : lexer.next = (.ok t, behind)) : t.LiesIn text := by
  obtain ⟨⟨hlines, hrest⟩, hoffset⟩ := h
  have hlength : lexer.offset = (text.take lexer.offset).length :=
    (List.length_take_of_le hoffset).symm
  have htext : text = text.take lexer.offset ++ lexer.rest := by
    rw [hrest, List.take_append_drop]
  obtain ⟨blanks, word, hcuts, -⟩ := next_cuts hlines hlength htext hnext
  refine ⟨?_, hcuts.stop_le, hcuts.text_eq.trans hcuts.cut_word.symm⟩
  rw [hcuts.range]
  exact Nat.le_add_right ..

/-- Where a lexeme leaves a lexer. -/
theorem Within.behind_lexeme {lexer : Lexer} {n len : Nat} {kind : Except Cause TokenKind}
    (h : lexer.Within text) (hgap : gap lexer.rest = ⟨n, none⟩)
    (hrest : lexer.rest.drop n = c :: cs) (hlexeme : lexeme c cs = ⟨len, kind⟩) :
    (¬lexer.Overruns ∧ ((lexer.advance n).advance len).Within text) ∨
      (lexer.Overruns ∧ ((lexer.advance n).advance len).Past text ∧
        (kind = .error .unterminatedString ∨ kind = .error .unterminatedTextBlock)) := by
  have hgaps := gap_le lexer.rest
  have hlength := congrArg List.length hrest
  have hreaches := lexeme_reaches c cs
  rw [hgap] at hgaps
  rw [List.length_drop, List.length_cons] at hlength
  rw [hlexeme, ← hrest, ← overruns_iff hgap] at hreaches
  rcases hreaches with ⟨hle, hnot⟩ | ⟨heq, hoverruns, hcause⟩
  · refine .inl ⟨hnot, (h.advance hgaps).advance ?_⟩
    change len ≤ (lexer.rest.drop n).length
    rw [hrest]
    exact hle
  · obtain ⟨⟨-, hdrop⟩, hoffset⟩ := h
    have heq : len = cs.length + 2 := heq
    have hrests := congrArg List.length hdrop
    rw [List.length_drop] at hrests
    refine .inr ⟨hoverruns, ⟨?_, ?_⟩, hcause⟩
    · change (lexer.rest.drop n).drop len = []
      rw [hrest, heq]
      exact List.drop_of_length_le (Nat.le_succ _)
    · change lexer.offset + n + len = text.length + 1
      omega

/-- **Where one reading leaves a lexer.**  A token that it gives lies in the text. -/
theorem next_within {lexer behind : Lexer} {result : Except Fault Token}
    (hlexer : lexer.Within text) (h : lexer.next = (result, behind)) :
    (¬lexer.Overruns ∧ behind.Within text ∧ ∀ t, result = .ok t → t.LiesIn text) ∨
      (lexer.Overruns ∧ behind.Past text ∧ ∃ place,
        result = .error ⟨place, .unterminatedString⟩ ∨
          result = .error ⟨place, .unterminatedTextBlock⟩) := by
  have hlies : ∀ t, result = .ok t → t.LiesIn text := fun t ht => hlexer.liesIn (ht ▸ h)
  have hgaps := gap_le lexer.rest
  cases step_of_next h with
  | @unclosed n opened hgap =>
    rw [hgap] at hgaps
    refine .inl ⟨fun ⟨m, hm, _⟩ => ?_, hlexer.advance hgaps, hlies⟩
    rw [hgap] at hm
    cases hm
  | @finish n hgap hrest =>
    rw [hgap] at hgaps
    refine .inl ⟨fun hoverruns => ?_, hlexer.advance hgaps, hlies⟩
    rw [overruns_iff hgap, hrest] at hoverruns
    cases hoverruns
  | @fault n len c cs cause hgap hrest hlexeme =>
    rcases hlexer.behind_lexeme hgap hrest hlexeme with ⟨hnot, hwithin⟩ | ⟨hoverruns, hpast, hcause⟩
    · exact .inl ⟨hnot, hwithin, hlies⟩
    · refine .inr ⟨hoverruns, hpast, lexer.lines.placeOf (lexer.offset + n), ?_⟩
      rcases hcause with hcause | hcause <;> cases hcause
      · exact .inl rfl
      · exact .inr rfl
  | @token n len c cs kind hgap hrest hlexeme =>
    rcases hlexer.behind_lexeme hgap hrest hlexeme with ⟨hnot, hwithin⟩ | ⟨-, -, hcause⟩
    · exact .inl ⟨hnot, hwithin, hlies⟩
    · rcases hcause with hcause | hcause <;> cases hcause

/-- One character behind the end of a text there is the end, as often as asked for. -/
theorem next_past {lexer : Lexer} (h : lexer.Past text) : ∃ t, lexer.next = (.ok t, lexer) ∧
    t.kind = .eof ∧ t.range = ⟨text.length + 1, text.length + 1⟩ := by
  obtain ⟨lines, offset, rest⟩ := lexer
  obtain ⟨rfl, rfl⟩ := h
  have hgap : gap [] = ⟨0, none⟩ := by rw [gap]
  refine ⟨⟨.eof, "", lines.placeOf (text.length + 1), ⟨text.length + 1, text.length + 1⟩⟩, ?_,
    rfl, rfl⟩
  simp only [next, hgap, advance, Nat.add_zero, List.drop_nil]

/-! ### Many readings -/

/-- A lexer after a number of readings. -/
def after (lexer : Lexer) : Nat → Lexer
  | 0     => lexer
  | n + 1 => (lexer.after n).next.2

theorem after_next (lexer : Lexer) (n : Nat) : lexer.next.2.after n = lexer.after (n + 1) := by
  induction n with
  | zero => rfl
  | succ n ih => exact congrArg (fun lexer => lexer.next.2) ih

/-- What is read after some readings. -/
theorem readings_getElem? {n i : Nat} {lexer : Lexer} {result : Except Fault Token}
    (h : (readings n lexer)[i]? = some result) : (lexer.after i).next.1 = result := by
  induction n generalizing i lexer with
  | zero => cases h
  | succ n ih =>
    rw [readings] at h
    cases i with
    | zero => exact Option.some.inj h
    | succ i =>
      rw [List.getElem?_cons_succ] at h
      rw [← after_next]
      exact ih h

/-- **Where many readings leave a lexer**: within the text, or behind it once one of them came to
quoted text that dangles. -/
theorem after_within {lexer : Lexer} (h : lexer.Within text) (n : Nat) :
    ((∀ i < n, ¬(lexer.after i).Overruns) ∧ (lexer.after n).Within text) ∨
      ((∃ i < n, (lexer.after i).Overruns) ∧ (lexer.after n).Past text) := by
  induction n with
  | zero => exact .inl ⟨nofun, h⟩
  | succ n ih =>
    rcases ih with ⟨hnone, hwithin⟩ | ⟨⟨i, hi, hoverruns⟩, hpast⟩
    · rcases next_within hwithin rfl with ⟨hnot, hbehind, -⟩ | ⟨hoverruns, hbehind, -⟩
      · refine .inl ⟨fun i hi => ?_, hbehind⟩
        rcases Nat.lt_succ_iff_lt_or_eq.mp hi with hlt | rfl
        · exact hnone i hlt
        · exact hnot
      · exact .inr ⟨⟨n, Nat.lt_succ_self n, hoverruns⟩, hbehind⟩
    · obtain ⟨t, hnext, -⟩ := next_past hpast
      refine .inr ⟨⟨i, Nat.lt_succ_of_lt hi, hoverruns⟩, ?_⟩
      rw [after, hnext]
      exact hpast

theorem OpensDangling.getLast?_eq (h : OpensDangling cs) : cs.getLast? = some '\\' := by
  cases h with
  | string _ body => exact getLast?_of_suffix (List.suffix_cons ..) body.getLast?_eq
  | @textBlock cs _ body =>
    have hsuffix : cs.dropWhile isSpacing <:+ '\x22' :: '\x22' :: '\x22' :: cs :=
      (List.dropWhile_suffix _).trans ⟨['\x22', '\x22', '\x22'], rfl⟩
    exact getLast?_of_suffix hsuffix body.getLast?_eq

/-- Only a text with a backslash at its end has quoted text that dangles. -/
theorem In.getLast?_of_overruns {lexer : Lexer} (h : lexer.In text)
    (hoverruns : lexer.Overruns) : text.getLast? = some '\\' := by
  obtain ⟨n, -, hopens⟩ := hoverruns
  rw [h.2, List.drop_drop] at hopens
  exact getLast?_of_suffix (List.drop_suffix ..) hopens.getLast?_eq

theorem Past.not_overruns {lexer : Lexer} (h : lexer.Past text) : ¬lexer.Overruns := by
  rintro ⟨n, -, hopens⟩
  rw [h.1, List.drop_nil] at hopens
  cases hopens

end Lexer

/-- **What is read lies within the text**, behind faults and behind the end too, exactly if no
reading before it came to quoted text that dangles.  Otherwise it is the end, one character too far.
The reading that comes to such text is a fault, and no reading does unless the text ends in a
backslash. -/
theorem readings_within {text : List Char} {n i : Nat} {t : Token}
    (h : (Lexer.readings n (.ofText text))[i]? = some (.ok t)) :
    t.range.start ≤ t.range.stop ∧
      (t.range.stop ≤ text.length ↔ ∀ j < i, ¬((Lexer.ofText text).after j).Overruns) ∧
      (t.range.stop ≤ text.length → t.text.toList = t.range.cut text) ∧
      (text.length < t.range.stop → t.kind = .eof ∧
        t.range = ⟨text.length + 1, text.length + 1⟩) ∧
      ∀ j, ((Lexer.ofText text).after j).Overruns → text.getLast? = some '\\' ∧
        ∃ place, ((Lexer.ofText text).after j).next.1 = .error ⟨place, .unterminatedString⟩ ∨
          ((Lexer.ofText text).after j).next.1 = .error ⟨place, .unterminatedTextBlock⟩ := by
  have hstart : (Lexer.ofText text).Within text := ⟨Lexer.ofText_in text, Nat.zero_le _⟩
  have hnext := Lexer.readings_getElem? h
  have hfault : ∀ j, ((Lexer.ofText text).after j).Overruns → text.getLast? = some '\\' ∧
      ∃ place, ((Lexer.ofText text).after j).next.1 = .error ⟨place, .unterminatedString⟩ ∨
        ((Lexer.ofText text).after j).next.1 = .error ⟨place, .unterminatedTextBlock⟩ := by
    intro j hoverruns
    rcases Lexer.after_within hstart j with ⟨-, hwithin⟩ | ⟨-, hpast⟩
    · rcases Lexer.next_within hwithin rfl with ⟨hnot, -⟩ | ⟨-, -, hfails⟩
      · exact absurd hoverruns hnot
      · exact ⟨hwithin.1.getLast?_of_overruns hoverruns, hfails⟩
    · exact absurd hoverruns hpast.not_overruns
  rcases Lexer.after_within hstart i with ⟨hnone, hwithin⟩ | ⟨⟨j, hj, hoverruns⟩, hpast⟩
  · have hlies := hwithin.liesIn (Prod.ext hnext rfl)
    exact ⟨hlies.start_le, ⟨fun _ => hnone, fun _ => hlies.stop_le⟩, fun _ => hlies.text_eq,
      fun hlt => absurd hlies.stop_le (Nat.not_le.mpr hlt), hfault⟩
  · obtain ⟨u, hu, hkind, hrange⟩ := Lexer.next_past hpast
    rw [hu] at hnext
    obtain rfl := Except.ok.inj hnext
    have hlt : text.length < u.range.stop := by rw [hrange]; exact Nat.lt_succ_self _
    have hle : u.range.start ≤ u.range.stop := Nat.le_of_eq (by rw [hrange])
    exact ⟨hle, ⟨fun hle => absurd hle (Nat.not_le.mpr hlt),
      fun hnone => absurd hoverruns (hnone j hj)⟩, fun hle => absurd hle (Nat.not_le.mpr hlt),
      fun _ => ⟨hkind, hrange⟩, hfault⟩

/-- An open string in the first line, and in the second one that dangles. -/
theorem readings_within_backslash : ∃ t,
    (Lexer.readings 3 (.ofText "\"a\n\"\\".toList))[2]? = some (.ok t) ∧ t.kind = .eof ∧
    t.range = ⟨6, 6⟩ ∧ ∃ j < 2, ((Lexer.ofText "\"a\n\"\\".toList).after j).Overruns := by
  generalize htext : "\"a\n\"\\".toList = text
  have hlength : text.length = 5 := by rw [← htext]; rfl
  have hread : ((Lexer.readings 3 (.ofText text))[2]?.bind Except.toOption).map
      (fun t => t.range.stop) = some 6 := by
    rw [← htext]
    decide +kernel
  obtain ⟨t, ht, hstop⟩ := Option.map_eq_some_iff.mp hread
  obtain ⟨result, hresult, hok⟩ := Option.bind_eq_some_iff.mp ht
  cases result with
  | error fault => cases hok
  | ok u =>
    obtain rfl := Option.some.inj hok
    obtain ⟨-, hiff, -, hend, -⟩ := readings_within hresult
    obtain ⟨hkind, hrange⟩ := hend (by omega)
    refine ⟨u, hresult, hkind, by rw [hrange, hlength], ?_⟩
    refine Classical.byContradiction fun hnone => ?_
    have hle := hiff.mpr fun j hj hoverruns => hnone ⟨j, hj, hoverruns⟩
    omega

/-- Behind a fault the end is read one character too far. -/
theorem readings_pass_end : ∃ t,
    (Lexer.readings 2 (.ofText ['\x22', '\\']))[1]? = some (.ok t) ∧
    ['\x22', '\\'].length < t.range.stop := by
  have hread : ((Lexer.readings 2 (.ofText ['\x22', '\\']))[1]?.bind Except.toOption).map
      (fun t => t.range.stop) = some 3 := by decide +kernel
  obtain ⟨t, ht, hstop⟩ := Option.map_eq_some_iff.mp hread
  obtain ⟨result, hresult, hok⟩ := Option.bind_eq_some_iff.mp ht
  cases result with
  | error fault => cases hok
  | ok u =>
    obtain rfl := Option.some.inj hok
    exact ⟨u, hresult, by rw [hstop]; decide⟩

end JavaSource
