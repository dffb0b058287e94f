import JavaSource.Proofs.Lexing
import JavaSource.Proofs.Tiling

/-!
# A separator or a sign behind a text

Blanks and line breaks separate tokens, and so do the signs no other token goes on with.  Readers of
numbers and words take any of them for the end of the text (`Stops`), so they take none along; those
of quoted text find their closing quotes in front of one that stands behind a whole text.

* `lexeme_append`: a lexeme that ends within a text is there where a separator follows the text, or
  such a sign (`lexeme_stopped`).
* `Lexes.append`: a text keeps its tokens where a line break and more text follow, as the last
  comment of the text ends in front of the break.
* `Lexes.stopped`: it keeps them where such a sign and more text follow, and no others come from the
  line of the sign if that is in a comment of the text.
-/

namespace JavaSource

open Grammar (Symbol)
open Text (isLineBreak isSpacing isDecimalDigit isHexDigit isOctalDigit isNamePart isNameStart)

namespace Lexer

variable {α : Type} {cs tail : List Char} {p : Char → Bool} {n : Nat} {b c : Char}
variable {kind : TokenKind}

/-- A character that separates tokens. -/
abbrev isSeparator (c : Char) : Bool := isLineBreak c || isSpacing c

theorem eq_of_isSeparator (hb : isSeparator b = true) :
    b = ' ' ∨ b = '\t' ∨ b = '\x0c' ∨ b = '\r' ∨ b = '\n' := by
  simpa only [List.mem_cons, List.not_mem_nil, or_false] using mem_blanks hb

theorem ne_of_isSeparator (hb : isSeparator b = true) (hc : isSeparator c = false) : b ≠ c := by
  rintro rfl
  rw [hb] at hc
  cases hc

/-- The separators, and the signs that go on with no token in front of them but a colon. -/
abbrev stops : List Char := [' ', '\t', '\x0c', '\r', '\n', ')', '\x7d', ';', ',', ':']

/-- A character that a token ends in front of. -/
abbrev isStop (c : Char) : Bool := stops.contains c

theorem isStop_of_isSeparator (hb : isSeparator b = true) : isStop b = true := by
  rcases eq_of_isSeparator hb with rfl | rfl | rfl | rfl | rfl <;> rfl

theorem ne_of_isStop (hb : isStop b = true) (hc : isStop c = false) : b ≠ c := by
  rintro rfl
  rw [hb] at hc
  cases hc

/-- Characters of some class none of which stands behind a token. -/
def Solid (p : Char → Bool) : Prop := ∀ b ∈ stops, p b = false

instance (p : Char → Bool) : Decidable (Solid p) := List.decidableBAll (p · = false) stops

theorem Solid.eq_false (hp : Solid p) (hb : isStop b = true) : p b = false :=
  hp b (List.contains_iff_mem.mp hb)

/-- A reader takes what stands behind a token for the end of the text. -/
def Stops (read : List Char → α) : Prop :=
  ∀ (cs : List Char) {b : Char} (_ : isStop b = true) (tail : List Char),
    read (cs ++ b :: tail) = read cs

theorem takeWhile_append_of_neg {p : α → Bool} {a : α} (hp : p a = false) (l tail : List α) :
    (l ++ a :: tail).takeWhile p = l.takeWhile p := by
  induction l with
  | nil => exact List.takeWhile_cons_of_neg (hp ▸ Bool.false_ne_true)
  | cons x l ih => rw [List.cons_append, List.takeWhile_cons, List.takeWhile_cons, ih]

theorem stops_takeWhile (hp : Solid p) : Stops (List.takeWhile p) :=
  fun cs _ hb tail => takeWhile_append_of_neg (hp.eq_false hb) cs tail

theorem stops_any (hp : Solid p) : Stops fun cs => cs.head?.any p := fun cs _ hb tail => by
  cases cs with
  | nil => exact hp.eq_false hb
  | cons c cs => rfl

theorem stops_head (hc : isStop c = false) : Stops fun cs => cs.head? == some c :=
  fun cs _ hb tail => by
    cases cs with
    | nil => exact beq_eq_false_iff_ne.mpr fun heq =>
        ne_of_isStop hb hc (Option.some.inj heq)
    | cons d cs => rfl

theorem Stops.drop {read : List Char → α} (hread : Stops read) (h : n ≤ cs.length)
    (hb : isStop b = true) (tail : List Char) :
    read ((cs ++ b :: tail).drop n) = read (cs.drop n) := by
  rw [List.drop_append_of_le_length h, hread _ hb]

/-! ### Numbers -/

theorem stops_digitRun (hp : Solid p) : Stops (digitRun p) := fun cs b hb tail => by
  cases cs with
  | nil => exact if_neg (Bool.eq_false_iff.mp (hp.eq_false hb))
  | cons c cs =>
    have hsolid : Solid fun d => p d || d == '_' := fun d hd =>
      Bool.or_eq_false_iff.mpr ⟨hp d hd, (show Solid (· == '_') by decide) d hd⟩
    rw [List.cons_append, digitRun, digitRun, stops_takeWhile hsolid cs hb tail]

theorem stops_exponent (marks : List Char) (hmarks : Solid marks.contains) :
    Stops (exponent marks) := fun cs b hb tail => by
  cases cs with
  | nil => exact if_neg (Bool.eq_false_iff.mp (hmarks.eq_false hb))
  | cons c cs =>
    have hsign : ((cs ++ b :: tail).head? == some '+' || (cs ++ b :: tail).head? == some '-') =
        (cs.head? == some '+' || cs.head? == some '-') := by
      rw [show ((cs ++ b :: tail).head? == some '+') = _ from stops_head (by decide) cs hb tail,
        show ((cs ++ b :: tail).head? == some '-') = _ from stops_head (by decide) cs hb tail]
    have hle : (if cs.head? == some '+' || cs.head? == some '-' then 1 else 0) ≤ cs.length := by
      cases cs with
      | nil => exact Nat.le_refl 0
      | cons d cs => split <;> simp
    have hrun := (stops_digitRun (p := isDecimalDigit) (by decide)).drop hle hb tail
    rw [List.cons_append, exponent, exponent, hsign]
    dsimp only
    rw [hrun]

/-- An integer goes on with at most one mark. -/
theorem integerSuffix_eq (cs : List Char) : integerSuffix cs =
    (if cs.head?.any fun c => c == 'l' || c == 'L' then 1 else 0, some .integerLiteral) := by
  unfold integerSuffix
  split
  · rfl
  · rfl
  · rename_i hl hL
    cases cs with
    | nil => rfl
    | cons c cs =>
      have hl : (c == 'l') = false := beq_eq_false_iff_ne.mpr fun hc => hl cs (hc ▸ rfl)
      have hL : (c == 'L') = false := beq_eq_false_iff_ne.mpr fun hc => hL cs (hc ▸ rfl)
      rw [List.head?_cons, Option.any_some, hl, hL]
      rfl

theorem stops_integerSuffix : Stops integerSuffix := fun cs b hb tail => by
  have hmark := stops_any (p := fun c => c == 'l' || c == 'L') (by decide) cs hb tail
  dsimp only at hmark
  rw [integerSuffix_eq, integerSuffix_eq, hmark]

theorem stops_floatSuffix : Stops floatSuffix := fun cs b hb tail => by
  have hmark : (cs ++ b :: tail).head?.any isFloatSuffix = cs.head?.any isFloatSuffix :=
    stops_any (by decide) cs hb tail
  rw [floatSuffix, floatSuffix, hmark]

theorem stops_binaryNumeral : Stops binaryNumeral := fun cs b hb tail => by
  have hrun := stops_digitRun (p := Text.isBinaryDigit) (by decide) cs hb tail
  have hsuffix := stops_integerSuffix.drop (length_digitRun_le Text.isBinaryDigit cs) hb tail
  unfold binaryNumeral
  dsimp only
  rw [hrun, hsuffix]

theorem stops_hexTail (dotted : Bool) : Stops (hexTail dotted) := fun cs b hb tail => by
  have hexp := stops_exponent ['p', 'P'] (by decide) cs hb tail
  have hfits := exponent_fits ['p', 'P'] cs
  unfold hexTail
  rw [hexp, stops_integerSuffix cs hb tail]
  split
  · rfl
  · rfl
  · rename_i n _ heq
    rw [stops_floatSuffix.drop (show n ≤ cs.length by rwa [heq] at hfits) hb tail]

/-- What may go on behind a dot. -/
theorem stops_dotted {behind other : List Char → α} (hbehind : Stops behind)
    (hother : Stops other) : Stops fun cs =>
      match cs with
      | '.' :: rest => behind rest
      | rest        => other rest := fun cs b hb tail => by
  cases cs with
  | nil =>
    dsimp only [List.nil_append]
    split
    · rename_i heq
      cases heq
      exact absurd hb (by decide)
    · exact hother [] hb tail
  | cons c cs =>
    dsimp only [List.cons_append]
    split
    · rename_i heq
      cases heq
      exact hbehind cs hb tail
    · rename_i hdot
      split
      · rename_i heq
        cases heq
        exact absurd rfl (hdot _)
      · exact hother (c :: cs) hb tail

theorem stops_hexNumeral : Stops hexNumeral := fun cs b hb tail => by
  have hrun := stops_digitRun (p := isHexDigit) (by decide) cs hb tail
  unfold hexNumeral
  dsimp only
  rw [hrun, List.drop_append_of_le_length (length_digitRun_le isHexDigit cs)]
  refine congrArg (past _) (ite_congr rfl (fun _ => rfl) fun _ =>
    stops_dotted (fun rest b hb tail => ?_) (fun rest b hb tail => ?_) _ hb tail)
  · have hfraction := stops_digitRun (p := isHexDigit) (by decide) rest hb tail
    rw [hfraction, (stops_hexTail true).drop (length_digitRun_le isHexDigit rest) hb]
  · rw [stops_hexTail false rest hb tail]

theorem stops_decimalTail (dotted : Bool) : Stops (decimalTail dotted) := fun cs b hb tail => by
  have hexp := stops_exponent ['e', 'E'] (by decide) cs hb tail
  have hfits := exponent_fits ['e', 'E'] cs
  unfold decimalTail
  rw [hexp]
  split
  · rfl
  · rename_i n heq
    have hle : n ≤ cs.length := by rwa [heq] at hfits
    have hmark : ((cs ++ b :: tail).drop n).head?.any isFloatSuffix =
        (cs.drop n).head?.any isFloatSuffix :=
      (stops_any (p := isFloatSuffix) (by decide)).drop hle hb tail
    dsimp only
    rw [hmark, stops_floatSuffix.drop hle hb, stops_integerSuffix.drop hle hb]

theorem stops_decimalNumeral : Stops decimalNumeral := fun cs b hb tail => by
  have hrun := stops_digitRun (p := isDecimalDigit) (by decide) cs hb tail
  unfold decimalNumeral
  dsimp only
  rw [hrun, List.drop_append_of_le_length (length_digitRun_le isDecimalDigit cs)]
  refine congrArg (past _) (ite_congr rfl (fun _ => rfl) fun _ =>
    stops_dotted (fun rest b hb tail => ?_) (stops_decimalTail false) _ hb tail)
  have hdots : ((rest ++ b :: tail).head? == some '.') = (rest.head? == some '.') :=
    stops_head (by decide) rest hb tail
  have hfraction := stops_digitRun (p := isDecimalDigit) (by decide) rest hb tail
  rw [hdots, hfraction, (stops_decimalTail true).drop (length_digitRun_le isDecimalDigit rest) hb,
    ← List.cons_append, stops_decimalTail false ('.' :: rest) hb tail]

/-- Two characters of the text, in front of what stands behind it. -/
theorem exists_append {c d : Char} {rest : List Char} (hc : c ≠ b) (hd : d ≠ b)
    (h : cs ++ b :: tail = c :: d :: rest) :
    ∃ rest', cs = c :: d :: rest' ∧ rest = rest' ++ b :: tail := by
  cases cs with
  | nil => exact absurd (List.cons.inj h).1.symm hc
  | cons x cs =>
    rw [List.cons_append, List.cons.injEq] at h
    obtain ⟨rfl, h⟩ := h
    cases cs with
    | nil => exact absurd (List.cons.inj h).1.symm hd
    | cons y cs =>
      rw [List.cons_append, List.cons.injEq] at h
      obtain ⟨rfl, h⟩ := h
      exact ⟨cs, rfl, h.symm⟩

theorem stops_numeral : Stops numeral := fun cs b hb tail => by
  have hno {c d : Char} (hc : isStop c = false) (hd : isStop d = false)
      (h : ∀ rest, cs = c :: d :: rest → False) :
      ∀ rest, cs ++ b :: tail = c :: d :: rest → False := fun rest heq => by
    obtain ⟨rest', hcs, -⟩ := exists_append (ne_of_isStop hb hc).symm
      (ne_of_isStop hb hd).symm heq
    exact h rest' hcs
  fun_cases numeral cs with
  | case1 cs => exact congrArg (past 2) (stops_hexNumeral cs hb tail)
  | case2 cs => exact congrArg (past 2) (stops_hexNumeral cs hb tail)
  | case3 cs => exact congrArg (past 2) (stops_binaryNumeral cs hb tail)
  | case4 cs => exact congrArg (past 2) (stops_binaryNumeral cs hb tail)
  | case5 cs hx hX hb' hB =>
    rw [numeral, stops_decimalNumeral cs hb]
    · exact hno (by decide) (by decide) hx
    · exact hno (by decide) (by decide) hX
    · exact hno (by decide) (by decide) hb'
    · exact hno (by decide) (by decide) hB

theorem number_append {len : Nat} (h : number cs = ⟨len, .ok kind⟩) (hb : isStop b = true)
    (tail : List Char) : number (cs ++ b :: tail) = ⟨len, .ok kind⟩ := by
  unfold number at h ⊢
  rw [stops_numeral cs hb]
  split at h
  · exact h
  · cases h

/-! ### Quoted text -/

theorem stringBody_append (h : stringBody cs = (n, true)) (tail : List Char) :
    stringBody (cs ++ tail) = (n, true) := by
  fun_induction stringBody cs generalizing n with
  | case1 => cases h
  | case2 => exact h
  | case3 => cases h
  | case4 c cs ih =>
    obtain ⟨hcs, rfl⟩ := past_eq h
    exact congrArg (past 2) (ih hcs)
  | case5 => cases h
  | case6 c cs hquote hlast hslash hbreak ih =>
    obtain ⟨hcs, rfl⟩ := past_eq h
    have hne : cs ≠ [] := fun hnil => by
      rw [hnil] at hcs
      cases hcs
    rw [List.cons_append, stringBody, if_neg hbreak, ih hcs]
    · rfl
    · exact hquote
    · exact fun hc hnil => hne (List.append_eq_nil_iff.mp hnil).1
    · intro d rest hc heq
      obtain ⟨e, es, rfl⟩ := List.exists_cons_of_ne_nil hne
      exact hslash e es hc rfl

theorem textBlockBody_append (h : textBlockBody cs = (n, true)) (tail : List Char) :
    textBlockBody (cs ++ tail) = (n, true) := by
  obtain ⟨body, rest, rfl, -, htail⟩ := textBlockBody_eq h
  rw [List.append_assoc]
  exact htail (rest ++ tail)

theorem stringLiteral_append {len : Nat} (h : stringLiteral cs = ⟨len, .ok kind⟩)
    (tail : List Char) : stringLiteral (cs ++ tail) = ⟨len, .ok kind⟩ := by
  unfold stringLiteral at h ⊢
  split at h
  · rw [stringBody_append ‹_›]
    exact h
  · cases h

theorem textBlock_append {len : Nat} (h : textBlock cs = ⟨len, .ok kind⟩) (tail : List Char) :
    textBlock (cs ++ tail) = ⟨len, .ok kind⟩ := by
  have hle : (cs.takeWhile isSpacing).length ≤ cs.length := (List.takeWhile_sublist _).length_le
  unfold textBlock at h ⊢
  dsimp only at h ⊢
  split at h
  · rename_i hbreak
    obtain ⟨c, rest, hrest⟩ : ∃ c rest, cs.drop (cs.takeWhile isSpacing).length = c :: rest := by
      refine List.exists_cons_of_ne_nil fun hnil => ?_
      rw [hnil] at hbreak
      cases hbreak
    have hblanks : (cs ++ tail).takeWhile isSpacing = cs.takeWhile isSpacing := by
      refine (List.takeWhile_append ..).trans (if_neg fun hall => ?_)
      rw [hall, List.drop_length] at hrest
      cases hrest
    rw [hblanks, List.drop_append_of_le_length hle, if_pos (by rwa [hrest] at hbreak ⊢)]
    split at h
    · rw [textBlockBody_append ‹_›]
      exact h
    · cases h
  · cases h

theorem stops_take (n : Nat) (hp : Solid p) : Stops fun cs => (cs.take n).takeWhile p :=
  fun cs b hb tail => by
    induction cs generalizing n with
    | nil =>
      cases n with
      | zero => rfl
      | succ n => exact List.takeWhile_cons_of_neg (hp.eq_false hb ▸ Bool.false_ne_true)
    | cons c cs ih =>
      cases n with
      | zero => rfl
      | succ n =>
        simp only [List.cons_append, List.take_succ_cons, List.takeWhile_cons]
        rw [show ((cs ++ b :: tail).take n).takeWhile p = _ from ih n]

theorem escape_append (c : Char) (cs : List Char) (hb : isStop b = true)
    (tail : List Char) : escape (c :: cs ++ b :: tail) = escape (c :: cs) := by
  have hmarks := stops_takeWhile (p := (· == 'u')) (by decide) (c :: cs) hb tail
  have hle : ((c :: cs).takeWhile (· == 'u')).length ≤ (c :: cs).length :=
    (List.takeWhile_sublist _).length_le
  have hdigits := (stops_take (p := isHexDigit) 4 (by decide)).drop hle hb tail
  have hoctal := stops_take (p := isOctalDigit) (if c ≤ '3' then 3 else 2) (by decide) (c :: cs) hb
    tail
  rw [List.cons_append] at hmarks hdigits hoctal ⊢
  unfold escape
  dsimp only at hdigits hoctal ⊢
  rw [hmarks, hdigits, hoctal]

theorem charEnd_append {len : Nat} (h : charEnd cs n = ⟨len, .ok kind⟩) (tail : List Char) :
    charEnd (cs ++ tail) n = ⟨len, .ok kind⟩ := by
  unfold charEnd at h ⊢
  split at h
  · cases h
  · rename_i c rest hrest
    have hlt : n ≤ cs.length := Nat.le_of_lt <| Nat.lt_of_not_le fun hle => by
      rw [List.drop_eq_nil_of_le hle] at hrest
      cases hrest
    rw [List.drop_append_of_le_length hlt, hrest]
    split at h
    · exact (if_pos ‹_›).trans h
    · split at h <;> cases h

theorem charLiteral_append {len : Nat} (h : charLiteral cs = ⟨len, .ok kind⟩)
    (hb : isStop b = true) (tail : List Char) :
    charLiteral (cs ++ b :: tail) = ⟨len, .ok kind⟩ := by
  cases cs with
  | nil => cases h
  | cons c cs =>
    rw [List.cons_append]
    unfold charLiteral at h ⊢
    dsimp only at h ⊢
    split at h
    · cases h
    · rw [if_neg ‹_›]
      split at h
      · cases h
      · rw [if_neg ‹_›]
        split at h
        · rw [if_pos ‹_›]
          cases cs with
          | nil =>
            subst ‹c = '\\'›
            cases h
          | cons d cs =>
            rw [escape_append d cs hb]
            exact charEnd_append h _
        · rw [if_neg ‹_›]
          exact charEnd_append h _

/-! ### Words and symbols -/

theorem stops_isPrefixOf (word : List Char) (hword : word.any isStop = false) :
    Stops word.isPrefixOf :=
  fun cs b hb tail => by
    induction word generalizing cs with
    | nil => simp only [List.isPrefixOf_nil_left]
    | cons c word ih =>
      rw [List.any_cons, Bool.or_eq_false_iff] at hword
      obtain ⟨hc, hword⟩ := hword
      cases cs with
      | nil =>
        rw [List.nil_append, List.isPrefixOf_cons_cons,
          beq_eq_false_iff_ne.mpr (ne_of_isStop hb hc).symm]
        rfl
      | cons d cs => simp only [List.cons_append, List.isPrefixOf_cons_cons, ih hword]

theorem stops_word : Stops word := fun cs b hb tail => by
  have hname := stops_takeWhile (p := isNamePart) (by decide) cs hb tail
  have hle : (cs.takeWhile isNamePart).length ≤ cs.length := (List.takeWhile_sublist _).length_le
  have hsealed := (stops_isPrefixOf "-sealed".toList (by decide)).drop hle hb tail
  have hbehind (h : "-sealed".toList.isPrefixOf (cs.drop (cs.takeWhile isNamePart).length) = true) :
      ((cs.drop (cs.takeWhile isNamePart).length ++ b :: tail).drop
        "-sealed".toList.length).head?.any isNamePart =
      ((cs.drop (cs.takeWhile isNamePart).length).drop
        "-sealed".toList.length).head?.any isNamePart :=
    (stops_any (p := isNamePart) (by decide)).drop (List.isPrefixOf_iff_prefix.mp h).length_le hb
      tail
  unfold word
  dsimp only
  rw [hname, hsealed, List.drop_append_of_le_length hle]
  by_cases h : "-sealed".toList.isPrefixOf (cs.drop (cs.takeWhile isNamePart).length) = true
  · rw [hbehind h]
  · simp only [h, Bool.and_false, Bool.false_and]

/-- A separator is taken for the end of the text where a symbol may start, too. -/
theorem symbol_append (cs : List Char) (hb : isSeparator b = true) (tail : List Char) :
    symbol (cs ++ b :: tail) = symbol cs := by
  -- A symbol has four characters at most.
  rcases eq_of_isSeparator hb with rfl | rfl | rfl | rfl | rfl
  all_goals
    rcases cs with _ | ⟨a, _ | ⟨b, _ | ⟨c, _ | ⟨d, rest⟩⟩⟩⟩
    all_goals
      unfold symbol symbol.match_1
      rfl

/-- The characters that symbols start with. -/
abbrev signs : List Char :=
  ['(', ')', '\x7b', '\x7d', '[', ']', ';', ',', '@', '~', '?', '.', ':', '=', '!', '<', '>', '+', '-',
    '*', '/', '%', '&', '|', '^']

theorem symbol_of_not_mem (h : c ∉ signs) (cs : List Char) : symbol (c :: cs) = none := by
  unfold symbol
  split <;> first
    | rfl
    | rename_i heq
      cases heq
      exact absurd (by decide) h

/-- A colon goes on with no symbol but a colon. -/
theorem symbol_colon (hc : c ≠ ':') (tail : List Char) : symbol (c :: ':' :: tail) = symbol [c] := by
  by_cases h : c ∈ signs
  · simp only [List.mem_cons, List.not_mem_nil, or_false] at h
    rcases h with rfl | rfl | rfl | rfl | rfl | rfl | rfl | rfl | rfl | rfl | rfl | rfl | rfl |
      rfl | rfl | rfl | rfl | rfl | rfl | rfl | rfl | rfl | rfl | rfl | rfl
    all_goals first
      | rfl
      | exact absurd rfl hc
  · rw [symbol_of_not_mem h, symbol_of_not_mem h]

theorem symbol_stopped (c : Char) (cs : List Char) (hb : isStop b = true)
    (hcolon : b = ':' → c :: cs ≠ [':']) (tail : List Char) :
    symbol (c :: cs ++ b :: tail) = symbol (c :: cs) := by
  simp only [isStop, List.contains_eq_mem, List.mem_cons, List.not_mem_nil, or_false,
    decide_eq_true_eq] at hb
  rcases hb with rfl | rfl | rfl | rfl | rfl | rfl | rfl | rfl | rfl | rfl
  case inr.inr.inr.inr.inr.inr.inr.inr.inr =>
    rcases cs with _ | ⟨b, _ | ⟨c, _ | ⟨d, rest⟩⟩⟩
    · exact symbol_colon (fun hc => hcolon rfl (congrArg (· :: []) hc)) tail
    all_goals
      unfold symbol symbol.match_1
      rfl
  all_goals
    rcases cs with _ | ⟨b, _ | ⟨c, _ | ⟨d, rest⟩⟩⟩
    all_goals
      unfold symbol symbol.match_1
      rfl

/-- A lexeme that ends within a text is there where a separator or a sign follows the text. -/
theorem lexeme_stopped {len : Nat} (h : lexeme c cs = ⟨len, .ok kind⟩) (hb : isStop b = true)
    (hcolon : b = ':' → c :: cs ≠ [':']) (tail : List Char) :
    lexeme c (cs ++ b :: tail) = ⟨len, .ok kind⟩ := by
  have hdigit : (cs ++ b :: tail).head?.any isDecimalDigit = cs.head?.any isDecimalDigit :=
    stops_any (by decide) cs hb tail
  have hsymbol := symbol_stopped c cs hb hcolon tail
  rw [List.cons_append] at hsymbol
  unfold lexeme at h ⊢
  rw [hdigit, hsymbol]
  split at h
  · rw [if_pos ‹_›]
    exact number_append h hb tail
  · rw [if_neg ‹_›]
    split at h
    · exact h
    · split at h
      · rw [if_pos ‹_›]
        split at h
        · rename_i hquotes
          obtain ⟨rest, rfl⟩ : ∃ rest, cs = '\x22' :: '\x22' :: rest :=
            ⟨cs.drop 2, by rw [← List.take_append_drop 2 cs, hquotes]; rfl⟩
          exact (if_pos rfl).trans (textBlock_append h _)
        · rename_i hquotes
          have hquote : '\x22' ≠ b := (ne_of_isStop hb (by decide)).symm
          rw [if_neg, stringLiteral_append h]
          intro htake
          obtain ⟨rest, hrest, -⟩ := @exists_append cs tail b '\x22' '\x22'
            ((cs ++ b :: tail).drop 2) hquote hquote
            (by rw [← List.take_append_drop 2 (cs ++ b :: tail), htake]; rfl)
          rw [hrest] at hquotes
          exact hquotes rfl
      · rw [if_neg ‹_›]
        split at h
        · rw [if_pos ‹_›]
          exact charLiteral_append h hb tail
        · rw [if_neg ‹_›]
          split at h
          · rw [if_pos ‹_›]
            exact (stops_word (c :: cs) hb tail).trans h
          · cases h

/-- **A lexeme that ends within a text is there where a separator follows the text.** -/
theorem lexeme_append {len : Nat} (h : lexeme c cs = ⟨len, .ok kind⟩) (hb : isSeparator b = true)
    (tail : List Char) : lexeme c (cs ++ b :: tail) = ⟨len, .ok kind⟩ :=
  lexeme_stopped h (isStop_of_isSeparator hb) (fun hcolon => by
    subst hcolon
    cases hb) tail

/-! ### Between tokens -/

theorem commentBody_append (h : commentBody cs = (n, true)) (tail : List Char) :
    commentBody (cs ++ tail) = (n, true) := by
  fun_induction commentBody cs generalizing n with
  | case1 => cases h
  | case2 => exact h
  | case3 c cs hopen ih =>
    obtain ⟨hcs, rfl⟩ := past_eq h
    rw [List.cons_append, commentBody, ih hcs]
    · rfl
    · intro rest hc heq
      cases cs with
      | nil => cases hcs
      | cons d cs =>
        rw [List.cons_append, List.cons.injEq] at heq
        obtain ⟨rfl, -⟩ := heq
        exact hopen cs hc rfl

/-- The gap ahead of the end of the text goes on behind the break. -/
def gapUpTo (length n : Nat) (tail : List Char) : Gap :=
  if n < length then ⟨n, none⟩ else (gap tail).behind (n + 1)

theorem behind_gapUpTo (k length n : Nat) (tail : List Char) :
    (gapUpTo length n tail).behind k = gapUpTo (k + length) (k + n) tail := by
  unfold gapUpTo
  by_cases h : n < length
  · rw [if_pos h, if_pos (by omega)]
    rfl
  · rw [if_neg h, if_neg (by omega), Gap.behind, Gap.behind, Gap.behind, Option.map_map]
    exact Gap.mk.injEq .. ▸ ⟨by dsimp only; omega, congrArg (Option.map · _) (funext fun i => by
      simp only [Function.comp]; omega)⟩

theorem gap_append (h : gap cs = ⟨n, none⟩) (tail : List Char) :
    gap (cs ++ '\n' :: tail) = gapUpTo cs.length n tail := by
  fun_induction gap cs generalizing n with
  | case1 cs k =>
    rename_i ih
    obtain ⟨hgap, rfl⟩ := behind_eq h
    have hline : lineComment (cs ++ '\n' :: tail) = k :=
      congrArg List.length (takeWhile_append_of_neg rfl cs tail)
    have hle : k ≤ cs.length := (List.takeWhile_sublist _).length_le
    rw [List.cons_append, List.cons_append, gap, hline, List.drop_append_of_le_length hle, ih hgap,
      behind_gapUpTo, List.length_drop]
    congr 1
    simp only [List.length_cons]
    omega
  | case2 cs k hclosed ih =>
    obtain ⟨hgap, rfl⟩ := behind_eq h
    have hle : k ≤ cs.length := by
      obtain ⟨body, rest, rfl, rfl, -⟩ := commentBody_eq hclosed
      simp only [List.length_append, List.length_cons]
      omega
    rw [List.cons_append, List.cons_append, gap, commentBody_append hclosed]
    dsimp only
    rw [List.drop_append_of_le_length hle, ih hgap, behind_gapUpTo, List.length_drop]
    congr 1
    simp only [List.length_cons]
    omega
  | case3 cs k hopen => cases h
  | case4 c cs hline hblock hc ih =>
    obtain ⟨hgap, rfl⟩ := behind_eq h
    have hslash : c ≠ '/' := fun heq => by
      rw [heq] at hc
      exact absurd hc (by decide)
    rw [List.cons_append, gap, if_pos hc, ih hgap, behind_gapUpTo, List.length_cons, Nat.add_comm]
    · exact fun rest heq => absurd heq hslash
    · exact fun rest heq => absurd heq hslash
  | case5 c cs hline hblock hc =>
    cases h
    rw [List.cons_append, gap, if_neg hc]
    · exact (if_pos (Nat.zero_lt_succ _)).symm
    · intro rest hslash heq
      obtain ⟨rest', hrest, -⟩ := @exists_append (c :: cs) tail '\n' '/' '/' rest (by decide) (by decide)
        (by rw [List.cons_append, hslash, heq])
      exact hline rest' hslash (List.cons.inj hrest).2
    · intro rest hslash heq
      obtain ⟨rest', hrest, -⟩ := @exists_append (c :: cs) tail '\n' '/' '*' rest (by decide) (by decide)
        (by rw [List.cons_append, hslash, heq])
      exact hblock rest' hslash (List.cons.inj hrest).2
  | case6 =>
    cases h
    rw [List.nil_append, gap]
    · rfl
    · exact fun _ heq => absurd heq (by decide)
    · exact fun _ heq => absurd heq (by decide)

end Lexer

open Lexer

namespace Lexes

variable {cs rest tail : List Char} {ss ss' : List Symbol} {k n : Nat} {c : Char}
variable {kind : TokenKind}

theorem gap_of_token (hgap : gap cs = ⟨n, none⟩) (hrest : cs.drop n = c :: rest)
    (tail : List Char) : gap (cs ++ '\n' :: tail) = ⟨n, none⟩ ∧
      (cs ++ '\n' :: tail).drop n = c :: (rest ++ '\n' :: tail) := by
  have hlt : n < cs.length := Nat.lt_of_not_le fun hle => by
    rw [List.drop_eq_nil_of_le hle] at hrest
    cases hrest
  rw [gap_append hgap, List.drop_append_of_le_length (Nat.le_of_lt hlt), hrest]
  exact ⟨if_pos hlt, rfl⟩

theorem gap_of_finish (hgap : gap cs = ⟨n, none⟩) (hrest : cs.drop n = []) (tail : List Char) :
    gap (cs ++ '\n' :: tail) = (gap tail).behind (cs.length + 1) := by
  obtain ⟨blanks, rest, rfl, rfl, -⟩ := gap_trivia hgap
  rw [List.drop_left] at hrest
  subst hrest
  rw [gap_append hgap, List.append_nil]
  exact if_neg (Nat.lt_irrefl _)

/-- A token touches the next one in front of the break as it does without it. -/
theorem touchesNext_append (h : Lexes cs ss) (tail : List Char) (ss' : List Symbol) :
    touchesNext kind (cs ++ '\n' :: tail) (ss ++ ss') = touchesNext kind cs ss := by
  unfold touchesNext
  cases h with
  | @finish _ n hgap hrest =>
    have hpos : (gap (cs ++ '\n' :: tail)).length ≠ 0 := by
      rw [gap_of_finish hgap hrest]
      exact Nat.ne_of_gt (Nat.add_pos_left (Nat.succ_pos _) _)
    rw [beq_eq_false_iff_ne.mpr hpos, List.head?_nil, Option.any_none, Bool.and_false,
      Bool.and_false, Bool.false_and]
  | token hgap hrest hlexeme hkind behind =>
    rw [(gap_of_token hgap hrest tail).1, hgap]
    rfl

/-- **A text keeps its tokens where a line break and more text follow.** -/
theorem append (h : Lexes cs ss) (htail : Lexes tail ss') :
    Lexes (cs ++ '\n' :: tail) (ss ++ ss') := by
  induction h with
  | @finish cs n hgap hrest =>
    refine htail.behind (gap_of_finish hgap hrest tail) ?_
    rw [← List.drop_drop, List.drop_left]
    rfl
  | @token cs rest n len c kind ss hgap hrest hlexeme hkind behind ih =>
    obtain ⟨hgap', hrest'⟩ := gap_of_token hgap hrest tail
    have hlexeme' := lexeme_append hlexeme (b := '\n') rfl tail
    have hle : len ≤ rest.length + 1 := by
      have hle := @lexeme_le c rest kind (by rw [hlexeme])
      rwa [hlexeme] at hle
    have hdrop : (rest ++ '\n' :: tail).drop (len - 1) = rest.drop (len - 1) ++ '\n' :: tail :=
      List.drop_append_of_le_length (by omega)
    have htake : (c :: (rest ++ '\n' :: tail)).take len = (c :: rest).take len := by
      rw [← List.cons_append]
      exact List.take_append_of_le_length hle
    have hlexes := Lexes.token hgap' hrest' hlexeme' hkind (by rw [hdrop]; exact ih)
    rwa [htake, hdrop, touchesNext_append behind] at hlexes

end Lexes

/-! ### Texts that have tokens -/

namespace Lexer

theorem next_lexes {lexer behind : Lexer} {t : Token} (h : lexer.next = (.ok t, behind)) :
    Lexes lexer.rest [] ∨ t.kind ≠ .eof ∧
      ∀ ss, Lexes behind.rest ss → ∃ ss', Lexes lexer.rest ss' := by
  cases step_of_next h with
  | finish hgap hrest => exact .inl (.finish hgap hrest)
  | @token n len c cs kind hgap hrest hlexeme =>
    have hkind : (lexeme c cs).kind = .ok kind := by rw [hlexeme]
    have hpos := lexeme_pos hkind
    rw [hlexeme] at hpos
    have hne := (lexeme_spells hkind).1.1
    have hdrop : (c :: cs).drop len = cs.drop (len - 1) := List.drop_cons hpos
    refine .inr ⟨hne, fun ss hbehind => ?_⟩
    rw [advance, advance, hrest, hdrop] at hbehind
    exact ⟨_, .token hgap hrest hlexeme hne hbehind⟩

/-- A text that has tokens lexes. -/
theorem exists_lexes (lexer : Lexer) {ts : List Token} (h : lexer.tokens = .ok ts) :
    ∃ ss, Lexes lexer.rest ss := by
  fun_induction tokens lexer generalizing ts with
  | case1 => cases h
  | case2 lexer t behind hnext he =>
    rcases next_lexes hnext with hfinish | ⟨hne, -⟩
    · exact ⟨[], hfinish⟩
    · exact absurd he hne
  | case3 => cases h
  | case4 lexer t behind hnext he us hus ih =>
    rcases next_lexes hnext with hfinish | ⟨-, hbehind⟩
    · exact ⟨[], hfinish⟩
    · obtain ⟨ss, hss⟩ := ih hus
      exact hbehind ss hss

end Lexer

/-- A source that has tokens lexes. -/
theorem exists_lexes {source : String} {ts : List Token} (h : tokenize source = .ok ts) :
    ∃ ss, Lexes source.toList ss := Lexer.exists_lexes _ h

end JavaSource
