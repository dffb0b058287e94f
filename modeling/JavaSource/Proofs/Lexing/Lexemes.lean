import JavaSource.Proofs.Lexing.Breaks
import JavaSource.Proofs.TextBlocks.Tokens

/-!
# A token by itself

Readers look behind what they take: for a digit, a quote, a mark that goes on with a number.  What
they find there ends the token and is no part of it, so a token is read whole from its own
characters.

A reader is `Settled` if it finds the same in a text that is cut off anywhere behind what it takes.
Decimal numbers are the exception: `1` ahead of two dots is a whole number, and one dot later it
would be another one, so there the cut must be where the number ends.

* `lexeme_cases`: what a lexeme can be.
* `lexeme_take`: a lexeme is there where the text ends with it.
* `tokenize_whole`: each token of a source is a lexeme by itself.
-/

namespace JavaSource

open Text (isLineBreak isSpacing isDecimalDigit isHexDigit isOctalDigit isNamePart isNameStart)

namespace Lexer

variable {α : Type} {cs rest body : List Char} {p : Char → Bool} {n len : Nat} {c d : Char}
variable {kind : TokenKind}

/-! ### Cutting a text off -/

/-- A reader finds the same where the text is cut off behind what it takes. -/
def Settled (read : List Char → Nat × α) : Prop :=
  ∀ (cs : List Char) {n : Nat}, (read cs).1 ≤ n → read (cs.take n) = read cs

theorem Settled.drop {read : List Char → Nat × α} {k : Nat} (hread : Settled read)
    (h : k + (read (cs.drop k)).1 ≤ n) : read ((cs.take n).drop k) = read (cs.drop k) := by
  rw [List.drop_take]
  exact hread _ (by omega)

theorem eq_append_of_take (h : cs.take n = rest) : cs = rest ++ cs.drop n := by
  rw [← h, List.take_append_drop]

theorem takeWhile_take (h : (cs.takeWhile p).length ≤ n) :
    (cs.take n).takeWhile p = cs.takeWhile p := by
  rw [← List.take_takeWhile, List.take_of_length_le h]

theorem head?_any_take (h : cs.head?.any p = true → 0 < n) :
    (cs.take n).head?.any p = cs.head?.any p := by
  cases cs with
  | nil => rw [List.take_nil]
  | cons c cs =>
    cases n with
    | zero => exact (Bool.eq_false_iff.mpr fun hp => absurd (h hp) (Nat.lt_irrefl 0)).symm
    | succ n => rfl

theorem head?_eq_take (h : cs.head? = some c → 0 < n) :
    ((cs.take n).head? == some c) = (cs.head? == some c) := by
  have hany (cs : List Char) : (cs.head? == some c) = cs.head?.any (· == c) := by cases cs <;> rfl
  rw [hany, hany]
  exact head?_any_take fun hc => h (beq_iff_eq.mp ((hany cs).trans hc))

/-! ### Numbers -/

theorem digitRun_take (h : (digitRun p cs).length ≤ n) :
    digitRun p (cs.take n) = digitRun p cs := by
  cases cs with
  | nil => rw [List.take_nil]
  | cons c cs =>
    rw [digitRun] at h
    split at h
    · obtain ⟨n, rfl⟩ := Nat.exists_eq_add_one_of_ne_zero (Nat.ne_of_gt (Nat.lt_of_lt_of_le
        (Nat.zero_lt_succ _) h))
      rw [List.take_succ_cons, digitRun, digitRun, takeWhile_take (Nat.le_of_succ_le_succ h)]
    · have hempty : digitRun p (c :: cs) = [] := if_neg ‹_›
      rw [hempty]
      cases n with
      | zero => rfl
      | succ n => exact if_neg ‹_›

theorem settled_exponent (marks : List Char) : Settled (exponent marks) := fun cs n h => by
  cases cs with
  | nil => rw [List.take_nil]
  | cons c cs =>
    rw [exponent] at h ⊢
    split at h
    · dsimp only at h
      obtain ⟨n, rfl⟩ := Nat.exists_eq_add_one_of_ne_zero (n := n) (by omega)
      have hpos (hsign : (cs.head? == some '+' || cs.head? == some '-') = true) : 0 < n := by
        rw [if_pos hsign] at h
        omega
      have hsign : ((cs.take n).head? == some '+' || (cs.take n).head? == some '-') =
          (cs.head? == some '+' || cs.head? == some '-') := by
        rw [head?_eq_take fun hc => hpos (by rw [hc]; rfl),
          head?_eq_take fun hc => hpos (by rw [hc]; rfl)]
      rw [List.take_succ_cons, exponent, hsign]
      dsimp only
      rw [List.drop_take, digitRun_take (by omega)]
    · cases n with
      | zero => rw [List.take_zero, exponent, if_neg ‹_›]
      | succ n => rw [List.take_succ_cons, exponent, if_neg ‹_›, if_neg ‹_›]

/-- At most one mark. -/
theorem settled_mark (p : Char → Bool) (kind : TokenKind) :
    Settled fun cs => (if cs.head?.any p then 1 else 0, some kind) := fun cs n h => by
  dsimp only at h ⊢
  have hmark : (cs.take n).head?.any p = cs.head?.any p := head?_any_take fun hp => by
    rwa [if_pos hp] at h
  rw [hmark]

theorem settled_integerSuffix : Settled integerSuffix := by
  rw [funext integerSuffix_eq]
  exact settled_mark _ _

theorem settled_floatSuffix : Settled floatSuffix := settled_mark isFloatSuffix .floatingLiteral

theorem settled_binaryNumeral : Settled binaryNumeral := fun cs n h => by
  unfold binaryNumeral at h ⊢
  dsimp only at h ⊢
  have hle : (digitRun Text.isBinaryDigit cs).length ≤ n := by
    split at h
    · exact h
    · exact Nat.le_trans (Nat.le_add_right ..) h
  rw [digitRun_take hle]
  split
  · rfl
  · rw [if_neg ‹_›] at h
    rw [settled_integerSuffix.drop h]

theorem settled_hexTail (dotted : Bool) : Settled (hexTail dotted) := fun cs n h => by
  have hexp := settled_exponent ['p', 'P'] cs (n := n)
  unfold hexTail at h ⊢
  rcases heq : exponent ['p', 'P'] cs with ⟨_ | k, _ | _⟩ <;> rw [heq] at h hexp
  · rw [hexp h]
  · rw [hexp (Nat.zero_le _)]
    cases dotted with
    | true => rfl
    | false => exact settled_integerSuffix _ h
  · rw [hexp h]
  · rw [hexp (Nat.le_trans (Nat.le_add_right ..) h)]
    exact congrArg (past (k + 1)) (settled_floatSuffix.drop h)

theorem settled_decimalTail (dotted : Bool) : Settled (decimalTail dotted) := fun cs n h => by
  have hexp := settled_exponent ['e', 'E'] cs (n := n)
  unfold decimalTail at h ⊢
  rcases heq : exponent ['e', 'E'] cs with ⟨k, _ | _⟩ <;> rw [heq] at h hexp
  · rw [hexp h]
  · rw [hexp (Nat.le_trans (Nat.le_add_right ..) h)]
    dsimp only at h ⊢
    have hmark : ((cs.take n).drop k).head?.any isFloatSuffix =
        (cs.drop k).head?.any isFloatSuffix := by
      rw [List.drop_take]
      refine head?_any_take fun hmark => ?_
      rw [hmark, Bool.or_true, if_pos rfl, floatSuffix, if_pos hmark] at h
      exact Nat.sub_pos_of_lt h
    rw [hmark]
    split at h
    · rw [if_pos ‹_›, if_pos ‹_›, settled_floatSuffix.drop h]
    · rw [if_neg ‹_›, if_neg ‹_›, settled_integerSuffix.drop h]

/-- A number behind its dot. -/
def fraction (valid : Char → Bool) (bad : List Char → Bool) (tail : List Char → Numeral)
    (cs : List Char) : Numeral :=
  let run := digitRun valid cs
  past (1 + run.length) (if bad run then (0, none) else tail (cs.drop run.length))

theorem fraction_pos {valid : Char → Bool} {bad : List Char → Bool} {tail : List Char → Numeral}
    (cs : List Char) : 0 < (fraction valid bad tail cs).1 := by
  unfold fraction past
  dsimp only
  omega

theorem fraction_take {valid : Char → Bool} {bad : List Char → Bool} {tail : List Char → Numeral}
    (htail : Settled tail) (h : (fraction valid bad tail cs).1 ≤ n + 1) :
    fraction valid bad tail (cs.take n) = fraction valid bad tail cs := by
  unfold fraction past at h
  dsimp only at h
  unfold fraction
  rw [digitRun_take (by omega)]
  dsimp only
  split
  · rfl
  · rw [if_neg ‹_›] at h
    rw [htail.drop (by omega)]

/-- A hexadecimal number behind the digits ahead of a dot; `bare` if there are none. -/
def hexRest (bare : Bool) : List Char → Numeral
  | '.' :: rest =>
    fraction isHexDigit (fun run => isRagged run || (bare && run.isEmpty)) (hexTail true) rest
  | rest => if bare then (0, none) else hexTail false rest

theorem hexNumeral_eq (cs : List Char) : hexNumeral cs = past (digitRun isHexDigit cs).length
    (if isRagged (digitRun isHexDigit cs) then (0, none)
      else hexRest (digitRun isHexDigit cs).isEmpty (cs.drop (digitRun isHexDigit cs).length)) := by
  unfold hexNumeral hexRest
  rfl

/-- A decimal number behind the digits ahead of a dot; `bare` if there are none. -/
def decimalRest (bare : Bool) : List Char → Numeral
  | '.' :: rest =>
    if rest.head? == some '.' && !bare then decimalTail false ('.' :: rest)
    else fraction isDecimalDigit isRagged (decimalTail true) rest
  | rest => decimalTail false rest

theorem decimalNumeral_eq (cs : List Char) :
    decimalNumeral cs = past (digitRun isDecimalDigit cs).length
      (if isRagged (digitRun isDecimalDigit cs) then (0, none)
        else decimalRest (digitRun isDecimalDigit cs).isEmpty
          (cs.drop (digitRun isDecimalDigit cs).length)) := by
  unfold decimalNumeral decimalRest
  rfl

theorem hexRest_of_ne (bare : Bool) (h : ∀ rest, cs ≠ '.' :: rest) :
    hexRest bare cs = if bare then (0, none) else hexTail false cs := by
  rw [hexRest.eq_def]
  split
  · exact absurd rfl (h _)
  · rfl

theorem decimalRest_of_ne (bare : Bool) (h : ∀ rest, cs ≠ '.' :: rest) :
    decimalRest bare cs = decimalTail false cs := by
  rw [decimalRest.eq_def]
  split
  · exact absurd rfl (h _)
  · rfl

theorem settled_hexRest (bare : Bool) : Settled (hexRest bare) := fun cs n h => by
  by_cases hdot : ∃ rest, cs = '.' :: rest
  · obtain ⟨rest, rfl⟩ := hdot
    obtain ⟨n, rfl⟩ := Nat.exists_eq_add_one_of_ne_zero (n := n)
      (Nat.ne_of_gt (Nat.lt_of_lt_of_le (fraction_pos rest) h))
    exact fraction_take (settled_hexTail true) h
  · rw [not_exists] at hdot
    rw [hexRest_of_ne _ hdot] at h ⊢
    rw [hexRest_of_ne _ fun _ heq => hdot _ (eq_append_of_take heq)]
    cases bare with
    | true => rfl
    | false => exact settled_hexTail false cs h

/-- Behind the digits ahead of a dot, a decimal number is read whole where it ends. -/
theorem decimalRest_take (bare : Bool) (cs : List Char) :
    decimalRest bare (cs.take (decimalRest bare cs).1) = decimalRest bare cs := by
  by_cases hdot : ∃ rest, cs = '.' :: rest
  · obtain ⟨rest, rfl⟩ := hdot
    rw [decimalRest]
    split
    · -- The first of two dots is no part of the number.
      rfl
    · rename_i hdots
      have hpos := @fraction_pos isDecimalDigit isRagged (decimalTail true) rest
      obtain ⟨n, hn⟩ := Nat.exists_eq_add_one_of_ne_zero (Nat.ne_of_gt hpos)
      have hdots' : ¬((rest.take n).head? == some '.' && !bare) = true := fun htake => hdots <| by
        rw [List.head?_take] at htake
        split at htake
        · cases htake
        · exact htake
      rw [hn, List.take_succ_cons, decimalRest, if_neg hdots']
      exact fraction_take (settled_decimalTail true) (Nat.le_of_eq hn)
  · rw [not_exists] at hdot
    rw [decimalRest_of_ne _ hdot, decimalRest_of_ne _ fun _ heq => hdot _ (eq_append_of_take heq)]
    exact settled_decimalTail false cs (Nat.le_refl _)

theorem settled_hexNumeral : Settled hexNumeral := fun cs n h => by
  have hle : (digitRun isHexDigit cs).length ≤ n := Nat.le_trans (Nat.le_add_right ..) h
  rw [hexNumeral_eq] at h
  rw [hexNumeral_eq, hexNumeral_eq, digitRun_take hle]
  split
  · rfl
  · rw [if_neg ‹_›] at h
    rw [(settled_hexRest _).drop h]

theorem decimalNumeral_take (cs : List Char) :
    decimalNumeral (cs.take (decimalNumeral cs).1) = decimalNumeral cs := by
  have hle : (digitRun isDecimalDigit cs).length ≤ (decimalNumeral cs).1 := Nat.le_add_right ..
  rw [decimalNumeral_eq (cs.take _), digitRun_take hle, decimalNumeral_eq]
  split
  · rfl
  · rw [List.drop_take]
    dsimp only [past]
    rw [Nat.add_sub_cancel_left, decimalRest_take]

/-- A number is read whole where it ends. -/
theorem numeral_take (cs : List Char) : numeral (cs.take (numeral cs).1) = numeral cs := by
  have hno {c d : Char} {n : Nat} (h : ∀ rest, cs = c :: d :: rest → False) :
      ∀ rest, cs.take n = c :: d :: rest → False := fun rest heq => h _ (eq_append_of_take heq)
  have htake (k : Nat) {c d : Char} {rest : List Char} :
      (c :: d :: rest).take (2 + k) = c :: d :: rest.take k := by
    rw [Nat.add_comm]
    rfl
  fun_cases numeral cs with
  | case1 cs =>
    rw [past, htake, numeral, settled_hexNumeral cs (Nat.le_refl _)]
    rfl
  | case2 cs =>
    rw [past, htake, numeral, settled_hexNumeral cs (Nat.le_refl _)]
    rfl
  | case3 cs =>
    rw [past, htake, numeral, settled_binaryNumeral cs (Nat.le_refl _)]
    rfl
  | case4 cs =>
    rw [past, htake, numeral, settled_binaryNumeral cs (Nat.le_refl _)]
    rfl
  | case5 cs hx hX hb hB =>
    rw [numeral, decimalNumeral_take]
    · exact hno hx
    · exact hno hX
    · exact hno hb
    · exact hno hB

theorem number_take (h : number cs = ⟨len, .ok kind⟩) : number (cs.take len) = ⟨len, .ok kind⟩ := by
  have hnumeral := @number_kind cs kind (by rw [h])
  have htake := numeral_take cs
  rw [h] at hnumeral
  rw [hnumeral] at htake
  rw [number, htake]

/-! ### Quoted text -/

/-- What stands between the quotes of a string.  A backslash takes any character along. -/
inductive Quoted : List Char → Prop where
  | nil : Quoted []
  | plain {c : Char} {cs : List Char} (hquote : c ≠ '\x22') (hslash : c ≠ '\\')
    (hbreak : isLineBreak c = false) (behind : Quoted cs) : Quoted (c :: cs)
  | escape (c : Char) {cs : List Char} (behind : Quoted cs) : Quoted ('\\' :: c :: cs)

/-- A string ends with the first quote that no backslash takes along. -/
theorem stringBody_eq (h : stringBody cs = (n, true)) :
    ∃ body rest, cs = body ++ '\x22' :: rest ∧ n = body.length + 1 ∧ Quoted body := by
  fun_induction stringBody cs generalizing n with
  | case1 => cases h
  | case2 rest =>
    cases h
    exact ⟨[], rest, rfl, rfl, .nil⟩
  | case3 => cases h
  | case4 c cs ih =>
    obtain ⟨hcs, rfl⟩ := past_eq h
    obtain ⟨body, rest, rfl, hlength, hbody⟩ := ih hcs
    exact ⟨'\\' :: c :: body, rest, rfl, by rw [hlength, List.length_cons, List.length_cons]; omega,
      .escape c hbody⟩
  | case5 => cases h
  | case6 c cs hquote hlast hslash hbreak ih =>
    obtain ⟨hcs, rfl⟩ := past_eq h
    obtain ⟨body, rest, rfl, hlength, hbody⟩ := ih hcs
    refine ⟨c :: body, rest, rfl, by rw [hlength, List.length_cons, Nat.add_comm], ?_⟩
    refine .plain hquote (fun hc => ?_) (Bool.eq_false_iff.mpr hbreak) hbody
    cases body with
    | nil => exact hslash _ _ hc rfl
    | cons d body => exact hslash _ _ hc rfl

theorem Quoted.stringBody (h : Quoted body) (rest : List Char) :
    stringBody (body ++ '\x22' :: rest) = (body.length + 1, true) := by
  induction h with
  | nil => rfl
  | @plain c cs hquote hslash hbreak behind ih =>
    rw [List.cons_append, Lexer.stringBody, if_neg (Bool.eq_false_iff.mp hbreak), ih]
    · exact Prod.ext (Nat.add_comm ..) rfl
    · exact hquote
    · exact fun hc => absurd hc hslash
    · exact fun _ _ hc => absurd hc hslash
  | @escape c cs behind ih =>
    rw [List.cons_append, List.cons_append, Lexer.stringBody, ih]
    exact Prod.ext (Nat.add_comm ..) rfl

theorem stringLiteral_take (h : stringLiteral cs = ⟨len, .ok kind⟩) :
    stringLiteral (cs.take (len - 1)) = ⟨len, .ok kind⟩ := by
  unfold stringLiteral at h
  split at h
  · rename_i n hbody
    cases h
    obtain ⟨body, rest, rfl, rfl, hquoted⟩ := stringBody_eq hbody
    have htake : (body ++ '\x22' :: rest).take (body.length + 1) = body ++ ['\x22'] := by
      rw [List.take_length_add_append]
      rfl
    rw [Nat.add_sub_cancel, htake, stringLiteral, hquoted.stringBody]
  · cases h

theorem textBlock_take (h : textBlock cs = ⟨len, .ok kind⟩) :
    textBlock (cs.take (len - 3)) = ⟨len, .ok kind⟩ := by
  have hkind : (textBlock cs).kind = .ok kind := by rw [h]
  obtain rfl := textBlock_kind hkind
  obtain ⟨blanks, body, rest, rfl, hblanks, hbreak, hclosed, hlength⟩ := textBlock_eq hkind
  rw [h] at hlength
  dsimp only at hlength
  have htake : (blanks ++ (body ++ (quotes ++ rest))).take (len - 3) =
      blanks ++ (body ++ (quotes ++ [])) := by
    have hpieces : blanks ++ (body ++ (quotes ++ rest)) = blanks ++ (body ++ quotes) ++ rest := by
      simp only [List.append_assoc]
    have hsize : (blanks ++ (body ++ quotes)).length = len - 3 := by
      simp only [List.length_append, quotes, List.length_cons, List.length_nil]
      omega
    rw [hpieces, ← hsize, List.take_left, List.append_nil]
  rw [htake, textBlock_of_closed hblanks hbreak hclosed, hlength]

theorem takeWhile_take_take {k : Nat} (h : ((cs.take k).takeWhile p).length ≤ n) :
    ((cs.take n).take k).takeWhile p = (cs.take k).takeWhile p := by
  rw [List.take_take, Nat.min_comm, ← List.take_take, takeWhile_take h]

theorem escape_pos (c : Char) (cs : List Char) : 0 < escape (c :: cs) := by
  rw [escape]
  split
  · subst ‹c = 'u'›
    exact Nat.lt_of_lt_of_le (Nat.succ_pos _) (Nat.le_add_right ..)
  · split
    · have htake : (c :: cs).take (if c ≤ '3' then 3 else 2) =
          c :: cs.take (if c ≤ '3' then 2 else 1) := by split <;> rfl
      rw [htake, List.takeWhile_cons_of_pos ‹_›]
      exact Nat.succ_pos _
    · exact Nat.one_pos

theorem escape_take (h : escape cs ≤ n) : escape (cs.take n) = escape cs := by
  cases cs with
  | nil => rw [List.take_nil]
  | cons c cs =>
    obtain ⟨n, rfl⟩ := Nat.exists_eq_add_one_of_ne_zero (n := n)
      (Nat.ne_of_gt (Nat.lt_of_lt_of_le (escape_pos c cs) h))
    rw [escape] at h
    rw [List.take_succ_cons, escape, escape]
    split
    · rw [if_pos ‹_›] at h
      rw [← List.take_succ_cons]
      dsimp only at h ⊢
      rw [takeWhile_take (Nat.le_trans (Nat.le_add_right ..) h), List.drop_take,
        takeWhile_take_take (by omega)]
    · rw [if_neg ‹_›] at h
      split
      · rw [if_pos ‹_›] at h
        rw [← List.take_succ_cons, takeWhile_take_take h]
      · rfl

/-- A character literal ends with a quote. -/
theorem charEnd_eq (h : charEnd cs n = ⟨len, .ok kind⟩) :
    len = n + 2 ∧ kind = .charLiteral ∧ ∃ rest, cs.drop n = '\x27' :: rest := by
  unfold charEnd at h
  split at h
  · cases h
  · rename_i c rest hrest
    split at h
    · subst ‹c = '\x27'›
      cases h
      exact ⟨rfl, rfl, rest, hrest⟩
    · split at h <;> cases h

theorem charEnd_take (h : charEnd cs n = ⟨len, .ok kind⟩) :
    charEnd (cs.take (n + 1)) n = ⟨len, .ok kind⟩ := by
  obtain ⟨rfl, rfl, rest, hrest⟩ := charEnd_eq h
  rw [charEnd, List.drop_take, hrest, Nat.add_sub_cancel_left]
  rfl

theorem charLiteral_take (h : charLiteral cs = ⟨len, .ok kind⟩) :
    charLiteral (cs.take (len - 1)) = ⟨len, .ok kind⟩ := by
  cases cs with
  | nil => cases h
  | cons c cs =>
    rw [charLiteral] at h
    split at h
    · cases h
    · split at h
      · cases h
      · split at h
        · obtain ⟨rfl, -⟩ := charEnd_eq h
          have hend := charEnd_take h
          rw [List.take_succ_cons] at hend
          rw [Nat.add_sub_assoc (by decide), List.take_succ_cons, charLiteral, if_neg ‹_›,
            if_neg ‹_›, if_pos ‹_›, escape_take (Nat.le_add_left ..), hend]
        · obtain ⟨rfl, -⟩ := charEnd_eq h
          have hend := charEnd_take h
          rw [List.take_succ_cons] at hend
          rw [Nat.add_sub_assoc (by decide), List.take_succ_cons, charLiteral, if_neg ‹_›,
            if_neg ‹_›, if_neg ‹_›, hend]

/-! ### Words and symbols -/

theorem word_take (h : word cs = ⟨len, .ok kind⟩) : word (cs.take len) = ⟨len, .ok kind⟩ := by
  have hname : (cs.takeWhile isNamePart).length ≤ len := by
    unfold word at h
    dsimp only at h
    split at h <;> cases h
    · exact Nat.le_add_right ..
    · exact Nat.le_refl _
  unfold word at h ⊢
  rw [takeWhile_take hname]
  dsimp only at h ⊢
  rw [List.drop_take]
  generalize cs.takeWhile isNamePart = name at h hname ⊢
  generalize cs.drop name.length = rest at h ⊢
  split at h
  · rename_i hsealed
    cases h
    simp only [Bool.and_eq_true, Bool.not_eq_true', beq_iff_eq] at hsealed
    obtain ⟨⟨hnon, hprefix⟩, -⟩ := hsealed
    obtain ⟨tail, rfl⟩ := List.isPrefixOf_iff_prefix.mp hprefix
    rw [Nat.add_sub_cancel_left, List.take_left, hnon]
    rfl
  · cases h
    rw [Nat.sub_self, List.take_zero, if_neg (by simp)]

theorem symbol_take (h : symbol cs = some (n, kind)) : symbol (cs.take n) = some (n, kind) := by
  unfold symbol at h
  split at h <;> cases h <;> rfl

/-! ### Lexemes -/

/-- Whether a number starts with a character. -/
def startsNumber (c : Char) (cs : List Char) : Bool :=
  isDecimalDigit c || (c == '.' && cs.head?.any isDecimalDigit)

theorem startsNumber_of_take (h : startsNumber c (cs.take n) = true) :
    startsNumber c cs = true := by
  unfold startsNumber at h ⊢
  rw [List.head?_take] at h
  split at h
  · rw [Option.any_none, Bool.and_false, Bool.or_false] at h
    rw [h, Bool.true_or]
  · exact h

/-- A number that starts with a dot goes on behind it. -/
theorem one_lt_numeral (h : cs.head?.any isDecimalDigit = true) :
    1 < (numeral ('.' :: cs)).1 := by
  have hrun : digitRun isDecimalDigit ('.' :: cs) = [] := rfl
  have hpos : 0 < (digitRun isDecimalDigit cs).length := by
    cases cs with
    | nil => cases h
    | cons d cs =>
      rw [digitRun, if_pos (show isDecimalDigit d = true from h)]
      exact Nat.succ_pos _
  have hnumeral : numeral ('.' :: cs) = decimalNumeral ('.' :: cs) := rfl
  rw [hnumeral, decimalNumeral_eq, hrun, isRagged, List.getLast?_nil, if_neg (by decide),
    List.length_nil, List.drop_zero, decimalRest, List.isEmpty_nil, Bool.not_true, Bool.and_false,
    if_neg Bool.false_ne_true, fraction]
  dsimp only [past]
  omega

theorem startsNumber_take (h : startsNumber c cs = true)
    (hnumber : number (c :: cs) = ⟨n + 1, .ok kind⟩) : startsNumber c (cs.take n) = true := by
  unfold startsNumber at h ⊢
  by_cases hc : isDecimalDigit c = true
  · rw [hc, Bool.true_or]
  · rw [Bool.eq_false_iff.mpr hc, Bool.false_or, Bool.and_eq_true, beq_iff_eq] at h
    obtain ⟨rfl, hdigit⟩ := h
    have hnumeral := @number_kind ('.' :: cs) kind (by rw [hnumber])
    have hlt := one_lt_numeral hdigit
    rw [hnumeral, hnumber] at hlt
    rw [head?_any_take fun _ => Nat.lt_of_succ_lt_succ hlt, hdigit]
    rfl

/-- What a lexeme can be. -/
inductive Reads (c : Char) (cs : List Char) (len : Nat) (kind : TokenKind) : Prop where
  | number (hstart : startsNumber c cs = true) (h : number (c :: cs) = ⟨len, .ok kind⟩)
  | symbol (hstart : startsNumber c cs = false) (h : symbol (c :: cs) = some (len, kind))
  | textBlock {rest : List Char} (hc : c = '\x22') (hcs : cs = '\x22' :: '\x22' :: rest)
    (h : textBlock rest = ⟨len, .ok kind⟩)
  | string (hc : c = '\x22') (hcs : cs.take 2 ≠ ['\x22', '\x22'])
    (h : stringLiteral cs = ⟨len, .ok kind⟩)
  | char (hc : c = '\x27') (h : charLiteral cs = ⟨len, .ok kind⟩)
  | word (hc : isNameStart c = true) (h : word (c :: cs) = ⟨len, .ok kind⟩)

theorem lexeme_cases (h : lexeme c cs = ⟨len, .ok kind⟩) : Reads c cs len kind := by
  unfold lexeme at h
  split at h
  · exact .number ‹_› h
  · rename_i hstart
    split at h
    · cases h
      exact .symbol (Bool.eq_false_iff.mpr hstart) ‹_›
    · split at h
      · split at h
        · rename_i hquotes
          refine .textBlock ‹_› ?_ h
          rw [← List.take_append_drop 2 cs, hquotes]
          rfl
        · exact .string ‹_› ‹_› h
      · split at h
        · exact .char ‹_› h
        · split at h
          · exact .word ‹_› h
          · cases h

theorem Reads.lexeme (h : Reads c cs len kind) : lexeme c cs = ⟨len, .ok kind⟩ := by
  cases h with
  | number hstart h => exact (if_pos hstart).trans h
  | symbol hstart h =>
    refine (if_neg (Bool.eq_false_iff.mp hstart)).trans ?_
    rw [h]
  | textBlock hc hcs h =>
    subst hc hcs
    rw [lexeme_quote]
    exact (if_pos rfl).trans h
  | string hc hcs h =>
    subst hc
    rw [lexeme_quote]
    exact (if_neg hcs).trans h
  | char hc h =>
    subst hc
    exact h
  | word hc h => exact (lexeme_of_isNameStart hc cs).trans h

/-- **A lexeme is there where the text ends with it.** -/
theorem lexeme_take (h : lexeme c cs = ⟨len, .ok kind⟩) :
    lexeme c (cs.take (len - 1)) = ⟨len, .ok kind⟩ := by
  have hpos : 0 < len := by
    have hpos := @lexeme_pos c cs kind (by rw [h])
    rwa [h] at hpos
  obtain ⟨n, rfl⟩ := Nat.exists_eq_add_one_of_ne_zero (Nat.ne_of_gt hpos)
  refine Reads.lexeme ?_
  rw [Nat.add_sub_cancel]
  cases lexeme_cases h with
  | number hstart h =>
    have hnumber := number_take h
    rw [List.take_succ_cons] at hnumber
    exact .number (startsNumber_take hstart h) hnumber
  | symbol hstart h =>
    have hsymbol := symbol_take h
    rw [List.take_succ_cons] at hsymbol
    refine .symbol (Bool.eq_false_iff.mpr fun hstart' => ?_) hsymbol
    rw [startsNumber_of_take hstart'] at hstart
    cases hstart
  | @textBlock rest hc hcs h =>
    have hblock := textBlock_take h
    obtain ⟨_, _, _, _, _, _, _, hlength⟩ := @textBlock_eq rest kind (by rw [h])
    rw [h] at hlength
    dsimp only at hlength
    obtain ⟨n, rfl⟩ := Nat.exists_eq_add_of_le' (show 2 ≤ n by omega)
    subst hcs
    exact .textBlock hc rfl hblock
  | string hc hcs h =>
    refine .string hc (fun htake => hcs ?_) (stringLiteral_take h)
    rw [eq_append_of_take (eq_append_of_take htake)]
    rfl
  | char hc h => exact .char hc (charLiteral_take h)
  | word hc h =>
    have hword := word_take h
    rw [List.take_succ_cons] at hword
    exact .word hc hword

/-! ### Tokens -/

/-- Characters that are one lexeme. -/
def Whole (kind : TokenKind) (word : List Char) : Prop :=
  ∃ c cs, word = c :: cs ∧ lexeme c cs = ⟨word.length, .ok kind⟩

theorem next_whole {lexer behind : Lexer} {t : Token} (h : lexer.next = (.ok t, behind))
    (ht : t.kind ≠ .eof) : Whole t.kind t.text.toList := by
  cases step_of_next h with
  | finish => exact absurd rfl ht
  | @token n len c cs kind hgap hcs hlexeme =>
    have hkind : (lexeme c cs).kind = .ok kind := by rw [hlexeme]
    have hpos := lexeme_pos hkind
    have hle := lexeme_le hkind
    rw [hlexeme] at hpos hle
    have htake : (c :: cs).take len = c :: cs.take (len - 1) := List.take_cons hpos
    have hlength : (c :: cs.take (len - 1)).length = len := by
      rw [← htake, List.length_take]
      exact Nat.min_eq_left hle
    dsimp only
    rw [String.toList_ofList, htake]
    exact ⟨c, _, rfl, hlength.symm ▸ lexeme_take hlexeme⟩

theorem next_eof {lexer behind : Lexer} {t : Token} (h : lexer.next = (.ok t, behind))
    (ht : t.kind = .eof) : t.text = "" := by
  cases step_of_next h with
  | finish => rfl
  | @token n len c cs kind hgap hcs hlexeme =>
    exact absurd ht (@lexeme_spells c cs kind (by rw [hlexeme])).1.1

end Lexer

/-- **Each token of a source is a lexeme by itself.** -/
theorem tokenize_whole {source : String} {ts : List Token} (h : tokenize source = .ok ts)
    {t : Token} (ht : t ∈ ts) (hkind : t.kind ≠ .eof) : Lexer.Whole t.kind t.text.toList := by
  obtain ⟨here, behind, hnext⟩ := Lexer.exists_next_of_mem _ h ht
  exact Lexer.next_whole hnext hkind

/-- The end of a source has no text. -/
theorem tokenize_eof {source : String} {ts : List Token} (h : tokenize source = .ok ts)
    {t : Token} (ht : t ∈ ts) (hkind : t.kind = .eof) : t.text = "" := by
  obtain ⟨here, behind, hnext⟩ := Lexer.exists_next_of_mem _ h ht
  exact Lexer.next_eof hnext hkind

end JavaSource
