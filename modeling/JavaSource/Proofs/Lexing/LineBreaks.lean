import JavaSource.Proofs.Lexing.Lexemes

/-!
# Line breaks in tokens

A text block goes on behind the end of its line.  A string or a character literal does so only where
a backslash takes a line break along, as it takes any character along; no other token does at all.

* `Whole.form`: what is not quoted has no separator in it.
* `Whole.getLast`: no token ends with a separator.
* `tokenize_breaks`: where a token of a source has a line break.
* `not_spansLines`: where no backslash stands ahead of a line break, only text blocks have any.
-/

namespace JavaSource

open Text (isLineBreak isSpacing isOctalDigit)
open Lexer (Quoted Whole isSeparator)

/-- Whether a token goes on behind the end of its line. -/
def Token.spansLines (t : Token) : Bool := t.text.toList.any isLineBreak

/-- A backslash takes the character between two parts of a literal along. -/
inductive EscapedAt : TokenKind → (before after : List Char) → Prop where
  | string {body : List Char} (quoted : Quoted body) (after : List Char) :
    EscapedAt .stringLiteral ('\x22' :: (body ++ ['\\'])) after
  | char : EscapedAt .charLiteral ['\x27', '\\'] ['\x27']

theorem EscapedAt.kind {kind : TokenKind} {before after : List Char}
    (h : EscapedAt kind before after) : kind = .stringLiteral ∨ kind = .charLiteral := by
  cases h with
  | string => exact .inl rfl
  | char => exact .inr rfl

namespace Lexer

variable {α : Type} {cs word body before after : List Char} {b c : Char} {len n : Nat}
variable {kind : TokenKind}

theorem isSeparator_of_isLineBreak (hb : isLineBreak b = true) : isSeparator b = true := by
  rw [isSeparator, hb, Bool.true_or]

/-- A reader that takes a separator for the end of the text takes none along. -/
theorem not_isSeparator_of_reads {read : List Char → α} {f : α → Nat}
    (hread : ∀ cs {b}, isSeparator b = true → ∀ tail, read (cs ++ b :: tail) = read cs)
    (hle : ∀ cs, f (read cs) ≤ cs.length) (h : f (read cs) = cs.length) (hb : b ∈ cs) :
    isSeparator b = false := by
  refine Bool.eq_false_iff.mpr fun hsep => ?_
  obtain ⟨before, after, rfl⟩ := List.append_of_mem hb
  have hbefore := hle before
  rw [← hread before hsep after, h, List.length_append, List.length_cons] at hbefore
  omega

theorem Stops.not_isSeparator {read : List Char → α} {f : α → Nat} (hread : Stops read)
    (hle : ∀ cs, f (read cs) ≤ cs.length) (h : f (read cs) = cs.length) (hb : b ∈ cs) :
    isSeparator b = false :=
  not_isSeparator_of_reads (fun cs _ hb => hread cs (isStop_of_isSeparator hb)) hle h hb

/-! ### Strings -/

/-- A line break in a string stands behind a backslash. -/
theorem Quoted.break (h : Quoted body) (heq : body ++ ['\x22'] = before ++ b :: after)
    (hb : isLineBreak b = true) : ∃ ahead, before = ahead ++ ['\\'] ∧ Quoted ahead := by
  induction h generalizing before with
  | nil =>
    cases before with
    | nil =>
      cases heq
      cases hb
    | cons c before => cases before <;> cases heq
  | @plain c cs hquote hslash hbreak behind ih =>
    cases before with
    | nil =>
      cases heq
      rw [hbreak] at hb
      cases hb
    | cons d before =>
      obtain ⟨rfl, hbehind⟩ := List.cons.inj heq
      obtain ⟨ahead, rfl, hahead⟩ := ih hbehind
      exact ⟨c :: ahead, rfl, .plain hquote hslash hbreak hahead⟩
  | @escape c cs behind ih =>
    rcases before with _ | ⟨d, _ | ⟨e, before⟩⟩
    · cases heq
      cases hb
    · cases heq
      exact ⟨[], rfl, .nil⟩
    · obtain ⟨hd, hcons⟩ := List.cons.inj heq
      obtain ⟨he, hbehind⟩ := List.cons.inj hcons
      subst hd he
      obtain ⟨ahead, rfl, hahead⟩ := ih hbehind
      exact ⟨'\\' :: c :: ahead, rfl, .escape c hahead⟩

theorem stringLiteral_eq (h : stringLiteral cs = ⟨cs.length + 1, .ok kind⟩) :
    kind = .stringLiteral ∧ ∃ body, cs = body ++ ['\x22'] ∧ Quoted body := by
  unfold stringLiteral at h
  split at h
  · rename_i n hbody
    obtain ⟨body, rest, rfl, rfl, hquoted⟩ := stringBody_eq hbody
    simp only [Lexeme.mk.injEq, List.length_append, List.length_cons, Except.ok.injEq] at h
    obtain rfl := List.eq_nil_of_length_eq_zero (l := rest) (by omega)
    exact ⟨h.2.symm, body, rfl, hquoted⟩
  · cases h

/-! ### Characters -/

/-- A line break that a backslash takes along is the whole escape. -/
theorem escape_break (h : escape (before ++ b :: after) = (before ++ b :: cs).length)
    (hb : isLineBreak b = true) : before = [] ∧ cs = [] := by
  have hsep := isSeparator_of_isLineBreak hb
  cases before with
  | nil =>
    have hoctal : isOctalDigit b = false := (show Solid isOctalDigit by decide).eq_false (isStop_of_isSeparator hsep)
    rw [List.nil_append, escape, if_neg (ne_of_isSeparator hsep (by decide)),
      if_neg (Bool.eq_false_iff.mp hoctal)] at h
    exact ⟨rfl, List.eq_nil_of_length_eq_zero (Nat.succ.inj h).symm⟩
  | cons c before =>
    have happend := escape_append c before (isStop_of_isSeparator hsep) after
    have hle := escape_le (c :: before)
    rw [← happend, h] at hle
    simp only [List.length_append, List.length_cons] at hle
    omega

theorem charEnd_whole (h : charEnd cs n = ⟨cs.length + 1, .ok kind⟩) :
    kind = .charLiteral ∧ cs = cs.take n ++ ['\x27'] ∧ (cs.take n).length = n := by
  obtain ⟨hlength, rfl, rest, hrest⟩ := charEnd_eq h
  have hpieces := List.take_append_drop n cs
  have hdrop := List.length_drop (i := n) (l := cs)
  rw [hrest, List.length_cons] at hdrop
  obtain rfl := List.eq_nil_of_length_eq_zero (l := rest) (by omega)
  rw [hrest] at hpieces
  exact ⟨rfl, hpieces.symm, by rw [List.length_take]; omega⟩

/-- What a character literal consists of: one character or one escape. -/
theorem charLiteral_eq (h : charLiteral cs = ⟨cs.length + 1, .ok kind⟩) :
    kind = .charLiteral ∧ ((∃ c, cs = [c, '\x27'] ∧ isLineBreak c = false) ∨
      ∃ code, cs = '\\' :: (code ++ ['\x27']) ∧ escape (code ++ ['\x27']) = code.length) := by
  cases cs with
  | nil => cases h
  | cons c cs =>
    rw [charLiteral] at h
    split at h
    · cases h
    · rename_i hbreak
      split at h
      · cases h
      · split at h
        · subst ‹c = '\\'›
          obtain ⟨rfl, hcs, hlength⟩ := charEnd_whole h
          rw [Nat.add_comm 1, List.take_succ_cons] at hcs hlength
          have hcode : cs = cs.take (escape cs) ++ ['\x27'] := (List.cons.inj hcs).2
          refine ⟨rfl, .inr ⟨cs.take (escape cs), congrArg _ hcode, ?_⟩⟩
          rw [← hcode]
          exact (Nat.succ.inj hlength).symm
        · obtain ⟨rfl, hcs, -⟩ := charEnd_whole h
          exact ⟨rfl, .inl ⟨c, hcs, Bool.eq_false_iff.mpr hbreak⟩⟩

/-! ### Forms of lexemes -/

/-- What a lexeme looks like: there is no separator in it, or it is quoted. -/
inductive Form : TokenKind → List Char → Prop where
  | solid {kind : TokenKind} {word : List Char} (hword : ∀ b ∈ word, isSeparator b = false) :
    Form kind word
  | string {body : List Char} (quoted : Quoted body) :
    Form .stringLiteral ('\x22' :: (body ++ ['\x22']))
  | char {c : Char} (hc : isLineBreak c = false) : Form .charLiteral ['\x27', c, '\x27']
  | escape {code : List Char} (hcode : escape (code ++ ['\x27']) = code.length) :
    Form .charLiteral ('\x27' :: '\\' :: (code ++ ['\x27']))
  | textBlock (ahead : List Char) : Form .textBlock (ahead ++ quotes)

theorem textBlock_form (h : textBlock cs = ⟨cs.length + 3, .ok kind⟩) :
    kind = .textBlock ∧ ∃ ahead, cs = ahead ++ quotes := by
  have hkind : (textBlock cs).kind = .ok kind := by rw [h]
  obtain ⟨blanks, body, rest, rfl, -, -, -, hlength⟩ := textBlock_eq hkind
  rw [h] at hlength
  simp only [List.length_append, quotes, List.length_cons, List.length_nil] at hlength
  obtain rfl := List.eq_nil_of_length_eq_zero (l := rest) (by omega)
  refine ⟨textBlock_kind hkind, blanks ++ body, ?_⟩
  rw [List.append_nil, List.append_assoc]

theorem Whole.form (h : Whole kind word) : Form kind word := by
  obtain ⟨c, cs, rfl, hlexeme⟩ := h
  cases lexeme_cases hlexeme with
  | number hstart hnumber =>
    have hnumeral := number_kind (by rw [hnumber])
    rw [hnumber] at hnumeral
    exact .solid fun b hb =>
      stops_numeral.not_isSeparator numeral_fits (by rw [hnumeral]) hb
  | symbol hstart hsymbol =>
    have hle (cs : List Char) : (symbol cs).elim 0 Prod.fst ≤ cs.length := by
      cases hcs : symbol cs with
      | none => exact Nat.zero_le _
      | some found => exact symbol_le hcs
    have hlength : (symbol (c :: cs)).elim 0 Prod.fst = (c :: cs).length := by
      rw [hsymbol]
      rfl
    exact .solid fun b hb =>
      @not_isSeparator_of_reads _ (c :: cs) b symbol (·.elim 0 Prod.fst)
        (fun cs _ hb => symbol_append cs hb) hle hlength hb
  | textBlock hc hcs hblock =>
    subst hc hcs
    obtain ⟨rfl, ahead, rfl⟩ := textBlock_form hblock
    exact .textBlock (quotes ++ ahead)
  | string hc hcs hstring =>
    subst hc
    obtain ⟨rfl, body, rfl, hbody⟩ := stringLiteral_eq hstring
    exact .string hbody
  | char hc hchar =>
    subst hc
    obtain ⟨rfl, ⟨c, rfl, hc⟩ | ⟨code, rfl, hcode⟩⟩ := charLiteral_eq hchar
    · exact .char hc
    · exact .escape hcode
  | word hc hname =>
    exact .solid fun b hb => stops_word.not_isSeparator word_le (by rw [hname]) hb

/-- No lexeme ends with a separator. -/
theorem Whole.getLast (h : Whole kind word) (hb : word.getLast? = some b) :
    isSeparator b = false := by
  cases h.form with
  | solid hword => exact hword b (List.mem_of_getLast? hb)
  | @string body =>
    rw [← List.cons_append, List.getLast?_concat] at hb
    exact Option.some.inj hb ▸ rfl
  | char hc => exact Option.some.inj hb ▸ rfl
  | @escape code =>
    rw [← List.cons_append, ← List.cons_append, List.getLast?_concat] at hb
    exact Option.some.inj hb ▸ rfl
  | textBlock ahead =>
    rw [List.getLast?_append] at hb
    exact Option.some.inj hb ▸ rfl

/-- A line break in an escape of a character is what the backslash takes along. -/
theorem escapedAt_char {code : List Char} (hcode : escape (code ++ ['\x27']) = code.length)
    (heq : '\x27' :: '\\' :: (code ++ ['\x27']) = before ++ b :: after)
    (hb : isLineBreak b = true) : EscapedAt .charLiteral before after := by
  rcases before with _ | ⟨d, _ | ⟨e, before⟩⟩
  · cases heq
    cases hb
  · cases heq
    cases hb
  · obtain ⟨rfl, hcons⟩ := List.cons.inj heq
    obtain ⟨rfl, -⟩ := List.cons.inj hcons
    have hcs : code ++ ['\x27'] = before ++ b :: after := (List.cons.inj hcons).2
    -- The closing quote is no line break, so it stands behind this one.
    rcases after.eq_nil_or_concat with rfl | ⟨after, last, rfl⟩
    · cases (List.append_inj' hcs rfl).2
      cases hb
    · rw [List.concat_eq_append] at hcs ⊢
      rw [← List.cons_append, ← List.append_assoc] at hcs
      obtain ⟨rfl, hlast⟩ := List.append_inj' hcs rfl
      rw [List.append_assoc, List.cons_append] at hcode
      obtain ⟨rfl, rfl⟩ := escape_break hcode hb
      cases hlast
      exact .char

/-- **A line break in a lexeme.** -/
theorem Whole.break (h : Whole kind word) (hkind : kind ≠ .textBlock)
    (heq : word = before ++ b :: after) (hb : isLineBreak b = true) :
    EscapedAt kind before after := by
  cases h.form with
  | solid hword =>
    have hsep := hword b (heq ▸ List.mem_append_right _ List.mem_cons_self)
    rw [isSeparator_of_isLineBreak hb] at hsep
    cases hsep
  | string quoted =>
    cases before with
    | nil =>
      cases heq
      cases hb
    | cons d before =>
      obtain ⟨rfl, hcs⟩ := List.cons.inj heq
      obtain ⟨ahead, rfl, hahead⟩ := quoted.break hcs hb
      exact .string hahead after
  | @char c hc =>
    have hmem : b ∈ ['\x27', c, '\x27'] := heq ▸ List.mem_append_right _ List.mem_cons_self
    simp only [List.mem_cons, List.not_mem_nil, or_false] at hmem
    rcases hmem with rfl | rfl | rfl
    · cases hb
    · rw [hc] at hb
      cases hb
    · cases hb
  | escape hcode => exact escapedAt_char hcode heq hb
  | textBlock => exact absurd rfl hkind

end Lexer

/-! ### Sources -/

section Sources

variable {source : String} {ts : List Token} {t : Token}

theorem textBlock_spansLines (h : tokenize source = .ok ts) (ht : t ∈ ts)
    (hkind : t.kind = .textBlock) : t.spansLines = true := by
  obtain ⟨blanks, body, hblock⟩ := tokenize_textBlock h ht hkind
  rw [Token.spansLines, hblock.text_eq]
  cases body with
  | nil => cases hblock.breaks
  | cons c body =>
    refine List.any_eq_true.mpr ⟨c, ?_, hblock.breaks⟩
    exact List.mem_append_right _ (List.mem_append_right _ List.mem_cons_self)

theorem escapedAt_of_break (h : tokenize source = .ok ts) (ht : t ∈ ts)
    (hkind : t.kind ≠ .textBlock) {before after : List Char} {b : Char}
    (htext : t.text.toList = before ++ b :: after) (hb : isLineBreak b = true) :
    EscapedAt t.kind before after := by
  by_cases heof : t.kind = .eof
  · rw [tokenize_eof h ht heof] at htext
    cases before <;> cases htext
  · exact (tokenize_whole h ht heof).break hkind htext hb

/-- **Where a token of a source has a line break.**  A text block always has one.  In any other
token each line break stands behind a backslash, between the quotes of a string or of a
character. -/
theorem tokenize_breaks (h : tokenize source = .ok ts) (ht : t ∈ ts) :
    (t.kind = .textBlock → t.spansLines = true) ∧
      (t.kind ≠ .textBlock → ∀ before b after, t.text.toList = before ++ b :: after →
        isLineBreak b = true → EscapedAt t.kind before after) :=
  ⟨textBlock_spansLines h ht, fun hkind _ _ _ htext hb => escapedAt_of_break h ht hkind htext hb⟩

/-- A string in which a backslash takes the end of a line along. -/
theorem tokenize_breaks_string : ∃ ts t,
    tokenize "f(\"a\\\nb\")" = .ok ts ∧ t ∈ ts ∧ t.text = "\"a\\\nb\"" ∧
    EscapedAt t.kind ['\x22', 'a', '\\'] ['b', '\x22'] := by
  have hread : ((tokenize "f(\"a\\\nb\")").toOption.bind (·[2]?)).map
      (fun t => (t.kind, t.text)) = some (.stringLiteral, "\"a\\\nb\"") := by decide +kernel
  obtain ⟨t, ht, htoken⟩ := Option.map_eq_some_iff.mp hread
  obtain ⟨hkind, htext⟩ := Prod.mk.inj htoken
  obtain ⟨ts, hts, hmem⟩ := Option.bind_eq_some_iff.mp ht
  cases h : tokenize "f(\"a\\\nb\")" with
  | error fault =>
    rw [h] at hts
    cases hts
  | ok us =>
    rw [h] at hts
    obtain rfl := Option.some.inj hts
    have hne : t.kind ≠ .textBlock := by
      rw [hkind]
      nofun
    have hmem := List.mem_of_getElem? hmem
    exact ⟨us, t, rfl, hmem, htext,
      (tokenize_breaks h hmem).2 hne _ '\n' _ (by rw [htext]; rfl) rfl⟩

/-- **A backslash takes the end of a line along.**  Neither the string nor the character ends in the
line where it starts. -/
theorem backslash_spansLines :
    (tokenize "\"a\\\nb\"").toOption.map (List.map fun t => (t.kind, t.spansLines)) =
      some [(.stringLiteral, true), (.eof, false)] ∧
    (tokenize "'\\\x0d'").toOption.map (List.map fun t => (t.kind, t.spansLines)) =
      some [(.charLiteral, true), (.eof, false)] := by
  decide +kernel

end Sources

end JavaSource
