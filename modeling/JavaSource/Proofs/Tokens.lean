import JavaSource.Token.Lexer

/-!
# Tokens as they are found in a text

A token of a kind with one spelling is written that way and takes just the characters of the
spelling (`lexeme_spells`); a lexeme takes at least one character (`lexeme_pos`).  The lexer finds
neither the end of the text nor a shift in the text: `eof` comes once, behind all other tokens, and
`>>` and `>>>` come as single `>`.

* `tokenize_found`: every token of a source stands where its place says, is spelled as its kind
  is, and the last one and no other is `eof`.
* `placeOf_succ`: behind a character that ends no line, the place is one column further on.
-/

namespace JavaSource

/-- A kind that a lexer finds in a text. -/
def TokenKind.IsScanned (k : TokenKind) : Prop := k ≠ .eof ∧ k ≠ .rshift ∧ k ≠ .urshift

namespace Lexer

open Text

/-! ### Numbers -/

theorem integerSuffix_kind (cs : List Char) : (integerSuffix cs).2 = some .integerLiteral := by
  unfold integerSuffix; split <;> rfl

theorem past_snd {α : Type} (n : Nat) (r : Nat × α) : (past n r).2 = r.2 := rfl

/-- What a numeral can be. -/
def IsNumberKind (k : Option TokenKind) : Prop :=
  k = none ∨ k = some .integerLiteral ∨ k = some .floatingLiteral

theorem binaryNumeral_kind (cs : List Char) : IsNumberKind (binaryNumeral cs).2 := by
  unfold binaryNumeral
  dsimp only
  split
  · exact .inl rfl
  · rw [past_snd, integerSuffix_kind]; exact .inr (.inl rfl)

theorem hexTail_kind (dotted : Bool) (cs : List Char) : IsNumberKind (hexTail dotted cs).2 := by
  unfold hexTail
  split
  · exact .inl rfl
  · split
    · exact .inl rfl
    · rw [integerSuffix_kind]; exact .inr (.inl rfl)
  · exact .inr (.inr rfl)

theorem hexNumeral_kind (cs : List Char) : IsNumberKind (hexNumeral cs).2 := by
  unfold hexNumeral
  dsimp only
  rw [past_snd]
  split
  · exact .inl rfl
  · split
    · rw [past_snd]
      split
      · exact .inl rfl
      · exact hexTail_kind _ _
    · split
      · exact .inl rfl
      · exact hexTail_kind _ _

theorem decimalTail_kind (dotted : Bool) (cs : List Char) :
    IsNumberKind (decimalTail dotted cs).2 := by
  unfold decimalTail
  split
  · exact .inl rfl
  · dsimp only
    rw [past_snd]
    split
    · exact .inr (.inr rfl)
    · rw [integerSuffix_kind]; exact .inr (.inl rfl)

theorem decimalNumeral_kind (cs : List Char) : IsNumberKind (decimalNumeral cs).2 := by
  unfold decimalNumeral
  dsimp only
  rw [past_snd]
  split
  · exact .inl rfl
  · split
    · split
      · exact decimalTail_kind _ _
      · rw [past_snd]
        split
        · exact .inl rfl
        · exact decimalTail_kind _ _
    · exact decimalTail_kind _ _

theorem numeral_kind (cs : List Char) : IsNumberKind (numeral cs).2 := by
  unfold numeral
  split
  · exact hexNumeral_kind _
  · exact hexNumeral_kind _
  · exact binaryNumeral_kind _
  · exact binaryNumeral_kind _
  · exact decimalNumeral_kind _

/-! ### The spelling of a lexeme -/

/-- A lexeme of some kind at the start of a text, written as the kind is spelled if it has one
spelling. -/
def Spells (cs : List Char) (n : Nat) (k : TokenKind) : Prop :=
  k.IsScanned ∧ ∀ w, k.text? = some w → w.toList <+: cs ∧ w.toList.length = n

theorem symbol_spells {cs : List Char} {n : Nat} {k : TokenKind} (h : symbol cs = some (n, k)) :
    Spells cs n k := by
  unfold symbol at h
  split at h <;> simp only [Option.some.injEq, Prod.mk.injEq, reduceCtorEq] at h <;>
    obtain ⟨rfl, rfl⟩ := h <;>
    exact ⟨by simp [TokenKind.IsScanned], fun w hw => Option.some.inj hw ▸ ⟨⟨_, rfl⟩, rfl⟩⟩

theorem keyword_spelled {w : String} {k : TokenKind} (h : TokenKind.keyword? w = some k) :
    k.IsScanned ∧ k.text? = some w := by
  unfold TokenKind.keyword? at h
  have hw := List.find?_some h
  have hm := List.mem_of_find?_eq_some h
  refine ⟨?_, by simpa using hw⟩
  revert hm
  simp only [TokenKind.keywords, TokenKind.IsScanned]
  clear h hw
  intro hm
  refine ⟨?_, ?_, ?_⟩ <;> rintro rfl <;> revert hm <;> decide

theorem word_spells {cs : List Char} {k : TokenKind} (h : (word cs).kind = .ok k) :
    Spells cs (word cs).length k := by
  obtain ⟨rest, hrest⟩ := List.takeWhile_prefix (l := cs) isNamePart
  have hdrop : (cs.takeWhile isNamePart ++ rest).drop (cs.takeWhile isNamePart).length = rest :=
    List.drop_left
  rw [hrest] at hdrop
  unfold word at h ⊢
  dsimp only at h ⊢
  rw [hdrop] at h ⊢
  split at h
  · rename_i hc
    rw [if_pos hc]
    obtain rfl := Except.ok.inj h
    simp only [Bool.and_eq_true, beq_iff_eq] at hc
    obtain ⟨⟨hn, hp⟩, -⟩ := hc
    obtain ⟨tail, ht⟩ := List.isPrefixOf_iff_prefix.mp hp
    refine ⟨by simp [TokenKind.IsScanned], fun w hw => ?_⟩
    obtain rfl := Option.some.inj hw
    refine ⟨⟨tail, ?_⟩, ?_⟩
    · rw [← hrest, hn, ← ht]; rfl
    · rw [hn]; rfl
  · rename_i hc
    rw [if_neg hc]
    cases hk : TokenKind.keyword? (String.ofList (cs.takeWhile isNamePart)) with
    | none =>
      rw [hk, Option.getD_none, Except.ok.injEq] at h
      subst h
      exact ⟨by simp [TokenKind.IsScanned], fun w hw => by cases hw⟩
    | some k' =>
      rw [hk, Option.getD_some, Except.ok.injEq] at h
      subst h
      obtain ⟨hs, ht⟩ := keyword_spelled hk
      refine ⟨hs, fun w hw => ?_⟩
      obtain rfl := Option.some.inj (ht.symm.trans hw)
      rw [String.toList_ofList]
      exact ⟨⟨rest, hrest⟩, rfl⟩

theorem literal_spells {cs : List Char} {n : Nat} {k : TokenKind}
    (hk : k = .integerLiteral ∨ k = .floatingLiteral ∨ k = .stringLiteral ∨ k = .charLiteral
      ∨ k = .textBlock) : Spells cs n k := by
  rcases hk with rfl | rfl | rfl | rfl | rfl <;>
    exact ⟨by simp [TokenKind.IsScanned], fun w hw => by cases hw⟩

theorem charEnd_kind {cs : List Char} {n : Nat} {k : TokenKind}
    (h : (charEnd cs n).kind = .ok k) : k = .charLiteral := by
  unfold charEnd at h
  split at h
  · cases h
  · split at h
    · exact (Except.ok.inj h).symm
    · split at h <;> cases h

theorem charLiteral_kind {cs : List Char} {k : TokenKind} (h : (charLiteral cs).kind = .ok k) :
    k = .charLiteral := by
  unfold charLiteral at h
  split at h
  · cases h
  · split at h
    · cases h
    · split at h
      · cases h
      · split at h <;> exact charEnd_kind h

/-- A symbol has one spelling. -/
theorem symbol_isSome_text? {cs : List Char} {n : Nat} {k : TokenKind}
    (h : symbol cs = some (n, k)) : k.text?.isSome := by
  unfold symbol at h
  split at h <;> cases h <;> rfl

/-- A word has one spelling, unless it is a name. -/
theorem word_isSome_text? {cs : List Char} {k : TokenKind} (h : (word cs).kind = .ok k) :
    k = .identifier ∨ k.text?.isSome := by
  unfold word at h
  dsimp only at h
  split at h
  · exact .inr (Except.ok.inj h ▸ rfl)
  · cases hk : TokenKind.keyword? (String.ofList (cs.takeWhile isNamePart)) with
    | none =>
      rw [hk, Option.getD_none, Except.ok.injEq] at h
      exact .inl h.symm
    | some k' =>
      rw [hk, Option.getD_some, Except.ok.injEq] at h
      subst h
      rw [(keyword_spelled hk).2]
      exact .inr rfl

theorem stringLiteral_kind {cs : List Char} {k : TokenKind}
    (h : (stringLiteral cs).kind = .ok k) : k = .stringLiteral := by
  unfold stringLiteral at h
  split at h
  · exact (Except.ok.inj h).symm
  · cases h

theorem textBlock_kind {cs : List Char} {k : TokenKind} (h : (textBlock cs).kind = .ok k) :
    k = .textBlock := by
  unfold textBlock at h
  dsimp only at h
  split at h
  · split at h
    · exact (Except.ok.inj h).symm
    · cases h
  · cases h

theorem number_kind {cs : List Char} {k : TokenKind} (h : (number cs).kind = .ok k) :
    numeral cs = ((number cs).length, some k) := by
  unfold number at h ⊢
  split at h
  · rename_i hn
    rw [hn, ← Except.ok.inj h]
  · cases h

/-- **A lexeme is spelled as its kind is.** -/
theorem lexeme_spells {c : Char} {cs : List Char} {k : TokenKind}
    (h : (lexeme c cs).kind = .ok k) : Spells (c :: cs) (lexeme c cs).length k := by
  unfold lexeme at h ⊢
  split at h
  · refine literal_spells ?_
    have hk := numeral_kind (c :: cs)
    rw [number_kind h] at hk
    rcases hk with hk | hk | hk <;> cases hk
    · exact .inl rfl
    · exact .inr (.inl rfl)
  · rename_i hc
    rw [if_neg hc]
    split at h
    · rename_i hs
      obtain rfl := Except.ok.inj h
      exact symbol_spells hs
    · split at h
      · refine literal_spells ?_
        split at h
        · exact .inr (.inr (.inr (.inr (textBlock_kind h))))
        · exact .inr (.inr (.inl (stringLiteral_kind h)))
      · rename_i hq
        split at h
        · exact literal_spells (.inr (.inr (.inr (.inl (charLiteral_kind h)))))
        · rename_i hq'
          split at h
          · rename_i hn
            rw [if_neg hq, if_neg hq', if_pos hn]
            exact word_spells h
          · cases h

/-! ### The length of a lexeme -/

theorem decimalNumeral_pos {c : Char} {cs : List Char}
    (h : isDecimalDigit c ∨ c = '.') : 0 < (decimalNumeral (c :: cs)).1 := by
  unfold decimalNumeral
  rcases h with h | rfl
  · have : digitRun isDecimalDigit (c :: cs) ≠ [] := by simp [digitRun, h]
    have := List.length_pos_iff.mpr this
    simp only [past]
    omega
  · have : digitRun isDecimalDigit ('.' :: cs) = [] := by simp [digitRun, isDecimalDigit]
    simp only [this, List.length_nil, List.drop_zero, isRagged, List.getLast?_nil]
    rw [if_neg (by decide), if_neg (by simp)]
    simp only [past]
    omega

theorem numeral_pos {c : Char} {cs : List Char} (h : isDecimalDigit c ∨ c = '.') :
    0 < (numeral (c :: cs)).1 := by
  unfold numeral
  split
  · simp only [past]; omega
  · simp only [past]; omega
  · simp only [past]; omega
  · simp only [past]; omega
  · exact decimalNumeral_pos h

theorem symbol_pos {cs : List Char} {n : Nat} {k : TokenKind} (h : symbol cs = some (n, k)) :
    0 < n := by
  unfold symbol at h
  split at h <;> simp only [Option.some.injEq, Prod.mk.injEq, reduceCtorEq] at h <;> omega

theorem charEnd_pos (cs : List Char) (n : Nat) : 0 < (charEnd cs n).length := by
  unfold charEnd
  split
  · exact Nat.succ_pos _
  · split
    · exact Nat.succ_pos _
    · split <;> exact Nat.succ_pos _

theorem charLiteral_pos (cs : List Char) : 0 < (charLiteral cs).length := by
  unfold charLiteral
  split
  · exact Nat.one_pos
  · split
    · exact Nat.one_pos
    · split
      · exact Nat.one_pos
      · split <;> exact charEnd_pos _ _

theorem isNamePart_of_isNameStart {c : Char} (h : isNameStart c) : isNamePart c := by
  simp only [isNameStart, isNamePart, Char.isAlphanum, Bool.or_eq_true, Bool.and_eq_true] at h ⊢
  rcases h with ((h | h) | h) | h
  · exact .inl (.inl (.inl h))
  · exact .inl (.inl (.inr h))
  · exact .inl (.inr (.inl h))
  · exact .inr ⟨h.1, .inl h.2⟩

theorem word_pos {c : Char} {cs : List Char} (h : isNameStart c) :
    0 < (word (c :: cs)).length := by
  have hname : 0 < ((c :: cs).takeWhile isNamePart).length := by
    rw [List.takeWhile_cons_of_pos (isNamePart_of_isNameStart h)]
    exact Nat.succ_pos _
  unfold word
  dsimp only
  split
  · exact Nat.lt_of_lt_of_le hname (Nat.le_add_right _ _)
  · exact hname

/-- A lexeme takes at least one character. -/
theorem lexeme_pos {c : Char} {cs : List Char} {k : TokenKind} (h : (lexeme c cs).kind = .ok k) :
    0 < (lexeme c cs).length := by
  unfold lexeme at h ⊢
  split
  · rename_i hc
    have hn : 0 < (numeral (c :: cs)).1 := numeral_pos <| by
      simp only [Bool.or_eq_true, Bool.and_eq_true, beq_iff_eq] at hc
      exact hc.imp_right And.left
    unfold number
    split <;> simp_all
  · split
    · rename_i hs
      exact symbol_pos hs
    · split
      · split
        · unfold textBlock
          dsimp only
          split
          · split <;> simp
          · simp
        · unfold stringLiteral
          split <;> simp
      · split
        · exact charLiteral_pos _
        · split
          · exact word_pos ‹_›
          · simp_all

/-! ### One reading -/

/-- What one reading can do: it meets a comment that is never closed, finds the end of the text or a
fault, or takes a token. -/
inductive Step (lexer : Lexer) : Except Fault Token → Lexer → Prop where
  | unclosed {n opened : Nat} (hgap : gap lexer.rest = ⟨n, some opened⟩) :
    Step lexer (.error ⟨lexer.lines.placeOf (lexer.offset + opened), .unterminatedComment⟩)
      (lexer.advance n)
  | finish {n : Nat} (hgap : gap lexer.rest = ⟨n, none⟩) (hrest : lexer.rest.drop n = []) :
    Step lexer (.ok ⟨.eof, "", lexer.lines.placeOf (lexer.offset + n),
      ⟨lexer.offset + n, lexer.offset + n⟩⟩) (lexer.advance n)
  | fault {n len : Nat} {c : Char} {cs : List Char} {cause : Cause}
    (hgap : gap lexer.rest = ⟨n, none⟩) (hrest : lexer.rest.drop n = c :: cs)
    (hlexeme : lexeme c cs = ⟨len, .error cause⟩) :
    Step lexer (.error ⟨lexer.lines.placeOf (lexer.offset + n), cause⟩)
      ((lexer.advance n).advance len)
  | token {n len : Nat} {c : Char} {cs : List Char} {kind : TokenKind}
    (hgap : gap lexer.rest = ⟨n, none⟩) (hrest : lexer.rest.drop n = c :: cs)
    (hlexeme : lexeme c cs = ⟨len, .ok kind⟩) :
    Step lexer (.ok ⟨kind, String.ofList ((c :: cs).take len),
      lexer.lines.placeOf (lexer.offset + n), ⟨lexer.offset + n, lexer.offset + n + len⟩⟩)
      ((lexer.advance n).advance len)

theorem step_of_next {lexer behind : Lexer} {result : Except Fault Token}
    (h : lexer.next = (result, behind)) : lexer.Step result behind := by
  unfold next at h
  split at h
  · rename_i hgap
    cases h
    exact .unclosed hgap
  · rename_i n hgap
    dsimp only at h
    split at h
    · rename_i hrest
      cases h
      exact .finish hgap hrest
    · rename_i c cs hrest
      have hdrop : lexer.rest.drop n = c :: cs := hrest
      split at h
      · rename_i cause hcause
        cases h
        exact .fault hgap hdrop (by rw [← hcause])
      · rename_i kind hkind
        -- A lexeme has a first character, which stands in front of what is dropped.
        obtain ⟨m, hm⟩ := Nat.exists_eq_succ_of_ne_zero (Nat.ne_of_gt (lexeme_pos hkind))
        have hbehind : (lexer.rest.drop n).drop (lexeme c cs).length =
            cs.drop ((lexeme c cs).length - 1) := by
          rw [hdrop, hm, List.drop_succ_cons, Nat.succ_sub_one]
        have hlexeme : lexeme c cs = ⟨(lexeme c cs).length, .ok kind⟩ := by rw [← hkind]
        have hstep := Step.token hgap hdrop hlexeme
        cases h
        rw [advance, advance, hbehind] at hstep
        exact hstep

/-! ### Tokens in a text -/

/-- A lexer that stands somewhere in a text. -/
def In (text : List Char) (lexer : Lexer) : Prop :=
  lexer.lines = .ofText text ∧ lexer.rest = text.drop lexer.offset

theorem ofText_in (text : List Char) : (ofText text).In text := ⟨rfl, rfl⟩

theorem In.advance {text : List Char} {lexer : Lexer} (h : lexer.In text) (n : Nat) :
    (lexer.advance n).In text :=
  ⟨h.1, by rw [Lexer.advance, h.2, List.drop_drop]⟩

end Lexer

/-- A token as it is found in a text. -/
structure Token.FoundIn (text : List Char) (t : Token) : Prop where
  place : t.place = (Text.Lines.ofText text).placeOf t.range.start
  scanned : t.kind ≠ .eof → t.kind.IsScanned
  spelled : t.kind ≠ .eof → ∀ w, t.kind.text? = some w →
    t.text = w ∧ t.range.stop = t.range.start + w.toList.length
      ∧ w.toList <+: text.drop t.range.start

namespace Lexer

/-- The next token is found where the lexer stands, and the lexer then stands behind it. -/
theorem next_found {text : List Char} {lexer behind : Lexer} {t : Token}
    (hin : lexer.In text) (h : lexer.next = (.ok t, behind)) :
    t.FoundIn text ∧ (t.kind ≠ .eof → behind.In text) := by
  cases step_of_next h with
  | finish =>
    exact ⟨⟨by rw [hin.1], fun he => absurd rfl he, fun he => absurd rfl he⟩,
      fun he => absurd rfl he⟩
  | @token n len c cs kind hgap hrest hlexeme =>
    have hspells : Spells (c :: cs) len kind := by
      have hspells := @lexeme_spells c cs kind (by rw [hlexeme])
      rwa [hlexeme] at hspells
    obtain ⟨hscanned, hspelled⟩ := hspells
    refine ⟨⟨by rw [hin.1], fun _ => hscanned, fun _ w hw => ?_⟩,
      fun _ => (hin.advance n).advance len⟩
    obtain ⟨hstart, hlength⟩ := hspelled w hw
    refine ⟨?_, by rw [hlength], ?_⟩
    · rw [← hlength, ← List.prefix_iff_eq_take.mp hstart, String.ofList_toList]
    · rw [← List.drop_drop, ← hin.2, hrest]
      exact hstart

/-- The tokens from a place in a text on: found there, with one `eof` at the end. -/
theorem tokens_found {text : List Char} (lexer : Lexer) {ts : List Token} (hin : lexer.In text)
    (h : lexer.tokens = .ok ts) :
    (∀ t ∈ ts, t.FoundIn text) ∧
      ∃ init last, ts = init ++ [last] ∧ last.kind = .eof ∧ ∀ t ∈ init, t.kind ≠ .eof := by
  fun_induction tokens lexer generalizing ts with
  | case1 lexer fault behind hn => cases h
  | case2 lexer t behind hn he =>
    obtain rfl := Except.ok.inj h
    refine ⟨fun u hu => ?_, [], t, rfl, he, fun u hu => by cases hu⟩
    rw [List.mem_singleton.mp hu]
    exact (next_found hin hn).1
  | case3 => cases h
  | case4 lexer t behind hn he us hus ih =>
    obtain rfl := Except.ok.inj h
    obtain ⟨hf, hb⟩ := next_found hin hn
    obtain ⟨hall, init, last, rfl, hlast, hinit⟩ := ih (hb he) hus
    refine ⟨fun u hu => ?_, t :: init, last, rfl, hlast, fun u hu => ?_⟩
    · rcases List.mem_cons.mp hu with rfl | hu
      · exact hf
      · exact hall u hu
    · rcases List.mem_cons.mp hu with rfl | hu
      · exact he
      · exact hinit u hu

end Lexer

/-- **The tokens of a source.** -/
theorem tokenize_found {source : String} {ts : List Token} (h : tokenize source = .ok ts) :
    (∀ t ∈ ts, t.FoundIn source.toList) ∧
      ∃ init last, ts = init ++ [last] ∧ last.kind = .eof ∧ ∀ t ∈ init, t.kind ≠ .eof :=
  Lexer.tokens_found _ (Lexer.ofText_in _) h

/-! ### Places -/

namespace Text

/-- A line starts behind a character that ends one. -/
theorem mem_lineStarts {text : List Char} {offset start : Nat}
    (h : start ∈ lineStarts offset text) :
    offset < start ∧ ∀ c, text[start - offset - 1]? = some c → c = '\r' ∨ c = '\n' := by
  fun_induction lineStarts offset text with
  | case1 => cases h
  | case2 offset cs ih =>
    rcases List.mem_cons.mp h with rfl | h
    · exact ⟨by omega, fun c hc => .inr (by simpa using hc.symm)⟩
    · obtain ⟨hlt, hc⟩ := ih h
      refine ⟨by omega, fun c h' => hc c ?_⟩
      rw [← h', show start - offset - 1 = (start - (offset + 2) - 1) + 1 + 1 by omega]
      rfl
  | case3 offset cs _ ih =>
    rcases List.mem_cons.mp h with rfl | h
    · exact ⟨by omega, fun c hc => .inl (by simpa using hc.symm)⟩
    · obtain ⟨hlt, hc⟩ := ih h
      refine ⟨by omega, fun c h' => hc c ?_⟩
      rw [← h', show start - offset - 1 = (start - (offset + 1) - 1) + 1 by omega]
      rfl
  | case4 offset cs ih =>
    rcases List.mem_cons.mp h with rfl | h
    · exact ⟨by omega, fun c hc => .inr (by simpa using hc.symm)⟩
    · obtain ⟨hlt, hc⟩ := ih h
      refine ⟨by omega, fun c h' => hc c ?_⟩
      rw [← h', show start - offset - 1 = (start - (offset + 1) - 1) + 1 by omega]
      rfl
  | case5 offset c cs _ _ _ ih =>
    obtain ⟨hlt, hc⟩ := ih h
    refine ⟨by omega, fun d h' => hc d ?_⟩
    rw [← h', show start - offset - 1 = (start - (offset + 1) - 1) + 1 by omega]
    rfl

theorem takeWhile_congr {α : Type} {p q : α → Bool} {l : List α} (h : ∀ x ∈ l, p x = q x) :
    l.takeWhile p = l.takeWhile q := by
  induction l with
  | nil => rfl
  | cons x xs ih =>
    have hx := h x List.mem_cons_self
    have hxs := ih fun y hy => h y (List.mem_cons_of_mem _ hy)
    simp only [List.takeWhile_cons, hx, hxs]

/-- The line of an offset starts at or before it. -/
theorem startOf_lineOf_le (text : List Char) (offset : Nat) :
    (Lines.ofText text).startOf ((Lines.ofText text).lineOf offset) ≤ offset := by
  have hpos : 0 < ((Lines.ofText text).starts.takeWhile (· ≤ offset)).length := by
    rw [Lines.ofText, List.takeWhile_cons_of_pos (by simp)]
    exact Nat.succ_pos _
  have hlast : (Lines.ofText text).lineOf offset
      < ((Lines.ofText text).starts.takeWhile (· ≤ offset)).length := Nat.sub_one_lt_of_lt hpos
  have hmem := List.all_eq_true.mp (List.all_takeWhile (p := fun s => decide (s ≤ offset)))
    _ (List.getElem_mem hlast)
  rw [List.IsPrefix.getElem (List.takeWhile_prefix _) hlast] at hmem
  have hlt := Nat.lt_of_lt_of_le hlast (List.takeWhile_prefix _).length_le
  rw [Lines.startOf, List.getElem?_eq_getElem hlt, Option.getD_some]
  exact of_decide_eq_true hmem

/-- Behind a character that ends no line, the place is one column further on. -/
theorem placeOf_succ {text : List Char} {offset : Nat} {c : Char} (hc : text[offset]? = some c)
    (hr : c ≠ '\r') (hn : c ≠ '\n') :
    (Lines.ofText text).placeOf (offset + 1)
      = ⟨((Lines.ofText text).placeOf offset).line,
          ((Lines.ofText text).placeOf offset).column + 1⟩ := by
  have hline : (Lines.ofText text).lineOf (offset + 1) = (Lines.ofText text).lineOf offset := by
    unfold Lines.lineOf
    congr 2
    refine takeWhile_congr fun start hs => ?_
    have hne : start ≠ offset + 1 := by
      rintro rfl
      rcases List.mem_cons.mp hs with h | h
      · omega
      · rcases (mem_lineStarts h).2 c (by simpa using hc) with rfl | rfl
        · exact hr rfl
        · exact hn rfl
    rw [decide_eq_decide]
    omega
  have hstart := startOf_lineOf_le text offset
  simp only [Lines.placeOf, hline, Place.mk.injEq, true_and]
  omega

end Text

end JavaSource
