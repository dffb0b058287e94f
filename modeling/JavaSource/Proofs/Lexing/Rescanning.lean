import JavaSource.Proofs.Lexing.Lexemes

/-!
# Tokens scanned again

The texts of the tokens of a source, with single blanks between them, make a text with the same
tokens.  Each of them is a lexeme by itself, a blank ends it, and neither a gap nor a comment starts
with it.

* `Whole.lexes`: a lexeme in front of a text with a separator at its start.
* `tokenize_spaced`: the tokens of a source are there again, in their kinds and texts.
-/

namespace JavaSource

open Grammar (Symbol)
open Lexer (Whole lexeme gap isSeparator lexeme_append lexeme_spells)

namespace Lexer.Whole

variable {word rest : List Char} {ss : List Symbol} {kind : TokenKind}

theorem isScanned (h : Whole kind word) : kind.IsScanned := by
  obtain ⟨c, cs, -, hlexeme⟩ := h
  exact (@lexeme_spells c cs kind (by rw [hlexeme])).1

/-- A lexeme is no separator. -/
theorem not_isSeparator {c : Char} {cs : List Char} {len : Nat}
    (h : lexeme c cs = ⟨len, .ok kind⟩) : isSeparator c = false := by
  refine Bool.eq_false_iff.mpr fun hc => ?_
  rcases eq_of_isSeparator hc with rfl | rfl | rfl | rfl | rfl <;> cases h

/-- No comment starts with a lexeme and a separator behind it. -/
theorem gap_append (h : Whole kind word) (hends : rest.head?.all isSeparator = true) :
    gap (word ++ rest) = ⟨0, none⟩ := by
  obtain ⟨c, cs, rfl, hlexeme⟩ := h
  refine Lexes.gap_cons (not_isSeparator hlexeme) fun hslash d hd => ?_
  subst hslash
  cases cs with
  | nil =>
    have hhead : rest.head? = some d := hd
    rw [hhead] at hends
    exact ⟨ne_of_isSeparator hends (by decide), ne_of_isSeparator hends (by decide)⟩
  | cons e cs =>
    obtain rfl : e = d := Option.some.inj hd
    -- Otherwise the slash would be the whole lexeme.
    constructor <;> rintro rfl <;> cases hlexeme

/-- **A lexeme in front of a text with a separator at its start.** -/
theorem lexes (h : Whole kind word) (hends : rest.head?.all isSeparator = true)
    (hrest : Lexes rest ss) :
    Lexes (word ++ rest) (⟨kind, String.ofList word, touchesNext kind rest ss⟩ :: ss) := by
  have hgap := h.gap_append hends
  have heof := h.isScanned.1
  obtain ⟨c, cs, rfl, hlexeme⟩ := h
  have hlexeme' : lexeme c (cs ++ rest) = ⟨cs.length + 1, .ok kind⟩ := by
    cases rest with
    | nil => rwa [List.append_nil]
    | cons b rest => exact lexeme_append hlexeme hends rest
  exact hrest.word hgap hlexeme' heof

end Lexer.Whole

/-! ### Sources -/

/-- The texts of some tokens with single blanks between them. -/
def spaced (ts : List Token) : String := " ".intercalate (ts.map Token.text)

theorem lexes_spaced {ts : List Token} (h : ∀ t ∈ ts, Whole t.kind t.text.toList) :
    ∃ ss : List Symbol, Lexes (spaced ts).toList ss ∧
      ss.map Symbol.token = ts.map Token.unplaced := by
  rw [spaced, String.toList_intercalate, List.map_map]
  induction ts with
  | nil => exact ⟨[], .nil, rfl⟩
  | cons t ts ih =>
    obtain ⟨ht, hts⟩ := List.forall_mem_cons.mp h
    obtain ⟨ss, hlexes, hss⟩ := ih hts
    have htoken (touches : Bool) :
        Symbol.token ⟨t.kind, String.ofList t.text.toList, touches⟩ = t.unplaced := by
      rw [String.ofList_toList]
      rfl
    cases ts with
    | nil =>
      have hword := ht.lexes rfl .nil
      rw [List.append_nil] at hword
      rw [List.map_singleton, List.intercalate_singleton, List.map_singleton,
        ← htoken (touchesNext t.kind [] [])]
      exact ⟨_, hword, rfl⟩
    | cons u ts =>
      have hword := ht.lexes rfl hlexes.blank
      rw [List.map_cons, List.map_cons, List.intercalate_cons_cons, List.append_assoc]
      rw [List.map_cons] at hss
      rw [List.map_cons, List.map_cons, ← hss, ← htoken]
      exact ⟨_, hword, rfl⟩

/-- The tokens of a source ahead of the end. -/
theorem filter_ne_eof {source : String} {ts : List Token} (h : tokenize source = .ok ts) :
    ∃ last, ts = ts.filter (·.kind ≠ .eof) ++ [last] ∧ last.unplaced = Symbol.final.token := by
  obtain ⟨-, init, last, rfl, hlast, hinit⟩ := tokenize_found h
  have htext := tokenize_eof h (List.mem_append_right _ List.mem_cons_self) hlast
  have hfilter : (init ++ [last]).filter (·.kind ≠ .eof) = init := by
    rw [List.filter_append, List.filter_eq_self.mpr fun t ht => decide_eq_true (hinit t ht),
      List.filter_cons_of_neg (by rw [hlast]; nofun), List.filter_nil, List.append_nil]
  refine ⟨last, by rw [hfilter], ?_⟩
  rw [Token.unplaced, hlast, htext]
  rfl

/-- **The tokens of a source are there again where single blanks stand between them.** -/
theorem tokenize_spaced {source : String} {ts : List Token} (h : tokenize source = .ok ts) :
    ∃ ts', tokenize (spaced (ts.filter (·.kind ≠ .eof))) = .ok ts' ∧
      ts'.map Token.unplaced = ts.map Token.unplaced := by
  obtain ⟨last, hts, hlast⟩ := filter_ne_eof h
  obtain ⟨ss, hlexes, hss⟩ := @lexes_spaced (ts.filter (·.kind ≠ .eof)) fun t ht => by
    obtain ⟨hmem, hkind⟩ := List.mem_filter.mp ht
    exact tokenize_whole h hmem (of_decide_eq_true hkind)
  obtain ⟨t, ts', htokens, -, hunplaced, -⟩ :=
    hlexes.tokens (.ofText (spaced (ts.filter (·.kind ≠ .eof))).toList) 0
  have hunplaced' : ts.map Token.unplaced = (ss ++ [Symbol.final]).map Symbol.token := by
    rw [hts, List.map_append, List.map_append, hss, List.map_singleton, hlast, List.map_singleton]
  exact ⟨t :: ts', htokens, hunplaced.trans hunplaced'.symm⟩

/-- Neighbours that touch, a number ahead of two dots, a joined word, escapes and a text block. -/
theorem tokenize_spaced_touching : ∃ ts ts',
    tokenize "a>>=1..b non-sealed-.5e1f'\\u0041'\"\\\"\"\"\"\"\n\\\"\"\"\"/**/>>" = .ok ts ∧
    ts.length = 15 ∧ tokenize (spaced (ts.filter (·.kind ≠ .eof))) = .ok ts' ∧
    ts'.map Token.unplaced = ts.map Token.unplaced := by
  generalize hsource :
    "a>>=1..b non-sealed-.5e1f'\\u0041'\"\\\"\"\"\"\"\n\\\"\"\"\"/**/>>" = source
  have hlength : (tokenize source).toOption.map List.length = some 15 := by
    rw [← hsource]
    decide +kernel
  cases h : tokenize source with
  | error fault =>
    rw [h] at hlength
    cases hlength
  | ok ts =>
    rw [h] at hlength
    obtain ⟨ts', hts', hunplaced⟩ := tokenize_spaced h
    exact ⟨ts, ts', rfl, Option.some.inj hlength, hts', hunplaced⟩

end JavaSource
