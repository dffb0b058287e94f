import JavaSource.Proofs.Operators.Scanned
import JavaSource.Proofs.Types.Tree

/-!
# The text of a type

The text of a type tree lexes to its symbols (`TypeTree.lexes`), and a `>` at its end touches what
follows if that is a `>`.  What follows must not make another token of the `>` (`EndsAngle`).
-/

namespace JavaSource

open Grammar (Symbol)
open Lexer (gap lexeme)
open Text (isNameStart isNamePart)

/-- Such a rest goes on neither with a word nor with a `>`. -/
structure EndsAngle (rest : List Char) : Prop where
  word : EndsName rest
  sign : Lexer.symbol ('>' :: rest) = some (1, .gt)

namespace EndsAngle

variable {rest : List Char} {c : Char}

theorem cons (hpart : isNamePart c = false) (hdash : c ≠ '-') (hassign : c ≠ '=') (hgt : c ≠ '>')
    (cs : List Char) : EndsAngle (c :: cs) where
  word := .cons hpart hdash cs
  sign := by
    rw [Lexer.symbol]
    all_goals
      rintro _ ⟨⟩
      first | exact hassign rfl | exact hgt rfl

/-- A `>` does not make another token of the one in front of it. -/
theorem gt (h : EndsAngle rest) : EndsAngle ('>' :: rest) where
  word := .cons rfl (by decide) rest
  sign := by
    have hsign := h.sign
    rw [Lexer.symbol]
    · rintro cs ⟨⟩
      cases hsign
    · rintro cs ⟨⟩
      cases hsign
    · rintro cs ⟨⟩

end EndsAngle

theorem touchesNext_of_head {ss : List Symbol} (h : ss.head?.any (·.kind == .gt) = false)
    (rest : List Char) : touchesNext .gt rest ss = false := by
  rw [touchesNext, h, Bool.and_false, Bool.and_false]

theorem touchesNext_gt (rest : List Char) (touches : Bool) (ss : List Symbol) :
    touchesNext .gt ('>' :: rest) (gtSymbol touches :: ss) = true := by
  have hgap : gap ('>' :: rest) = ⟨0, none⟩ := Lexes.gap_cons rfl fun heq => absurd heq (by decide)
  rw [touchesNext, hgap]
  rfl

/-- What a type starts with. -/
theorem TypeTree.starts : (t : TypeTree) → ∃ c cs, t.chars = c :: cs ∧ isNameStart c = true
  | .mk (.word word) dims => by
    cases word <;> exact ⟨_, _, rfl, rfl⟩
  | .mk (.named (.last (.plain name))) dims => ⟨_, _, rfl, name.starts⟩
  | .mk (.named (.last (.generic name _))) dims => ⟨_, _, rfl, name.starts⟩
  | .mk (.named (.dot (.plain name) _)) dims => ⟨_, _, rfl, name.starts⟩
  | .mk (.named (.dot (.generic name _) _)) dims => ⟨_, _, rfl, name.starts⟩

theorem CoitTrees.starts : (parts : CoitTrees) → ∃ c cs, parts.chars = c :: cs ∧ isNameStart c = true
  | .last (.plain name) => ⟨_, _, rfl, name.starts⟩
  | .last (.generic name _) => ⟨_, _, rfl, name.starts⟩
  | .dot (.plain name) _ => ⟨_, _, rfl, name.starts⟩
  | .dot (.generic name _) _ => ⟨_, _, rfl, name.starts⟩

namespace Lexes

variable {rest cs : List Char} {ss : List Symbol}

/-- A `>`. -/
theorem gt (hends : EndsAngle rest) (h : Lexes rest ss) :
    Lexes ('>' :: rest) (gtSymbol (touchesNext .gt rest ss) :: ss) := by
  have hlexeme : lexeme '>' ([] ++ rest) = ⟨1, .ok .gt⟩ :=
    lexeme_of_symbol rfl (by decide) hends.sign
  have hgap : gap ('>' :: ([] ++ rest)) = ⟨0, none⟩ :=
    gap_cons rfl fun heq => absurd heq (by decide)
  exact h.word hgap hlexeme (by decide)

/-- A `<` in front of what makes no other token of it. -/
theorem lt {c : Char} (hlt : c ≠ '<') (hassign : c ≠ '=') (h : Lexes (c :: cs) ss) :
    Lexes ('<' :: c :: cs) (TokenKind.lt.symbol :: ss) := by
  have hsymbol : Lexer.symbol ('<' :: c :: cs) = some (1, .lt) := by
    rw [Lexer.symbol]
    all_goals
      rintro _ ⟨⟩
      first | exact hlt rfl | exact hassign rfl
  exact h.sign rfl (by decide) (lexeme_of_symbol rfl (by decide) hsymbol) rfl (by decide) (by decide)

theorem comma (h : Lexes rest ss) :
    Lexes ([',', ' '] ++ rest) ([TokenKind.comma.symbol] ++ ss) := h.blank.single rfl

theorem bound (bound : Bound) (h : Lexes rest ss) :
    Lexes (bound.chars ++ rest) (bound.symbols ++ ss) := by
  have hends : EndsName (' ' :: rest) := .cons rfl (by decide) rest
  cases bound with
  | «extends» =>
    have hword : Lexes ("extends".toList ++ ' ' :: rest) (TokenKind.extendsKw.symbol :: ss) :=
      h.blank.keyword (c := 'e') (w := "xtends".toList) rfl hends
    exact hword.blank.single rfl
  | super =>
    have hword : Lexes ("super".toList ++ ' ' :: rest) (TokenKind.superKw.symbol :: ss) :=
      h.blank.keyword (c := 's') (w := "uper".toList) rfl hends
    exact hword.blank.single rfl

theorem primitive (word : Primitive) (hends : EndsName rest) (h : Lexes rest ss) :
    Lexes (word.word.text.toList ++ rest) (word.kind.symbol :: ss) := by
  cases word <;> exact h.keyword rfl hends

theorem dims (h : Lexes rest ss) : (n : Nat) → Lexes (dimChars n ++ rest) (dimSymbols n ++ ss)
  | 0 => h
  | n + 1 => by
    have hclose : Lexes (']' :: (dimChars n ++ rest)) (TokenKind.rbrack.symbol :: _) :=
      (h.dims n).single rfl
    exact hclose.single rfl

end Lexes

/-- What type arguments start with. -/
theorem ArgTrees.starts (args : ArgTrees) (rest : List Char) :
    ∃ c cs, args.chars [] ++ '>' :: rest = c :: cs ∧ c ≠ '<' ∧ c ≠ '=' := by
  cases args with
  | nil => exact ⟨'>', rest, rfl, by decide, by decide⟩
  | cons first others =>
    cases first with
    | type type =>
      obtain ⟨c, cs, hchars, hc⟩ := type.starts
      refine ⟨c, _, by rw [ArgTrees.chars, ArgTree.chars, hchars]; rfl, ?_, ?_⟩
      · exact ne_of_isNameStart hc (by decide)
      · exact ne_of_isNameStart hc (by decide)
    | wildcard => exact ⟨'?', _, rfl, by decide, by decide⟩
    | bounded bound type => cases bound <;> exact ⟨'?', _, rfl, by decide, by decide⟩

/-- What follows a type argument. -/
theorem ArgTrees.endsAngle {rest : List Char} (others : ArgTrees) (hends : EndsAngle rest) :
    EndsAngle (others.chars [',', ' '] ++ '>' :: rest) := by
  cases others with
  | nil => exact hends.gt
  | _ => exact .cons rfl (by decide) (by decide) (by decide) _

theorem ArgTrees.touchesNext_eq {rest : List Char} {ss : List Symbol} {touches : Bool}
    (others : ArgTrees) : touchesNext .gt (others.chars [',', ' '] ++ '>' :: rest)
      (others.symbols [TokenKind.comma.symbol] ++ gtSymbol touches :: ss) = others.isNil := by
  cases others with
  | nil => exact touchesNext_gt rest touches ss
  | _ => exact touchesNext_of_head rfl _

mutual

/-- **The text of a type lexes to its symbols**, whatever follows that does not run on. -/
theorem TypeTree.lexes {rest : List Char} {ss : List Symbol} (hends : EndsAngle rest)
    (hrest : Lexes rest ss) :
    (t : TypeTree) → Lexes (t.chars ++ rest) (t.symbols (touchesNext .gt rest ss) ++ ss)
  | .mk base 0 => by
    have hlexes := base.lexes hends hrest
    simpa [TypeTree.chars, TypeTree.symbols, dimChars, dimSymbols] using hlexes
  | .mk base (dims + 1) => by
    have hbrack : EndsAngle (dimChars (dims + 1) ++ rest) :=
      .cons rfl (by decide) (by decide) (by decide) _
    have hlexes := base.lexes hbrack (hrest.dims (dims + 1))
    rw [touchesNext_of_head rfl] at hlexes
    simpa [TypeTree.chars, TypeTree.symbols] using hlexes

theorem BaseTree.lexes {rest : List Char} {ss : List Symbol} (hends : EndsAngle rest)
    (hrest : Lexes rest ss) :
    (b : BaseTree) → Lexes (b.chars ++ rest) (b.symbols (touchesNext .gt rest ss) ++ ss)
  | .word word => hrest.primitive word hends.word
  | .named parts => parts.lexes hends hrest

theorem CoitTree.lexes {rest : List Char} {ss : List Symbol} (hends : EndsAngle rest)
    (hrest : Lexes rest ss) :
    (part : CoitTree) → Lexes (part.chars ++ rest) (part.symbols (touchesNext .gt rest ss) ++ ss)
  | .plain name => hrest.name name hends.word
  | .generic name args => by
    have hlead {cs : List Char} {ss : List Symbol} (h : Lexes cs ss) : Lexes ([] ++ cs) ([] ++ ss) := h
    have hargs := args.lexes hlead hends hrest
    obtain ⟨c, cs, hchars, hlt, hassign⟩ := args.starts rest
    rw [hchars] at hargs
    have hopen := (hargs.lt hlt hassign).name name (.cons rfl (by decide) _)
    rw [← hchars] at hopen
    simpa [CoitTree.chars, CoitTree.symbols] using hopen

theorem CoitTrees.lexes {rest : List Char} {ss : List Symbol} (hends : EndsAngle rest)
    (hrest : Lexes rest ss) :
    (parts : CoitTrees) →
      Lexes (parts.chars ++ rest) (parts.symbols (touchesNext .gt rest ss) ++ ss)
  | .last part => part.lexes hends hrest
  | .dot first others => by
    have hothers := others.lexes hends hrest
    have hdot := hothers.dot (by
      obtain ⟨c, cs, hchars, hc⟩ := others.starts
      rw [hchars]
      exact fun d hd => Option.some.inj hd ▸ hc)
    have hlexes := first.lexes (.cons rfl (by decide) (by decide) (by decide) _) hdot
    rw [touchesNext_of_head rfl] at hlexes
    simpa [CoitTrees.chars, CoitTrees.symbols] using hlexes

theorem ArgTree.lexes {rest : List Char} {ss : List Symbol} (hends : EndsAngle rest)
    (hrest : Lexes rest ss) :
    (arg : ArgTree) → Lexes (arg.chars ++ rest) (arg.symbols (touchesNext .gt rest ss) ++ ss)
  | .type type => type.lexes hends hrest
  | .wildcard => hrest.single rfl
  | .bounded bound type => by
    have hlexes := (type.lexes hends hrest).bound bound
    simpa only [ArgTree.chars, ArgTree.symbols, List.append_assoc] using hlexes

/-- Type arguments and the `>` behind them. -/
theorem ArgTrees.lexes {lead : List Char} {symbols : List Symbol}
    (hlead : ∀ {cs ss}, Lexes cs ss → Lexes (lead ++ cs) (symbols ++ ss))
    {rest : List Char} {ss : List Symbol} (hends : EndsAngle rest) (hrest : Lexes rest ss) :
    (args : ArgTrees) → Lexes (args.chars lead ++ '>' :: rest)
      (args.symbols symbols ++ gtSymbol (touchesNext .gt rest ss) :: ss)
  | .nil => hrest.gt hends
  | .cons first others => by
    have hothers := others.lexes Lexes.comma hends hrest
    have hfirst := first.lexes (others.endsAngle hends) hothers
    rw [others.touchesNext_eq] at hfirst
    have hlexes := hlead hfirst
    simpa only [ArgTrees.chars, ArgTrees.symbols, List.append_assoc] using hlexes

end

end JavaSource
