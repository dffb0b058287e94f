import JavaSource.Proofs.Lexing.Documents
import JavaSource.Proofs.Lexing.Signs

/-!
# Written texts in other texts

A text that has been written lexes to its own symbols in front of a sign (`Doc.LexesAt.of_write`),
unless it ends in a comment.  It does not if a semicolon behind it is a token (`LexesStated`).
-/

namespace JavaSource

open Grammar (Symbol)

variable {text : String} {ss : List Symbol}

/-- What is written is put behind what has been written. -/
theorem Doc.write_behind (indent : Nat) (front : String) (d : Doc) (depth : Nat)
    (written : String) :
    d.write indent depth (front ++ written) = (front ++ ·) <$> d.write indent depth written := by
  induction d generalizing depth written with
  | append a b iha ihb =>
    rw [write, iha, write]
    cases a.write indent depth written with
    | error _ => rfl
    | ok first => exact ihb depth first
  | nest d ih => exact ih (depth + 1) written
  | refuse e => rfl
  | nil => rfl
  | _ => simp only [write, String.append_assoc, Functor.map, Except.map]

theorem Lexes.unique {cs : List Char} {ss ss' : List Symbol} (h : Lexes cs ss) (h' : Lexes cs ss') :
    ss = ss' := by
  induction h generalizing ss' with
  | finish hgap hrest =>
    cases h' with
    | finish => rfl
    | token hgap' hrest' =>
      cases hgap.symm.trans hgap'
      cases hrest.symm.trans hrest'
  | token hgap hrest hlexeme hkind behind ih =>
    cases h' with
    | finish hgap' hrest' =>
      cases hgap.symm.trans hgap'
      cases hrest.symm.trans hrest'
    | token hgap' hrest' hlexeme' hkind' behind' =>
      cases hgap.symm.trans hgap'
      cases hrest.symm.trans hrest'
      cases hlexeme.symm.trans hlexeme'
      rw [ih behind']

/-- A text has some symbols, and a semicolon behind it is one more. -/
def LexesStated (text : String) (ss : List Symbol) : Prop :=
  Lexes text.toList ss ∧ Lexes (text ++ ";").toList (ss ++ [TokenKind.semi.symbol])

theorem Lexes.semi : Lexes [';'] [TokenKind.semi.symbol] :=
  Lexes.nil.single rfl

/-- A semicolon behind a text is one more symbol, or none. -/
theorem Lexes.with_semi (h : Lexes text.toList ss) :
    Lexes (text ++ ";").toList (ss ++ [TokenKind.semi.symbol]) ∨ Lexes (text ++ ";").toList ss := by
  have htext : (text ++ ";").toList = text.toList ++ [';'] := String.toList_append
  have hoff : SetsOff ';' ss := ⟨by decide, nofun⟩
  rw [htext]
  exact h.stopped.imp (fun h => h _ _ _ hoff Lexes.semi) fun h => h _ _ hoff (by decide)

/-- So any sign behind it is a token. -/
theorem LexesStated.endsClear (h : LexesStated text ss) : EndsClear text.toList ss :=
  h.1.stopped.resolve_right fun hcomment => by
    have hoff : SetsOff ';' ss := ⟨by decide, nofun⟩
    have hnone : Lexes (text ++ ";").toList ss := by
      rw [String.toList_append]
      exact hcomment _ _ hoff (by decide)
    have hlength := congrArg List.length (hnone.unique h.2)
    rw [List.length_append] at hlength
    exact absurd hlength (Nat.ne_of_lt (Nat.lt_succ_self _))

/-- A text starts with a sign that may stand behind some symbols. -/
def StartsOff (ss : List Symbol) (rest : List Char) : Prop := ∃ b ∈ rest.head?, SetsOff b ss

theorem StartsOff.cons {b : Char} (hb : SetsOff b ss) (rest : List Char) :
    StartsOff ss (b :: rest) := ⟨b, rfl, hb⟩

/-- **What has been written somewhere lexes there to the symbols of its text.** -/
theorem Doc.LexesAt.of_write {d : Doc} {indent depth : Nat}
    (hwrite : d.write indent depth "" = .ok text) (h : LexesStated text ss) :
    d.LexesAt indent depth (Edge.any.Holds ·) (StartsOff ss) ss := fun written => by
  refine ⟨text.toList, ?_, fun {rest ss'} hrest hlexes => ⟨?_, trivial⟩⟩
  · have hbehind := write_behind indent written d depth ""
    rwa [String.append_empty, hwrite, ← String.ofList_toList (s := text)] at hbehind
  · obtain ⟨b, hb, hoff⟩ := hrest
    cases rest with
    | nil => cases hb
    | cons c rest =>
      obtain rfl := Option.some.inj hb
      exact h.endsClear _ _ _ hoff hlexes

end JavaSource
