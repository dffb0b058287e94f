import JavaSource.Proofs.Lexing.Breaks
import Mathlib.Data.List.TakeWhile

/-!
# A sign behind a text

Behind a text a sign is a token of its own, unless it stands in a comment of the text.  A comment
that the text ends in takes the rest of the line.

* `Lexes.stopped`: where a sign stands behind a text, the text keeps its tokens, and either those
  from the sign on follow or none of its line.
-/

namespace JavaSource

open Grammar (Symbol)
open Text (isLineBreak isSpacing)

namespace Lexer

variable {cs tail : List Char} {n : Nat} {b c : Char} {kind : TokenKind}

/-- A line that ends within the text ends there where more follows. -/
theorem lineComment_append (h : lineComment cs < cs.length) (tail : List Char) :
    lineComment (cs ++ tail) = lineComment cs := by
  unfold lineComment at h ⊢
  rw [List.takeWhile_append, if_neg (Nat.ne_of_lt h)]

/-- A gap ahead of a token is there where a sign follows the text. -/
theorem gap_stopped (h : gap cs = ⟨n, none⟩) (hn : n < cs.length) (hb : isStop b = true)
    (tail : List Char) : gap (cs ++ b :: tail) = ⟨n, none⟩ := by
  have hslash : b ≠ '/' := ne_of_isStop hb (by decide)
  have hstar : b ≠ '*' := ne_of_isStop hb (by decide)
  fun_induction gap cs generalizing n with
  | case1 cs k =>
    rename_i ih
    obtain ⟨hgap, rfl⟩ := behind_eq h
    have hle : k ≤ cs.length := (List.takeWhile_sublist _).length_le
    have hlt : (gap (cs.drop k)).length < (cs.drop k).length := by
      rw [List.length_drop]
      simp only [List.length_cons] at hn
      omega
    have hline : lineComment (cs ++ b :: tail) = k :=
      lineComment_append (Nat.lt_of_not_le fun hk => by
        rw [List.drop_eq_nil_of_le hk] at hlt
        cases hlt) _
    rw [List.cons_append, List.cons_append, gap, hline, List.drop_append_of_le_length hle,
      ih hgap hlt]
    rfl
  | case2 cs k hclosed ih =>
    obtain ⟨hgap, rfl⟩ := behind_eq h
    have hle : k ≤ cs.length := by
      obtain ⟨body, rest, rfl, rfl, -⟩ := commentBody_eq hclosed
      simp only [List.length_append, List.length_cons]
      omega
    have hlt : (gap (cs.drop k)).length < (cs.drop k).length := by
      rw [List.length_drop]
      simp only [List.length_cons] at hn
      omega
    rw [List.cons_append, List.cons_append, gap, commentBody_append hclosed]
    dsimp only
    rw [List.drop_append_of_le_length hle, ih hgap hlt]
    rfl
  | case3 cs k hopen => cases h
  | case4 c cs hline hblock hc ih =>
    obtain ⟨hgap, rfl⟩ := behind_eq h
    have hc' : c ≠ '/' := fun heq => by
      rw [heq] at hc
      exact absurd hc (by decide)
    rw [List.cons_append, gap, if_pos hc, ih hgap (by simp only [List.length_cons] at hn; omega)]
    · rfl
    · exact fun rest heq => absurd heq hc'
    · exact fun rest heq => absurd heq hc'
  | case5 c cs hline hblock hc =>
    cases h
    rw [List.cons_append, gap, if_neg hc]
    · intro rest hslash' heq
      obtain ⟨rest', hrest, -⟩ := @exists_append (c :: cs) tail b '/' '/' rest hslash.symm hslash.symm
        (by rw [List.cons_append, hslash', heq])
      exact hline rest' hslash' (List.cons.inj hrest).2
    · intro rest hslash' heq
      obtain ⟨rest', hrest, -⟩ := @exists_append (c :: cs) tail b '/' '*' rest hslash.symm hstar.symm
        (by rw [List.cons_append, hslash', heq])
      exact hblock rest' hslash' (List.cons.inj hrest).2
  | case6 => cases hn

/-- A gap stays one where more follows. -/
theorem gap_pos (h : (gap cs).length ≠ 0) (tail : List Char) : (gap (cs ++ tail)).length ≠ 0 := by
  fun_cases gap cs with
  | case1 cs =>
    rw [List.cons_append, List.cons_append, gap]
    exact Nat.ne_of_gt (Nat.add_pos_left (Nat.succ_pos _) _)
  | case2 cs | case3 cs =>
    rw [List.cons_append, List.cons_append, gap]
    split
    · exact Nat.ne_of_gt (Nat.add_pos_left (Nat.succ_pos _) _)
    · exact Nat.succ_ne_zero _
  | case4 c cs hline hblock hc =>
    have hslash : c ≠ '/' := fun heq => by
      rw [heq] at hc
      exact absurd hc (by decide)
    rw [List.cons_append, gap, if_pos hc]
    · exact Nat.ne_of_gt (Nat.add_pos_left Nat.one_pos _)
    · exact fun rest heq => absurd heq hslash
    · exact fun rest heq => absurd heq hslash
  | case5 c cs hline hblock hc =>
    rw [gap, if_neg hc] at h
    · exact absurd rfl h
    · exact hline
    · exact hblock
  | case6 =>
    rw [gap] at h
    exact absurd rfl h

theorem Gap.behind_behind (gap : Gap) (m n : Nat) :
    (gap.behind n).behind m = gap.behind (m + n) := by
  unfold Gap.behind
  rw [Option.map_map, Nat.add_assoc]
  refine congrArg (Gap.mk _) (congrArg (Option.map · _) (funext fun i => ?_))
  exact (Nat.add_assoc ..).symm

/-- Behind blanks and comments a gap goes on, or else the last comment takes the rest of the line. -/
def Trails (cs : List Char) : Prop :=
  (∀ tail, gap (cs ++ tail) = (gap tail).behind cs.length) ∨
    ∀ tail, tail.any isLineBreak = false → gap (cs ++ tail) = ⟨cs.length + tail.length, none⟩

/-- So it does with more of them in front. -/
theorem Trails.behind {front rest : List Char} (h : Trails rest)
    (hgap : ∀ tail, gap (front ++ (rest ++ tail)) = (gap (rest ++ tail)).behind front.length) :
    Trails (front ++ rest) := by
  unfold Trails
  simp only [List.append_assoc, hgap, List.length_append]
  refine h.imp (fun h tail => ?_) fun h tail htail => ?_
  · rw [h tail, Gap.behind_behind]
  · rw [h tail htail, Gap.behind, Nat.add_assoc]
    rfl

theorem trails (h : gap cs = ⟨n, none⟩) (hn : cs.length ≤ n) : Trails cs := by
  fun_induction gap cs generalizing n with
  | case1 cs k =>
    rename_i ih
    obtain ⟨hgap, rfl⟩ := behind_eq h
    have hle : k ≤ cs.length := (List.takeWhile_sublist _).length_le
    rcases Nat.lt_or_eq_of_le hle with hlt | heq
    · have hrest : Trails (cs.drop k) := ih hgap (by
        rw [List.length_drop]
        simp only [List.length_cons] at hn
        omega)
      have htrails : Trails ('/' :: '/' :: cs.take k ++ cs.drop k) := hrest.behind fun tail => by
        have happend : cs.take k ++ (cs.drop k ++ tail) = cs ++ tail := by
          rw [← List.append_assoc, List.take_append_drop]
        rw [List.cons_append, List.cons_append, gap, happend, lineComment_append hlt,
          List.drop_append_of_le_length hle, List.length_cons, List.length_cons,
          List.length_take_of_le hle]
      rwa [List.cons_append, List.cons_append, List.take_append_drop] at htrails
    · refine .inr fun tail htail => ?_
      have hline : lineComment (cs ++ tail) = (cs ++ tail).length := by
        have hcs : (cs.takeWhile fun c => !isLineBreak c).length = cs.length := heq
        have htail' : (tail.takeWhile fun c => !isLineBreak c) = tail :=
          List.takeWhile_eq_self_iff.mpr fun c hc => by
            rw [Bool.eq_false_iff.mpr (List.any_eq_false.mp htail c hc)]
            rfl
        unfold lineComment
        rw [List.takeWhile_append, if_pos hcs, htail']
      rw [List.cons_append, List.cons_append, gap, hline, List.drop_length, gap, Gap.behind,
        List.length_append, List.length_cons, List.length_cons]
      exact congrArg (Gap.mk · none) (by dsimp only; omega)
  | case2 cs k hclosed ih =>
    obtain ⟨hgap, rfl⟩ := behind_eq h
    have hle : k ≤ cs.length := by
      obtain ⟨body, rest, rfl, rfl, -⟩ := commentBody_eq hclosed
      simp only [List.length_append, List.length_cons]
      omega
    have hrest : Trails (cs.drop k) := ih hgap (by
      rw [List.length_drop]
      simp only [List.length_cons] at hn
      omega)
    have htrails : Trails ('/' :: '*' :: cs.take k ++ cs.drop k) := hrest.behind fun tail => by
      have happend : cs.take k ++ (cs.drop k ++ tail) = cs ++ tail := by
        rw [← List.append_assoc, List.take_append_drop]
      rw [List.cons_append, List.cons_append, gap, happend, commentBody_append hclosed]
      dsimp only
      rw [List.drop_append_of_le_length hle, List.length_cons, List.length_cons,
        List.length_take_of_le hle]
    rwa [List.cons_append, List.cons_append, List.take_append_drop] at htrails
  | case3 cs k hopen => cases h
  | case4 c cs hline hblock hc ih =>
    obtain ⟨hgap, rfl⟩ := behind_eq h
    have hc' : c ≠ '/' := fun heq => by
      rw [heq] at hc
      exact absurd hc (by decide)
    have hrest : Trails cs := ih hgap (by simp only [List.length_cons] at hn; omega)
    refine @Trails.behind [c] cs hrest fun tail => ?_
    rw [List.singleton_append, gap, if_pos hc]
    · rfl
    · exact fun rest heq => absurd heq hc'
    · exact fun rest heq => absurd heq hc'
  | case5 c cs hline hblock hc =>
    cases h
    cases hn
  | case6 =>
    refine .inl fun tail => ?_
    rw [List.nil_append, List.length_nil, Gap.behind, Nat.zero_add]
    simp

end Lexer

open Lexer

/-- A sign may stand behind some symbols: it makes no other one of the last. -/
def SetsOff (b : Char) (ss : List Symbol) : Prop :=
  isStop b = true ∧ (b = ':' → ss.getLast?.all (·.kind != .colon) = true)

/-- Where a sign stands behind the text, the tokens from there on follow those of the text. -/
def EndsClear (cs : List Char) (ss : List Symbol) : Prop :=
  ∀ b tail ss', SetsOff b ss → Lexes (b :: tail) ss' → Lexes (cs ++ b :: tail) (ss ++ ss')

/-- Where a sign stands behind the text, no token comes of its line. -/
def EndsInComment (cs : List Char) (ss : List Symbol) : Prop :=
  ∀ b tail, SetsOff b ss → (b :: tail).any isLineBreak = false → Lexes (cs ++ b :: tail) ss

namespace Lexes

variable {cs rest tail : List Char} {ss ss' : List Symbol} {n len : Nat} {b c : Char}
variable {kind : TokenKind}

/-- No token touches a sign, as a sign is no `>`. -/
theorem touchesNext_stop (h : Lexes (b :: tail) ss) (hb : isStop b = true) :
    touchesNext kind (b :: tail) ss = false := by
  unfold touchesNext
  cases h with
  | finish => simp
  | @token _ rest n len c kind' ss hgap hrest hlexeme =>
    rw [hgap, List.head?_cons, Option.any_some]
    cases n with
    | succ n => rfl
    | zero =>
      obtain ⟨rfl, rfl⟩ := List.cons.inj hrest
      have hspells := @lexeme_spells b tail kind' (by rw [hlexeme])
      have hgt : kind' ≠ .gt := fun hkind => by
        obtain ⟨hstarts, -⟩ := hspells.2 ">" (by rw [hkind]; rfl)
        obtain ⟨rest, hrest⟩ := hstarts
        exact ne_of_isStop hb (by decide) (List.cons.inj hrest).1.symm
      rw [beq_eq_false_iff_ne.mpr hgt, Bool.and_false, Bool.and_false]

/-- A token is there where a sign follows the text, and so is what stands in front of it. -/
theorem token_stopped (hgap : gap cs = ⟨n, none⟩) (hrest : cs.drop n = c :: rest)
    (hlexeme : lexeme c rest = ⟨len, .ok kind⟩) (hkind : kind ≠ .eof)
    (hb : isStop b = true) (hcolon : b = ':' → c :: rest ≠ [':'])
    (h : Lexes (rest.drop (len - 1) ++ b :: tail) ss) :
    Lexes (cs ++ b :: tail) (⟨kind, String.ofList ((c :: rest).take len),
      touchesNext kind (rest.drop (len - 1) ++ b :: tail) ss⟩ :: ss) := by
  have hlt : n < cs.length := Nat.lt_of_not_le fun hle => by
    rw [List.drop_eq_nil_of_le hle] at hrest
    cases hrest
  have hrest' : (cs ++ b :: tail).drop n = c :: (rest ++ b :: tail) := by
    rw [List.drop_append_of_le_length (Nat.le_of_lt hlt), hrest]
    rfl
  have hle : len ≤ rest.length + 1 := by
    have hle := @lexeme_le c rest kind (by rw [hlexeme])
    rwa [hlexeme] at hle
  have hdrop : (rest ++ b :: tail).drop (len - 1) = rest.drop (len - 1) ++ b :: tail :=
    List.drop_append_of_le_length (by omega)
  have htake : (c :: (rest ++ b :: tail)).take len = (c :: rest).take len := by
    rw [← List.cons_append]
    exact List.take_append_of_le_length hle
  have hlexes := Lexes.token (gap_stopped hgap hlt hb tail) hrest'
    (lexeme_stopped hlexeme hb hcolon tail) hkind (by rw [hdrop]; exact h)
  rwa [htake, hdrop] at hlexes

/-- In front of another token it touches that one as it did. -/
theorem touchesNext_stopped {x : Symbol} (h : Lexes cs (x :: ss)) (hb : isStop b = true)
    (tail : List Char) (ss' : List Symbol) :
    touchesNext kind (cs ++ b :: tail) (x :: ss ++ ss') = touchesNext kind cs (x :: ss) := by
  cases h with
  | @token _ _ n _ _ _ _ hgap hrest =>
    have hlt : n < cs.length := Nat.lt_of_not_le fun hle => by
      rw [List.drop_eq_nil_of_le hle] at hrest
      cases hrest
    unfold touchesNext
    rw [gap_stopped hgap hlt hb, hgap]
    rfl

theorem touchesNext_nil (kind : TokenKind) (cs : List Char) : touchesNext kind cs [] = false := by
  rw [touchesNext, List.head?_nil, Option.any_none, Bool.and_false, Bool.and_false]

/-- Behind blanks and comments it touches none. -/
theorem touchesNext_gap (h : Lexes cs []) (hb : isStop b = true) (hlexes : Lexes (b :: tail) ss) :
    touchesNext kind (cs ++ b :: tail) ss = false := by
  cases cs with
  | nil => exact hlexes.touchesNext_stop hb
  | cons c cs =>
    cases h with
    | @finish _ n hgap hrest =>
      have hpos : (gap (c :: cs)).length ≠ 0 := by
        have hle := List.drop_eq_nil_iff.mp hrest
        rw [hgap]
        exact Nat.ne_of_gt (Nat.lt_of_lt_of_le (Nat.succ_pos _) hle)
      rw [touchesNext, beq_eq_false_iff_ne.mpr (gap_pos hpos _), Bool.false_and]

/-- **Behind a text a sign is a token, or else it stands in a comment.** -/
theorem stopped (h : Lexes cs ss) : EndsClear cs ss ∨ EndsInComment cs ss := by
  induction h with
  | @finish cs n hgap hrest =>
    have hn : cs.length ≤ n := List.drop_eq_nil_iff.mp hrest
    refine (trails hgap hn).imp (fun h b tail ss' hb hlexes => ?_) fun h b tail hb htail => ?_
    · exact hlexes.behind (h (b :: tail)) List.drop_left
    · exact .finish (h (b :: tail) htail) (List.drop_eq_nil_of_le (Nat.le_of_eq List.length_append))
  | @token cs rest n len c kind ss hgap hrest hlexeme hkind behind ih =>
    cases ss with
    | nil =>
      let x : Symbol := ⟨kind, String.ofList ((c :: rest).take len), false⟩
      have hcolon {b : Char} (hb : SetsOff b [x]) : b = ':' → c :: rest ≠ [':'] := fun hb' hcs => by
        obtain ⟨rfl, rfl⟩ := List.cons.inj hcs
        cases hlexeme
        exact absurd (hb.2 hb') Bool.false_ne_true
      have hbare {b : Char} (hb : SetsOff b [x]) : SetsOff b [] := ⟨hb.1, fun _ => rfl⟩
      rw [touchesNext_nil]
      refine ih.imp (fun ih b tail ss' hb hlexes => ?_) fun ih b tail hb htail => ?_
      · have hbehind : Lexes _ ss' := ih b tail ss' (hbare hb) hlexes
        have hlexes' := token_stopped hgap hrest hlexeme hkind hb.1 (hcolon hb) hbehind
        rwa [touchesNext_gap behind hb.1 hlexes] at hlexes'
      · have hlexes' := token_stopped hgap hrest hlexeme hkind hb.1 (hcolon hb)
          (ih b tail (hbare hb) htail)
        rwa [touchesNext_nil] at hlexes'
    | cons x ss =>
      have hcolon {b : Char} : b = ':' → c :: rest ≠ [':'] := fun _ hcs => by
        obtain ⟨-, rfl⟩ := List.cons.inj hcs
        rw [List.drop_nil] at behind
        cases behind with
        | token _ hrest => cases List.drop_nil.symm.trans hrest
      refine ih.imp (fun ih b tail ss' hb hlexes => ?_) fun ih b tail hb htail => ?_
      · have hlexes' := token_stopped hgap hrest hlexeme hkind hb.1 hcolon
          (ih b tail ss' ⟨hb.1, hb.2⟩ hlexes)
        rwa [touchesNext_stopped behind hb.1] at hlexes'
      · have hlexes' := token_stopped hgap hrest hlexeme hkind hb.1 hcolon
          (ih b tail ⟨hb.1, hb.2⟩ htail)
        have htouch := @touchesNext_stopped _ ss b kind x behind hb.1 tail []
        rw [List.append_nil] at htouch
        rwa [htouch] at hlexes'

end Lexes

end JavaSource
