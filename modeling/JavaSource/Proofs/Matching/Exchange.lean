import JavaSource.Proofs.Matching
import JavaSource.Proofs.Windows.Rules

/-!
# Matching in another source

What a rule takes in one source it matches in any other, wherever the same symbols stand there in
front of a stopper (`Rule.Matches.of_takes`).
-/

namespace JavaSource.Grammar

variable {ss before front behind rest : List Symbol} {parts : List Tree} {r : Rule}

/-- Symbols that an expression ends in front of, no arrow among them. -/
def Ends (rest : List Symbol) : Prop :=
  rest.head?.any (fun x => x.kind.isStopper && x.kind != .arrow) = true

theorem Ends.stops (h : Ends rest) : rest.head?.any (·.kind.isStopper) = true := by
  cases rest with
  | nil => cases h
  | cons x rest => exact ((Bool.and_eq_true ..).mp h).1

theorem Ends.arrow (h : Ends rest) : rest.head?.any (·.kind == .arrow) = false := by
  cases rest with
  | nil => cases h
  | cons x rest => exact beq_eq_false_iff_ne.mpr (bne_iff_ne.mp ((Bool.and_eq_true ..).mp h).2)

theorem Ends.ne_nil (h : Ends rest) : rest ≠ [] := by
  rintro rfl
  cases h

/-- Whether a rule needs to leave none of a window, unless an arrow stands behind it. -/
abbrev Rule.isSteady (r : Rule) : Bool := Window.margin ⟨[], [], [], [], []⟩ 0 r == 0

theorem Window.margin_of_isSteady {W : Window} (hr : r.isSteady = true) (harrow : W.hasArrow = false)
    (i : Nat) : W.margin i r = 0 := by
  have hslack : W.slack = 0 := by rw [Window.slack, harrow]; rfl
  have hat : W.slackAt i = 0 := by rw [Window.slackAt, harrow, hslack]; rfl
  cases r
  all_goals first | rfl | exact hslack | exact hat | cases hr

/-- **What a rule takes in front of symbols and a stopper it matches in any source**, if it need not
leave more of them. -/
theorem Rule.Matches.of_takes_amid {between : List Symbol}
    (hscan : Scanned (before ++ ((front ++ between) ++ behind))) (hscan' : Scanned ss)
    (hstops : behind.head?.any (·.kind.isStopper) = true)
    (hstops' : rest.head?.any (·.kind.isStopper) = true)
    (hnested : parensBehind false 0 ((front ++ between).map Symbol.kind) = some 0)
    (hmargin : ∀ before',
      Window.margin ⟨front ++ between, before, behind, before', rest⟩ 0 r ≤ between.length)
    (h : r.Takes (.ofSymbols (before ++ ((front ++ between) ++ behind))) before.length parts
      (before.length + front.length)) : r.Matches ss front parts (between ++ rest) := by
  intro i hi
  rw [← List.append_assoc] at hi
  have hne : ss.drop i ≠ [] := fun hnil => by
    rw [hnil] at hi
    obtain ⟨-, hrest⟩ := List.append_eq_nil_iff.mp hi.symm
    rw [hrest] at hstops'
    cases hstops'
  have hlt : i < ss.length := Nat.lt_of_not_le fun hle => hne (List.drop_eq_nil_of_le hle)
  have hlength : (ss.take i).length = i := List.length_take_of_le (Nat.le_of_lt hlt)
  have hsplit : ss.take i ++ ((front ++ between) ++ rest) = ss := by
    rw [← hi, List.take_append_drop]
  let W : Window := ⟨front ++ between, before, behind, ss.take i, rest⟩
  have hW : W.Proper :=
    ⟨hscan, by rwa [Window.symbols, Window.swap, hsplit], hstops, hstops', hnested⟩
  have hroom : front.length + W.margin 0 r ≤ W.size := by
    rw [Window.size, List.length_append]
    exact Nat.add_le_add_left (hmargin _) _
  have htakes : r.Takes (.ofSymbols (ss.take i ++ ((front ++ between) ++ rest)))
      ((ss.take i).length + 0) parts ((ss.take i).length + front.length) :=
    (Window.agrees hW r 0 (Nat.zero_le _)).1 parts front.length hroom h
  rwa [hsplit, hlength] at htakes

/-- In front of a stopper alone, the parentheses come in pairs. -/
theorem Rule.Matches.of_takes_within (hscan : Scanned (before ++ (front ++ behind)))
    (hscan' : Scanned ss) (hstops : behind.head?.any (·.kind.isStopper) = true)
    (hstops' : rest.head?.any (·.kind.isStopper) = true) (hfree : r.isFree)
    (hmargin : ∀ before', Window.margin ⟨front, before, behind, before', rest⟩ 0 r = 0)
    (h : r.Takes (.ofSymbols (before ++ (front ++ behind))) before.length parts
      (before.length + front.length)) : r.Matches ss front parts rest := by
  have hbehind : behind ≠ [] := fun hnil => by
    rw [hnil] at hstops
    cases hstops
  have hnested : parensBehind false 0 (front.map Symbol.kind) = some 0 :=
    Window.nested_of_takes (W := ⟨front, before, behind, [], rest⟩) hscan hbehind hfree h
  have hmatches : r.Matches ss front parts ([] ++ rest) :=
    .of_takes_amid (by rwa [List.append_nil]) hscan' hstops hstops' (by rwa [List.append_nil])
      (fun before' => by rw [List.append_nil]; exact Nat.le_of_eq (hmargin before'))
      (by rwa [List.append_nil])
  exact hmatches

theorem Rule.Matches.of_takes (hscan : Scanned (before ++ (front ++ behind))) (hscan' : Scanned ss)
    (hends : Ends behind) (hends' : Ends rest) (hfree : r.isFree) (hsteady : r.isSteady = true)
    (h : r.Takes (.ofSymbols (before ++ (front ++ behind))) before.length parts
      (before.length + front.length)) : r.Matches ss front parts rest :=
  .of_takes_within hscan hscan' hends.stops hends'.stops hfree (fun _ =>
    Window.margin_of_isSteady hsteady (by
      rw [Window.hasArrow, hends.arrow, hends'.arrow]
      rfl) 0) h

/-- **What a rule takes of a whole source it matches in any source**, in front of what ends an
expression. -/
theorem Rule.Matches.of_takes_all (hscan : Scanned (front ++ [Symbol.final])) (hscan' : Scanned ss)
    (hends : Ends rest) (hfree : r.isFree) (hsteady : r.isSteady = true)
    (h : r.Takes (.ofSymbols (front ++ [Symbol.final])) 0 parts front.length) :
    r.Matches ss front parts rest := by
  have hscan : Scanned ([] ++ (front ++ [Symbol.final])) := hscan
  refine .of_takes hscan hscan' rfl hends hfree hsteady ?_
  rw [List.length_nil, Nat.zero_add]
  exact h

end JavaSource.Grammar
