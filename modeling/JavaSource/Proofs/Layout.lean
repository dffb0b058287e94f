import JavaSource.Proofs.Layout.Members
import JavaSource.Proofs.Scan
import JavaSource.Source

/-!
# Layout does not matter

Blanks, comments and line breaks show up in the tokens of a source only as places and ranges.  Of
these the grammar looks at one thing: whether a `>` touches the `>` behind it.  The readers look at
none; they pass them on as spans.

So sources with the same words, of which the same `>` touch, parse alike under every mode and every
limit (`parse_alike`): to the same syntax but for spans, or to a fault with the same cause, or to an
error with the same node, field and problem.
-/

namespace JavaSource

open Grammar (symbols settle recognize)

/-- Whether there is a `>` at some place that touches a `>` at the next. -/
def gtTouchesGt (ts : List Token) (i : Nat) : Bool :=
  match ts[i]?, ts[i + 1]? with
  | some t, some u => t.kind == .gt && u.kind == .gt && t.range.stop == u.range.start
  | _,      _      => false

/-- Tokens that differ in nothing but layout: kinds and texts are the same, and so is which `>`
touch each other. -/
structure SameWords (ts us : List Token) : Prop where
  kinds : ts.map Token.kind = us.map Token.kind
  texts : ts.map Token.text = us.map Token.text
  touching : ∀ i, gtTouchesGt ts i = gtTouchesGt us i

/-- Results of parsing that differ in nothing but spans and places. -/
inductive ParsesAlike : Except Failure AnyNode → Except Failure AnyNode → Prop where
  | node {m n : AnyNode} (h : m.same n = true) : ParsesAlike (.ok m) (.ok n)
  | fault {f g : Fault} (h : f.cause = g.cause) :
    ParsesAlike (.error (.fault f)) (.error (.fault g))
  | error {e f : NodeError} (h : e.Alike f) : ParsesAlike (.error (.node e)) (.error (.node f))

namespace SameWords

variable {ts us : List Token}

theorem unplaced (h : SameWords ts us) : ts.map Token.unplaced = us.map Token.unplaced := by
  obtain ⟨hkinds, htexts, -⟩ := h
  induction ts generalizing us with
  | nil =>
    cases us with
    | nil => rfl
    | cons u us => cases hkinds
  | cons t ts ih =>
    cases us with
    | nil => cases hkinds
    | cons u us =>
      obtain ⟨hkind, hkinds⟩ := List.cons.inj hkinds
      obtain ⟨htext, htexts⟩ := List.cons.inj htexts
      rw [List.map_cons, List.map_cons, ih hkinds htexts, Token.Alike.unplaced ⟨hkind, htext⟩]

/-- What is left of a symbol if nothing but a `>` touches, and nothing but a `>`. -/
theorem getElem?_settle_symbols (ts : List Token) (i : Nat) :
    (settle (symbols ts))[i]? = ts[i]?.map fun t => ⟨t.kind, t.text, gtTouchesGt ts i⟩ := by
  rw [Grammar.getElem?_settle, Scan.getElem?_symbols, Scan.getElem?_symbols, Option.map_map]
  unfold gtTouchesGt
  cases ts[i]? with
  | none => rfl
  | some t =>
    cases ts[i + 1]? with
    | none => rfl
    | some u =>
      simp only [Option.map_some, Function.comp_apply, Option.any_some, Grammar.Symbol.touchingIf]
      rw [Bool.and_comm]

theorem settled (h : SameWords ts us) : settle (symbols ts) = settle (symbols us) := by
  refine List.ext_getElem? fun i => ?_
  have hwords := congrArg (·[i]?) h.unplaced
  simp only [List.getElem?_map] at hwords
  rw [getElem?_settle_symbols, getElem?_settle_symbols, h.touching i]
  generalize ts[i]? = t?, us[i]? = u? at hwords
  cases t? <;> cases u? <;> simp only [Option.map_none, Option.map_some, reduceCtorEq,
    Option.some.injEq] at hwords
  · rfl
  · obtain ⟨hkind, htext⟩ := Token.alike_of_unplaced hwords
    rw [Option.map_some, Option.map_some, hkind, htext]

theorem gtTouchesGt_of_le {i : Nat} (h : ts.length ≤ i) : gtTouchesGt ts i = false := by
  unfold gtTouchesGt
  rw [List.getElem?_eq_none h]

/-- Behind the end nothing touches, so it is decided up to there. -/
instance : Decidable (SameWords ts us) :=
  decidable_of_iff (ts.map Token.kind = us.map Token.kind ∧ ts.map Token.text = us.map Token.text ∧
      ∀ i < ts.length, gtTouchesGt ts i = gtTouchesGt us i)
    ⟨fun ⟨hkinds, htexts, htouching⟩ => ⟨hkinds, htexts, fun i => by
        by_cases hi : i < ts.length
        · exact htouching i hi
        · have hlength : ts.length = us.length := by
            rw [← List.length_map Token.kind, hkinds, List.length_map]
          rw [gtTouchesGt_of_le (Nat.not_lt.mp hi),
            gtTouchesGt_of_le (hlength ▸ Nat.not_lt.mp hi)]⟩,
      fun ⟨hkinds, htexts, htouching⟩ => ⟨hkinds, htexts, fun i _ => htouching i⟩⟩

end SameWords

/-- **Sources with the same words parse alike, whatever stands between the words.** -/
theorem parse_alike (mode : Mode) (limit : Nat) {source source' : String} {ts us : List Token}
    (hts : tokenize source = .ok ts) (hus : tokenize source' = .ok us) (h : SameWords ts us) :
    ParsesAlike (parse mode limit source) (parse mode limit source') := by
  have htrees := Grammar.recognize_alike limit mode.start h.unplaced h.settled
  unfold parse parseTree
  rw [hts, hus]
  simp only [bind, Except.bind]
  generalize recognize limit mode.start ts = x, recognize limit mode.start us = y at htrees
  cases x with
  | error f =>
    cases y with
    | error g => exact .fault (Except.error.inj htrees)
    | ok u => cases htrees
  | ok t =>
    cases y with
    | error g => cases htrees
    | ok u =>
      have hread := Tree.readWhole_agree (Except.ok.inj htrees)
      change ParsesAlike (t.readWhole.mapError .node) (u.readWhole.mapError .node)
      generalize t.readWhole = m, u.readWhole = n at hread
      cases hread with
      | ok h => exact .node h.same
      | error h => exact .error h

/-- A comment and a line break more. -/
theorem parse_alike_comment : ∃ ts us, tokenize "a = b>> 1" = .ok ts ∧
    tokenize "a /* c */ =\n  b >>1" = .ok us ∧ SameWords ts us ∧
    ParsesAlike (parse .expr 20 "a = b>> 1") (parse .expr 20 "a /* c */ =\n  b >>1") := by
  have heval : (match tokenize "a = b>> 1", tokenize "a /* c */ =\n  b >>1" with
      | .ok ts, .ok us => decide (SameWords ts us)
      | _,      _      => false) = true := by decide +kernel
  split at heval
  · rename_i ts us hts hus
    have hwords : SameWords ts us := of_decide_eq_true heval
    exact ⟨ts, us, hts, hus, hwords, parse_alike .expr 20 hts hus hwords⟩
  · cases heval

end JavaSource
