import JavaSource.Proofs.Operators.Tree
import JavaSource.Proofs.Spelling
import JavaSource.Proofs.Taking

/-!
# Matching a source symbol by symbol

`r.Matches ss front parts rest` says that the rule `r` reads some symbols of the source `ss`
wherever others are left behind them, and which parts that makes.  Unlike `Rule.Reads` it tells what
a rule takes (`Rule.Takes`), and so also what a probe finds.

The moves of a rule are followed from one stand to the next: `Faces` says which parts are held there
and which symbols are left, and `Faces.take`, `Faces.read`, `Faces.attempt` lead on to the next one.
A rule may have another one read if it has read something itself, or if that one is of lower rank
(`Entered.fewer`, `Entered.same`).
-/

namespace JavaSource.Grammar

variable {ss rest front : List Symbol} {parts ps : List Tree} {s : Stand} {e : Entry}
variable {source : Source} {α β : Type}

/-! ### Where moves lead -/

/-- Moves lead to where something is true. -/
def Move.Gets (source : Source) (e : Entry) (m : Move α) (Q : α → Stand → Prop) (s : Stand) :
    Prop :=
  ∃ a s', m.Leads source e s a s' ∧ Q a s'

/-- So does a loop. -/
def Move.Cycles (source : Source) (e : Entry) (body : Move Bool) (Q : Stand → Prop) (s : Stand) :
    Prop :=
  ∃ s', Turns (body.Leads source e) s s' ∧ Q s'

namespace Move.Gets

variable {m : Move α} {f : α → Move β} {Q : β → Stand → Prop}

theorem mono {P P' : α → Stand → Prop} (h : m.Gets source e P s)
    (hP : ∀ a s', P a s' → P' a s') : m.Gets source e P' s := by
  obtain ⟨a, s', hleads, hP₁⟩ := h
  exact ⟨a, s', hleads, hP a s' hP₁⟩

theorem pure {P : α → Stand → Prop} {a : α} (h : P a s) :
    (Pure.pure a : Move α).Gets source e P s := ⟨a, s, ⟨rfl, rfl⟩, h⟩

theorem bind (h : m.Gets source e (fun a s' => (f a).Gets source e Q s') s) :
    (m >>= f).Gets source e Q s := by
  obtain ⟨a, s₁, hm, b, s', hf, hQ⟩ := h
  exact ⟨b, s', leads_bind.mpr ⟨a, s₁, hm, hf⟩, hQ⟩

theorem ahead {f : Ahead → Move β} (h : (f (source.view s)).Gets source e Q s) :
    (Move.ahead >>= f).Gets source e Q s := h

theorem isAt {kind : TokenKind} {f : Bool → Move β}
    (h : (f ((source.view s).isAt kind)).Gets source e Q s) :
    (Move.isAt kind >>= f).Gets source e Q s := h

theorem nest {f : Unit → Move β} (h : (f ()).Gets source e Q s) :
    (Move.nest >>= f).Gets source e Q s := h

theorem provided {allows : Ahead → Bool} {moves : Move Unit} {f : Unit → Move β}
    (hallows : allows (source.view s) = true)
    (h : moves.Gets source e (fun _ s' => (f ()).Gets source e Q s') s) :
    (Move.provided allows moves >>= f).Gets source e Q s := by
  refine .bind (.ahead ?_)
  rw [hallows]
  exact h

theorem notProvided {allows : Ahead → Bool} {moves : Move Unit} {f : Unit → Move β}
    (hallows : allows (source.view s) = false) (h : (f ()).Gets source e Q s) :
    (Move.provided allows moves >>= f).Gets source e Q s := by
  refine .bind (.ahead ?_)
  rw [hallows]
  exact .pure h

/-- Whatever a probe finds. -/
theorem attempt {what : Probe} {f : Option Nat → Move β} (hallows : e.Allows what.rule s.read)
    (h : ∀ width, what.Finds source s.read width → (f width).Gets source e Q s) :
    (Move.attempt what >>= f).Gets source e Q s := by
  obtain ⟨width, hfinds⟩ : ∃ width, what.Finds source s.read width := by
    by_cases hfound : ∃ width, what.Finds source s.read (some width)
    · obtain ⟨width, hfinds⟩ := hfound
      exact ⟨some width, hfinds⟩
    · refine ⟨none, fun parts j htakes => hfound ⟨j - s.read, parts, ?_⟩⟩
      rwa [Nat.add_sub_cancel' htakes.le]
  obtain ⟨b, s', hleads, hQ⟩ := h width hfinds
  exact ⟨b, s', ⟨width, hallows, hfinds, hleads⟩, hQ⟩

end Move.Gets

namespace Move.Cycles

variable {body : Move Bool} {Q : Stand → Prop}

/-- The last turn. -/
theorem stop (h : body.Gets source e (fun more s' => more = false ∧ Q s') s) :
    body.Cycles source e Q s := by
  obtain ⟨more, s', hbody, rfl, hQ⟩ := h
  exact ⟨s', .last hbody, hQ⟩

/-- A turn that reads something, and more turns. -/
theorem go (h : body.Gets source e
      (fun more s' => more = true ∧ s.read < s'.read ∧ body.Cycles source e Q s') s) :
    body.Cycles source e Q s := by
  obtain ⟨more, s₁, hbody, rfl, hforward, s', hturns, hQ⟩ := h
  exact ⟨s', .more hbody hforward hturns, hQ⟩

end Move.Cycles

namespace Move.Gets

variable {body : Move Bool}

/-- A loop at the end. -/
theorem loop {Q : Stand → Prop} (h : body.Cycles source e Q s) :
    (Move.loop body).Gets source e (fun _ => Q) s := by
  obtain ⟨s', hturns, hQ⟩ := h
  exact ⟨(), s', ⟨s', hturns, rfl, rfl⟩, hQ⟩

/-- A loop, and more moves. -/
theorem loopThen {f : Unit → Move β} {Q : β → Stand → Prop}
    (h : body.Cycles source e (fun s' => (f ()).Gets source e Q s') s) :
    (Move.loop body >>= f).Gets source e Q s := .bind (.loop h)

/-- A turn of a loop that reads something, and the loop from there on. -/
theorem again {Q : Unit → Stand → Prop} (h : body.Gets source e
      (fun more s' => more = true ∧ s.read < s'.read ∧ (Move.loop body).Gets source e Q s') s) :
    (Move.loop body).Gets source e Q s := by
  obtain ⟨more, s₁, hbody, rfl, hforward, a, s₂, ⟨s₃, hturns, rfl, rfl⟩, hQ⟩ := h
  exact ⟨(), s₂, ⟨s₂, .more hbody hforward hturns, rfl, rfl⟩, hQ⟩

end Move.Gets

/-! ### What is left -/

/-- The state of moves that stand somewhere and have found nothing yet. -/
def Stand.state (s : Stand) : State := ⟨s.read, 0, s.parts, []⟩

/-- Moves stand in front of some symbols, with some parts read. -/
def Faces (ss : List Symbol) (parts : List Tree) (rest : List Symbol) (s : Stand) : Prop :=
  Stands ss parts rest s.state

/-- A rule reads some symbols wherever some others are left behind them. -/
def Rule.Matches (ss : List Symbol) (r : Rule) (front : List Symbol) (parts : List Tree)
    (rest : List Symbol) : Prop :=
  ∀ i, ss.drop i = front ++ rest → r.Takes (.ofSymbols ss) i parts (i + front.length)

/-- A rule was entered where some symbols were left. -/
def Entered (ss : List Symbol) (e : Entry) (total : List Symbol) : Prop := ss.drop e.2 = total

namespace Faces

theorem at_eq (h : Faces ss parts rest s) (n : Nat) :
    ((Source.ofSymbols ss).view s).at_ n = rest[n]?.getD .final := Stands.at_eq h n

theorem kindAt_eq (h : Faces ss parts rest s) (n : Nat) :
    ((Source.ofSymbols ss).view s).kindAt n = kindAhead rest n := Stands.kindAt_eq h n

theorem kind_eq (h : Faces ss parts rest s) :
    ((Source.ofSymbols ss).view s).kind = kindAhead rest 0 := Stands.kind_eq h

theorem isAt_eq (h : Faces ss parts rest s) (kind : TokenKind) :
    ((Source.ofSymbols ss).view s).isAt kind = (kindAhead rest 0 == kind) := Stands.isAt_eq h kind

theorem drop_eq (h : Faces ss parts rest s) : ss.drop s.read = rest := h.rest_eq

theorem closingParen_eq (h : Faces ss parts rest s) :
    ((Source.ofSymbols ss).view s).closingParen = Ahead.closing 0 rest :=
  congrArg (Ahead.closing 0) h.drop_eq

/-- Where fewer symbols are left, more have been read. -/
theorem read_lt_read {parts' : List Tree} {rest' : List Symbol} {s' : Stand}
    (h : Faces ss parts rest s) (h' : Faces ss parts' rest' s')
    (hlt : rest'.length < rest.length) : s.read < s'.read := Stands.read_lt_read h h' hlt

/-! ### Moves -/

variable {Q : β → Stand → Prop} {f : Unit → Move β}

theorem take {x : Symbol} (h : Faces ss parts (x :: rest) s) (hx : (x.kind == .eof) = false)
    (k : ∀ {s'}, Faces ss (.leaf x.token :: parts) rest s' →
      (f ()).Gets (.ofSymbols ss) e Q s') :
    (Move.take >>= f).Gets (.ofSymbols ss) e Q s := by
  have ht : (Source.ofSymbols ss).tokenAt s.read = x.token := by
    have hat : (Source.ofSymbols ss).tokens[s.read]? = some x.token := Stands.token_eq h 0
    rw [Source.tokenAt, hat]
    rfl
  have hfaces : Faces ss (.leaf x.token :: parts) rest ⟨s.read + 1, .leaf x.token :: s.parts⟩ := by
    refine ⟨congrArg _ h.parts_eq, ?_⟩
    change ss.drop (s.read + 1) = rest
    rw [← List.drop_drop, h.drop_eq]
    rfl
  obtain ⟨b, s', hleads, hQ⟩ := k hfaces
  refine ⟨b, s', ⟨?_, ?_⟩, hQ⟩
  · rw [ht]
    exact beq_eq_false_iff_ne.mp hx
  · rw [ht]
    exact hleads

theorem takeLast {x : Symbol} (h : Faces ss parts (x :: rest) s) (hx : (x.kind == .eof) = false) :
    Move.take.Gets (.ofSymbols ss) e (fun _ => Faces ss (.leaf x.token :: parts) rest) s :=
  h.take (f := fun _ => pure ()) hx fun h => .pure h

theorem expectLast {x : Symbol} {kind : TokenKind} (h : Faces ss parts (x :: rest) s)
    (hx : x.kind = kind) (hkind : (kind == .eof) = false) :
    (Move.expect kind).Gets (.ofSymbols ss) e (fun _ => Faces ss (.leaf x.token :: parts) rest) s := by
  have hat : ((Source.ofSymbols ss).view s).isAt kind = true := by
    rw [h.isAt_eq]
    exact beq_iff_eq.mpr hx
  change (if ((Source.ofSymbols ss).view s).isAt kind then Move.take else _ : Move Unit).Gets ..
  rw [if_pos hat]
  exact h.takeLast (hx ▸ hkind)

theorem expect {x : Symbol} {kind : TokenKind} (h : Faces ss parts (x :: rest) s)
    (hx : x.kind = kind) (hkind : (kind == .eof) = false)
    (k : ∀ {s'}, Faces ss (.leaf x.token :: parts) rest s' →
      (f ()).Gets (.ofSymbols ss) e Q s') :
    (Move.expect kind >>= f).Gets (.ofSymbols ss) e Q s :=
  .bind ((h.expectLast hx hkind).mono fun _ _ h => k h)

/-- A symbol that may be there is. -/
theorem eat {x : Symbol} {kind : TokenKind} {f : Bool → Move β} (h : Faces ss parts (x :: rest) s)
    (hx : x.kind = kind) (hkind : (kind == .eof) = false)
    (k : ∀ {s'}, Faces ss (.leaf x.token :: parts) rest s' →
      (f true).Gets (.ofSymbols ss) e Q s') :
    (Move.eat kind >>= f).Gets (.ofSymbols ss) e Q s := by
  refine .bind (.isAt ?_)
  rw [h.isAt_eq, show (kindAhead (x :: rest) 0 == kind) = true from beq_iff_eq.mpr hx]
  exact h.take (hx ▸ hkind) fun h => .pure (k h)

/-- A symbol that may be there is not. -/
theorem eatNone {kind : TokenKind} {f : Bool → Move β} (h : Faces ss parts rest s)
    (hkind : (kindAhead rest 0 == kind) = false) (k : (f false).Gets (.ofSymbols ss) e Q s) :
    (Move.eat kind >>= f).Gets (.ofSymbols ss) e Q s := by
  refine .bind (.isAt ?_)
  rw [h.isAt_eq, hkind]
  exact .pure k

theorem close {kind : Phrase} (h : Faces ss parts rest s)
    (k : ∀ {s'}, Faces ss [kind.over parts.reverse] rest s' →
      (f ()).Gets (.ofSymbols ss) e Q s') :
    (Move.close kind >>= f).Gets (.ofSymbols ss) e Q s := by
  have hfaces : Faces ss [kind.over parts.reverse] rest
      ⟨s.read, [Tree.ofParts kind s.parts.reverse ((Source.ofSymbols ss).location s.read)]⟩ := by
    refine ⟨?_, h.rest_eq⟩
    change [Tree.ofParts kind s.parts.reverse _] = _
    rw [Source.location_ofSymbols, show s.parts = parts from h.parts_eq]
    rfl
  obtain ⟨b, s', hleads, hQ⟩ := k hfaces
  exact ⟨b, s', hleads, hQ⟩

theorem read {r : Rule} (h : Faces ss parts (front ++ rest) s) (hr : r.Matches ss front ps rest)
    (hallows : e.Allows r s.read)
    (k : ∀ {s'}, Faces ss (ps ++ parts) rest s' → (f ()).Gets (.ofSymbols ss) e Q s') :
    (Move.read r >>= f).Gets (.ofSymbols ss) e Q s := by
  have hfaces : Faces ss (ps ++ parts) rest ⟨s.read + front.length, ps ++ s.parts⟩ := by
    refine ⟨congrArg _ h.parts_eq, ?_⟩
    change ss.drop (s.read + front.length) = rest
    rw [← List.drop_drop, h.drop_eq, List.drop_left]
  obtain ⟨b, s', hleads, hQ⟩ := k hfaces
  exact ⟨b, s', ⟨ps, _, hallows, hr s.read h.drop_eq, hleads⟩, hQ⟩

/-- A rule that reads nothing where some symbols are left. -/
theorem readNone {r : Rule} (h : Faces ss parts rest s) (hr : r.Matches ss [] [] rest)
    (hallows : e.Allows r s.read)
    (k : ∀ {s'}, Faces ss parts rest s' → (f ()).Gets (.ofSymbols ss) e Q s') :
    (Move.read r >>= f).Gets (.ofSymbols ss) e Q s :=
  have h : Faces ss parts ([] ++ rest) s := h
  h.read hr hallows k

/-- A probe finds what its rule reads. -/
theorem attempt {what : Probe} {f : Option Nat → Move β} (h : Faces ss parts (front ++ rest) s)
    (hr : what.rule.Matches ss front ps rest) (hallows : e.Allows what.rule s.read)
    (k : (f (some front.length)).Gets (.ofSymbols ss) e Q s) :
    (Move.attempt what >>= f).Gets (.ofSymbols ss) e Q s := by
  obtain ⟨b, s', hleads, hQ⟩ := k
  exact ⟨b, s', ⟨some front.length, hallows, ⟨ps, hr s.read h.drop_eq⟩, hleads⟩, hQ⟩

/-! ### Moves at the end -/

theorem closeLast {kind : Phrase} (h : Faces ss parts rest s) (hparts : parts.reverse = ps) :
    (Move.close kind).Gets (.ofSymbols ss) e (fun _ => Faces ss [kind.over ps] rest) s := by
  subst hparts
  exact h.close (f := fun _ => pure ()) (Q := fun _ => Faces ss [kind.over parts.reverse] rest)
    fun h => .pure h

theorem readLast {r : Rule} (h : Faces ss parts (front ++ rest) s)
    (hr : r.Matches ss front ps rest) (hallows : e.Allows r s.read) :
    (Move.read r).Gets (.ofSymbols ss) e (fun _ => Faces ss (ps ++ parts) rest) s :=
  h.read (f := fun _ => pure ()) hr hallows fun h => .pure h

end Faces

/-! ### Rules -/

namespace Entered

variable {total : List Symbol} {r r' : Rule} {i : Nat}

/-- Behind a symbol any rule may be read. -/
theorem fewer (he : Entered ss e total) (h : Faces ss parts rest s)
    (hlt : rest.length < total.length) : e.Allows r s.read := by
  have hrest := congrArg List.length h.drop_eq
  have htotal := congrArg List.length he
  rw [List.length_drop] at hrest htotal
  exact .inl (by omega)

/-- Where a rule was entered, it may have one of lower rank read. -/
theorem same (he : Entered ss (r', i) total) (h : Faces ss parts total s) (hne : total ≠ [])
    (hrank : r.rank < r'.rank) : Entry.Allows (r', i) r s.read := by
  have hrest := congrArg List.length h.drop_eq
  have htotal := congrArg List.length he
  rw [List.length_drop] at hrest htotal
  have hpos := List.length_pos_iff.mpr hne
  exact .inr ⟨by omega, hrank⟩

end Entered

/-- In front of some symbols of a scanned source the end has not been read. -/
theorem Scanned.clear_of_drop {i : Nat} (hscan : Scanned ss) (hi : ss.drop i ≠ []) :
    (Source.ofSymbols ss).Clear i := by
  have hlt : i < ss.length := Nat.lt_of_not_le fun hle => hi (List.drop_eq_nil_of_le hle)
  have hscan' : Scanned (ss.take i ++ ss.drop i) := by rwa [List.take_append_drop]
  have hclear := hscan'.clear hi
  rwa [List.take_append_drop, List.length_take_of_le (Nat.le_of_lt hlt)] at hclear

/-- How far on fewer symbols are left. -/
theorem eq_add_of_drop {i j : Nat} (hi : ss.drop i = front ++ rest) (hj : ss.drop j = rest)
    (hrest : rest ≠ []) : j = i + front.length := by
  have hdrop := congrArg List.length hj
  have htotal := congrArg List.length hi
  have hpos := List.length_pos_iff.mpr hrest
  rw [List.length_append] at htotal
  rw [List.length_drop] at hdrop htotal
  omega

theorem Rule.Matches.of_production {r : Rule} (hscan : Scanned ss) (hrest : rest ≠ [])
    (h : ∀ i s, Entered ss (r, i) (front ++ rest) → Faces ss [] (front ++ rest) s →
      r.production.Gets (.ofSymbols ss) (r, i) (fun _ => Faces ss parts rest) s) :
    r.Matches ss front parts rest := by
  intro i hi
  have hclear : (Source.ofSymbols ss).Clear i := hscan.clear_of_drop (by
    rw [hi]
    exact List.append_ne_nil_of_right_ne_nil _ hrest)
  obtain ⟨_, ⟨j, parts'⟩, hleads, hfaces⟩ := h i ⟨i, []⟩ hi ⟨rfl, hi⟩
  obtain rfl : parts' = parts := hfaces.parts_eq
  obtain rfl : j = i + front.length := eq_add_of_drop hi hfaces.drop_eq hrest
  exact (Rule.takes_iff hscan.whole hclear).mpr hleads

/-- What a rule reads, it takes. -/
theorem Rule.Matches.of_reads {r : Rule} (hscan : Scanned ss) (hexpects : ∀ kind, r.Expects kind)
    (hrest : rest ≠ []) (h : r.Reads ss front parts rest) : r.Matches ss front parts rest := by
  intro i hi
  have hclear : (Source.ofSymbols ss).Clear i := hscan.clear_of_drop (by
    rw [hi]
    exact List.append_ne_nil_of_right_ne_nil _ hrest)
  obtain ⟨⟨j, depth, parts', memo⟩, hs, enough, hrun⟩ := h ⟨i, 0, [], []⟩ ⟨rfl, hi⟩ Source.knows_nil
  obtain rfl : parts' = parts := hs.parts_eq
  obtain rfl : j = i + front.length := eq_add_of_drop hi hs.rest_eq hrest
  exact (Rule.takes_iff_run hscan.whole (hexpects _) hclear).mpr
    ⟨enough, fun limit hle => ⟨depth, memo, hrun limit hle⟩⟩

end JavaSource.Grammar
