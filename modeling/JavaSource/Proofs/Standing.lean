import JavaSource.Proofs.Lexing
import JavaSource.Proofs.Reaching

/-!
# Reading a source symbol by symbol

Where a source is a list of symbols, a state of reading is known by the parts that it holds and by
the symbols that are left (`Stands`).  `Rule.Reads` says that a rule reads some symbols in front of
some others, and which parts that makes.

The moves of a rule are followed from one such state to the next: `Stands.take`, `Stands.read`,
`Stands.close` and so on.  What a rule may read in turn is told by the room it leaves (`Room`): any
rule if fewer symbols are left, else one of lower rank.
-/

namespace JavaSource.Grammar

variable {ss rest front : List Symbol} {parts ps : List Tree} {s : State} {bound : Nat}
variable {α β : Type}

/-- Reading stands in front of some symbols, with some parts read. -/
structure Stands (ss : List Symbol) (parts : List Tree) (rest : List Symbol) (s : State) :
    Prop where
  parts_eq : s.parts = parts
  rest_eq : ss.drop s.read = rest

/-- A rule reads what is in front of the rest. -/
def Rule.Reads (ss : List Symbol) (r : Rule) (front : List Symbol) (parts : List Tree)
    (rest : List Symbol) : Prop :=
  ∀ s, Stands ss [] (front ++ rest) s → r.Reaches (.ofSymbols ss) (Stands ss parts rest) s

/-- The kind of a symbol some places ahead. -/
def kindAhead (rest : List Symbol) (n : Nat) : TokenKind := (rest[n]?.getD .final).kind

namespace Source

theorem getElem?_ofSymbols (i : Nat) :
    (ofSymbols ss).tokens[i]? = ss[i]?.map Symbol.token := by
  rw [ofSymbols, List.getElem?_toArray, List.getElem?_map]

theorem size_ofSymbols : (ofSymbols ss).tokens.size = ss.length := by
  rw [ofSymbols, List.size_toArray, List.length_map]

theorem location_ofSymbols (i : Nat) : (ofSymbols ss).location i = default := by
  rw [location, getElem?_ofSymbols]
  cases ss[i]? <;> rfl

end Source

/-! ### Room -/

/-- There is room to read any rule of lower rank where some symbols are left, and any rule where
fewer are. -/
def Room (bound : Nat) (rest : List Symbol) (rank : Nat) : Prop :=
  rest.length * Rule.ranks + rank ≤ bound

theorem Room.same {rank : Nat} {r : Rule} (h : Room bound rest rank) (hr : r.rank < rank) :
    rest.length * Rule.ranks + r.rank < bound :=
  Nat.lt_of_lt_of_le (Nat.add_lt_add_left hr _) h

theorem Room.fewer {rank : Nat} {r : Rule} {rest' : List Symbol} (h : Room bound rest rank)
    (hlt : rest'.length < rest.length) : rest'.length * Rule.ranks + r.rank < bound := by
  have hrank := r.rank_lt_ranks
  have hmul : (rest'.length + 1) * Rule.ranks ≤ rest.length * Rule.ranks :=
    Nat.mul_le_mul_right _ hlt
  rw [Nat.add_mul] at hmul
  unfold Room at h
  omega

theorem Room.fewer' {rank rank' : Nat} {rest' : List Symbol} (h : Room bound rest rank)
    (hlt : rest'.length < rest.length) (hrank : rank' ≤ Rule.ranks) : Room bound rest' rank' := by
  have hmul : (rest'.length + 1) * Rule.ranks ≤ rest.length * Rule.ranks :=
    Nat.mul_le_mul_right _ hlt
  rw [Nat.add_mul] at hmul
  unfold Room at h ⊢
  omega

namespace Stands

/-! ### What lies ahead -/

theorem at_eq (h : Stands ss parts rest s) (n : Nat) :
    ((Source.ofSymbols ss).ahead s).at_ n = rest[n]?.getD .final := by
  have hsymbols : ((Source.ofSymbols ss).ahead s).at_ n = ss[s.read + n]?.getD .final := by
    rw [Ahead.at_, Source.ahead, Source.ofSymbols, List.getElem?_toArray]
  rw [hsymbols, ← h.rest_eq, List.getElem?_drop]

theorem kindAt_eq (h : Stands ss parts rest s) (n : Nat) :
    ((Source.ofSymbols ss).ahead s).kindAt n = kindAhead rest n := by
  rw [Ahead.kindAt, h.at_eq, kindAhead]

theorem kind_eq (h : Stands ss parts rest s) :
    ((Source.ofSymbols ss).ahead s).kind = kindAhead rest 0 := h.kindAt_eq 0

theorem isAt_eq (h : Stands ss parts rest s) (kind : TokenKind) :
    ((Source.ofSymbols ss).ahead s).isAt kind = (kindAhead rest 0 == kind) := by
  rw [Ahead.isAt, h.kind_eq]

theorem read_lt (h : Stands ss parts rest s) (hrest : rest ≠ []) :
    s.read < (Source.ofSymbols ss).tokens.size := by
  rw [Source.size_ofSymbols]
  rw [← h.rest_eq] at hrest
  exact Nat.lt_of_not_le fun hle => hrest (List.drop_eq_nil_of_le hle)

theorem length_eq (h : Stands ss parts rest s) : rest.length = ss.length - s.read := by
  rw [← h.rest_eq, List.length_drop]

theorem work_eq (h : Stands ss parts rest s) (r : Rule) :
    (Source.ofSymbols ss).work r s.read = rest.length * Rule.ranks + r.rank := by
  rw [Source.work, Source.size_ofSymbols, h.length_eq]

/-- Where fewer symbols are left, more have been read. -/
theorem read_lt_read {parts' : List Tree} {rest' : List Symbol} {s' : State}
    (h : Stands ss parts rest s) (h' : Stands ss parts' rest' s')
    (hlt : rest'.length < rest.length) : s.read < s'.read := by
  rw [h.length_eq, h'.length_eq] at hlt
  omega

/-! ### Moves -/

variable {Q : β → State → Prop} {f : Unit → Move β}

theorem nest (h : Stands ss parts rest s)
    (k : ∀ {s'}, Stands ss parts rest s' → (f ()).Reaches (.ofSymbols ss) bound Q s') :
    (Move.nest >>= f).Reaches (.ofSymbols ss) bound Q s :=
  .nest (k ⟨h.parts_eq, h.rest_eq⟩)

theorem token_eq (h : Stands ss parts rest s) (n : Nat) :
    (Source.ofSymbols ss).tokens[s.read + n]? = rest[n]?.map Symbol.token := by
  rw [Source.getElem?_ofSymbols, ← h.rest_eq, List.getElem?_drop]

theorem take {x : Symbol} (h : Stands ss parts (x :: rest) s) (hx : x.kind ≠ .eof)
    (k : ∀ {s'}, Stands ss (.leaf x.token :: parts) rest s' →
      (f ()).Reaches (.ofSymbols ss) bound Q s') :
    (Move.take >>= f).Reaches (.ofSymbols ss) bound Q s := by
  refine .take (h.token_eq 0) hx (k ⟨?_, ?_⟩)
  · exact congrArg _ h.parts_eq
  · rw [← List.drop_drop, h.rest_eq]
    rfl

theorem expect {x : Symbol} {kind : TokenKind} (h : Stands ss parts (x :: rest) s)
    (hx : x.kind = kind) (hkind : kind ≠ .eof)
    (k : ∀ {s'}, Stands ss (.leaf x.token :: parts) rest s' →
      (f ()).Reaches (.ofSymbols ss) bound Q s') :
    (Move.expect kind >>= f).Reaches (.ofSymbols ss) bound Q s := by
  have hat : ((Source.ofSymbols ss).ahead s).isAt kind = true := by
    rw [h.isAt_eq]
    exact beq_iff_eq.mpr hx
  change (Move.look fun a => (if a.isAt kind then Move.take else _) >>= f).Reaches _ _ _ s
  change ((if ((Source.ofSymbols ss).ahead s).isAt kind then Move.take else _) >>= f).Reaches ..
  rw [if_pos hat]
  exact h.take (hx ▸ hkind) k

theorem close {kind : Phrase} (h : Stands ss parts rest s)
    (k : ∀ {s'}, Stands ss [Tree.ofParts kind parts.reverse default] rest s' →
      (f ()).Reaches (.ofSymbols ss) bound Q s') :
    (Move.close kind >>= f).Reaches (.ofSymbols ss) bound Q s := by
  refine .close (k ⟨?_, h.rest_eq⟩)
  rw [h.parts_eq, Source.location_ofSymbols]

theorem read {r : Rule} (h : Stands ss parts (front ++ rest) s) (hr : r.Reads ss front ps rest)
    (hwork : (front ++ rest).length * Rule.ranks + r.rank < bound)
    (k : ∀ {s'}, Stands ss (ps ++ parts) rest s' → (f ()).Reaches (.ofSymbols ss) bound Q s') :
    (Move.read r >>= f).Reaches (.ofSymbols ss) bound Q s := by
  refine .read (by rwa [h.work_eq]) fun hs => ?_
  obtain ⟨s', hstands, hrun⟩ := hr { s with parts := [] } ⟨rfl, h.rest_eq⟩ hs
  exact ⟨s', k ⟨by rw [hstands.parts_eq, h.parts_eq], hstands.rest_eq⟩, hrun⟩

/-! ### Moves at the end -/

theorem takeLast {x : Symbol} (h : Stands ss parts (x :: rest) s) (hx : x.kind ≠ .eof) :
    Move.take.Reaches (.ofSymbols ss) bound
      (fun _ => Stands ss (.leaf x.token :: parts) rest) s := by
  change (Move.take >>= fun _ => pure ()).Reaches ..
  exact h.take hx fun h => .pure h

theorem closeLast {kind : Phrase} (h : Stands ss parts rest s) :
    (Move.close kind).Reaches (.ofSymbols ss) bound
      (fun _ => Stands ss [Tree.ofParts kind parts.reverse default] rest) s := by
  change (Move.close kind >>= fun _ => pure ()).Reaches ..
  exact h.close fun h => .pure h

theorem closeAs {kind : Phrase} (h : Stands ss parts rest s) (hparts : parts.reverse = ps) :
    (Move.close kind).Reaches (.ofSymbols ss) bound
      (fun _ => Stands ss [Tree.ofParts kind ps default] rest) s :=
  hparts ▸ h.closeLast

theorem readLast {r : Rule} (h : Stands ss parts (front ++ rest) s) (hr : r.Reads ss front ps rest)
    (hwork : (front ++ rest).length * Rule.ranks + r.rank < bound) :
    (Move.read r).Reaches (.ofSymbols ss) bound (fun _ => Stands ss (ps ++ parts) rest) s :=
  h.read (f := fun _ => pure ()) hr hwork fun h => .pure h

end Stands

theorem Rule.Reads.of_production {r : Rule}
    (h : ∀ bound s, Stands ss [] (front ++ rest) s → Room bound (front ++ rest) r.rank →
      r.production.Reaches (.ofSymbols ss) bound (fun _ => Stands ss parts rest) s) :
    r.Reads ss front parts rest := fun s hs =>
  .of_production (h _ s hs (Nat.le_of_eq (hs.work_eq r).symm))

end JavaSource.Grammar
