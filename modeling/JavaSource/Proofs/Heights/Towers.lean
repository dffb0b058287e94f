import JavaSource.Grammar.Production
import JavaSource.Proofs.Heights.Climbing
import JavaSource.Proofs.Operators.Scanned
import JavaSource.Proofs.Parsing

/-!
# Trees of any height without a level

`enum A{;enum A{; … }}` nests as deep as one likes, and no rule on the way takes a level.  So it is
read under every limit, the limit 0 included.

What is read here without a level is followed under a limit (`Move.Ends`), with an eye to the
height of what has been read and to the symbols that are left (`Piled`).

* `tower_piles`: a declaration of enumerations in one another's bodies is read under every limit.
* **`exists_higher`**: so under every limit there are trees of any height.
-/

namespace JavaSource

open Grammar

namespace Tree

variable {ts us : List Tree}

theorem heightAll_append : heightAll (ts ++ us) = max (heightAll ts) (heightAll us) := by
  induction ts with
  | nil => exact (Nat.zero_max _).symm
  | cons t ts ih => rw [List.cons_append, heightAll, heightAll, ih, Nat.max_assoc]

theorem heightAll_reverse : heightAll ts.reverse = heightAll ts := by
  induction ts with
  | nil => rfl
  | cons t ts ih =>
    rw [List.reverse_cons, heightAll_append, ih, heightAll, heightAll, heightAll, Nat.max_zero,
      Nat.max_comm]

mutual

theorem height_unplaced : (t : Tree) → t.unplaced.height = t.height
  | leaf _        => rfl
  | node _ ps _ _ => congrArg (· + 1) (heightAll_unplaced ps)

theorem heightAll_unplaced : (ts : List Tree) → heightAll (unplacedAll ts) = heightAll ts
  | []      => rfl
  | t :: ts => by rw [unplacedAll, heightAll, heightAll, height_unplaced t, heightAll_unplaced ts]

end

end Tree

namespace Grammar

variable {ss rest front : List Symbol} {limit bound n high : Nat} {s : State} {α β : Type}

/-! ### Piling up -/

/-- Reading stands in front of some symbols, with parts of at least some height. -/
structure Piled (ss : List Symbol) (n : Nat) (rest : List Symbol) (s : State) : Prop where
  high : n ≤ Tree.heightAll s.parts
  rest_eq : ss.drop s.read = rest

theorem Piled.stands (h : Piled ss n rest s) : Stands ss s.parts rest s := ⟨rfl, h.rest_eq⟩

/-- Under a limit, a rule reads what is in front of the rest, and comes to some height. -/
def Rule.Piles (ss : List Symbol) (limit : Nat) (r : Rule) (front : List Symbol) (high : Nat)
    (rest : List Symbol) : Prop :=
  ∀ s, Stands ss [] (front ++ rest) s →
    ∃ s', r.run (.ofSymbols ss) limit s = .done () s' ∧ Piled ss high rest s'

/-- Moves come to an end under a limit. -/
def Move.Ends (ss : List Symbol) (limit bound : Nat) (m : Move α) (Q : α → State → Prop)
    (s : State) : Prop :=
  ∃ a s', m.run (.ofSymbols ss) limit ((Source.ofSymbols ss).others limit bound) s = .done a s' ∧
    Q a s'

theorem Move.Ends.pure {a : α} {Q : α → State → Prop} (h : Q a s) :
    (Pure.pure a : Move α).Ends ss limit bound Q s := ⟨a, s, rfl, h⟩

theorem Move.Ends.bind {m : Move α} {f : α → Move β} {Q : β → State → Prop}
    (h : m.Ends ss limit bound (fun a s' => (f a).Ends ss limit bound Q s') s) :
    (m >>= f).Ends ss limit bound Q s := by
  obtain ⟨a, s₁, hrun₁, b, s₂, hrun₂, hQ⟩ := h
  exact ⟨b, s₂, by rw [m.run_bind, hrun₁]; exact hrun₂, hQ⟩

theorem Move.Ends.mono {m : Move α} {Q Q' : α → State → Prop} (h : m.Ends ss limit bound Q s)
    (hQ : ∀ a s', Q a s' → Q' a s') : m.Ends ss limit bound Q' s := by
  obtain ⟨a, s', hrun, hend⟩ := h
  exact ⟨a, s', hrun, hQ a s' hend⟩

/-- A loop that goes around once. -/
theorem Move.Ends.once {body : Move Bool} {f : Unit → Move β} {Q : β → State → Prop}
    (h : body.Ends ss limit bound (fun more s₁ => more = true ∧ s.read < s₁.read ∧
      s₁.read < ss.length ∧ body.Ends ss limit bound (fun more s₂ => more = false ∧
        (f ()).Ends ss limit bound Q s₂) s₁) s) :
    (Move.loop body >>= f).Ends ss limit bound Q s := by
  obtain ⟨_, s₁, hrun₁, rfl, hlt, hsize, _, s₂, hrun₂, rfl, b, s', hrun, hQ⟩ := h
  refine ⟨b, s', ?_, hQ⟩
  obtain ⟨fuel, hfuel⟩ : ∃ fuel, (Source.ofSymbols ss).tokens.size = fuel + 2 :=
    ⟨ss.length - 2, by rw [Source.size_ofSymbols]; omega⟩
  change (Move.iterate body (f ())).run _ _ _ s = _
  simp only [Move.run, hfuel, Outcome.iterate, hrun₁, if_pos hlt, hrun₂]
  exact hrun

/-- A loop that does not go around. -/
theorem Move.Ends.never {body : Move Bool} {f : Unit → Move β} {Q : β → State → Prop}
    (h : body.Ends ss limit bound (fun more s₁ => more = false ∧
      (f ()).Ends ss limit bound Q s₁) s) (hsize : s.read < ss.length) :
    (Move.loop body >>= f).Ends ss limit bound Q s := by
  obtain ⟨_, s₁, hrun₁, rfl, b, s', hrun, hQ⟩ := h
  refine ⟨b, s', ?_, hQ⟩
  obtain ⟨fuel, hfuel⟩ : ∃ fuel, (Source.ofSymbols ss).tokens.size = fuel + 1 :=
    ⟨ss.length - 1, by rw [Source.size_ofSymbols]; omega⟩
  change (Move.iterate body (f ())).run _ _ _ s = _
  simp only [Move.run, hfuel, Outcome.iterate, hrun₁]
  exact hrun

/-- Moves that are provided for. -/
theorem Move.Ends.provided {allows : Ahead → Bool} {moves : Move Unit} {f : Unit → Move β}
    {Q : β → State → Prop} (hallows : allows ((Source.ofSymbols ss).ahead s) = true)
    (h : (moves >>= f).Ends ss limit bound Q s) :
    (Move.provided allows moves >>= f).Ends ss limit bound Q s := by
  change ((if allows ((Source.ofSymbols ss).ahead s) then moves else Pure.pure ()) >>= f).Ends ..
  rwa [if_pos hallows]

/-- A rule that is read only behind a symbol that does not stand here. -/
theorem Move.Ends.notAfter {kind : TokenKind} {r : Rule} {f : Unit → Move β}
    {Q : β → State → Prop} (hkind : ((Source.ofSymbols ss).ahead s).isAt kind = false)
    (h : (f ()).Ends ss limit bound Q s) :
    (Move.readAfter kind r >>= f).Ends ss limit bound Q s := by
  change (((if ((Source.ofSymbols ss).ahead s).isAt kind then _ else Pure.pure false) >>=
    fun b => if b = true then Move.read r else Pure.pure ()) >>= f).Ends ..
  rwa [if_neg (Bool.eq_false_iff.mp hkind)]

/-- No rules between commas where what closes them stands. -/
theorem Move.Ends.noCommas {closer : Ahead → Bool} {r : Rule} {f : Unit → Move β}
    {Q : β → State → Prop} (hcloser : closer ((Source.ofSymbols ss).ahead s) = true)
    (hsize : s.read < ss.length) (h : (f ()).Ends ss limit bound Q s) :
    (Move.commasUpTo closer r >>= f).Ends ss limit bound Q s := by
  refine .never ?_ hsize
  change (if closer ((Source.ofSymbols ss).ahead s) then Pure.pure false else _ : Move Bool).Ends ..
  rw [if_pos hcloser]
  exact .pure ⟨rfl, h⟩

namespace Piled

variable {f : Unit → Move β} {Q : β → State → Prop}

theorem take {x : Symbol} (h : Piled ss n (x :: rest) s) (hx : x.kind ≠ .eof)
    (k : ∀ {s'}, Piled ss n rest s' → (f ()).Ends ss limit bound Q s') :
    (Move.take >>= f).Ends ss limit bound Q s := by
  have hbehind : Piled ss n rest { s with read := s.read + 1, parts := .leaf x.token :: s.parts } :=
    ⟨Nat.le_trans h.high (Nat.le_max_right ..), by
      rw [← List.drop_drop, h.rest_eq]
      rfl⟩
  obtain ⟨a, s', hrun, hQ⟩ := k hbehind
  refine ⟨a, s', ?_, hQ⟩
  have ht : (Source.ofSymbols ss).tokens[s.read]? = some x.token := h.stands.token_eq 0
  have hkind : x.token.kind ≠ .eof := hx
  change (Move.shift (f ())).run _ _ _ s = _
  simp only [Move.run, ht, if_neg hkind]
  exact hrun

theorem expect {x : Symbol} {kind : TokenKind} (h : Piled ss n (x :: rest) s) (hx : x.kind = kind)
    (hkind : kind ≠ .eof) (k : ∀ {s'}, Piled ss n rest s' → (f ()).Ends ss limit bound Q s') :
    (Move.expect kind >>= f).Ends ss limit bound Q s := by
  have hat : ((Source.ofSymbols ss).ahead s).isAt kind = true := by
    rw [h.stands.isAt_eq]
    exact beq_iff_eq.mpr hx
  change ((if ((Source.ofSymbols ss).ahead s).isAt kind then Move.take else _) >>= f).Ends ..
  rw [if_pos hat]
  exact h.take (hx ▸ hkind) k

theorem close {kind : Phrase} (h : Piled ss n rest s)
    (k : ∀ {s'}, Piled ss (n + 1) rest s' → (f ()).Ends ss limit bound Q s') :
    (Move.close kind >>= f).Ends ss limit bound Q s := by
  refine @k { s with parts := [Tree.ofParts kind s.parts.reverse _] } ⟨?_, h.rest_eq⟩
  have hhigh := h.high
  simp only [Tree.heightAll, Tree.ofParts, Tree.height, Tree.heightAll_reverse]
  omega

theorem read {r : Rule} (h : Piled ss n (front ++ rest) s) (hr : r.Piles ss limit front high rest)
    (hwork : (front ++ rest).length * Rule.ranks + r.rank < bound)
    (k : ∀ {s'}, Piled ss (max n high) rest s' → (f ()).Ends ss limit bound Q s') :
    (Move.read r >>= f).Ends ss limit bound Q s := by
  obtain ⟨s₁, hrun, hs₁⟩ := hr { s with parts := [] } ⟨rfl, h.rest_eq⟩
  have hother :
      (Source.ofSymbols ss).others limit bound r { s with parts := [] } = .done () s₁ := by
    rw [← hrun]
    exact if_pos (by rwa [h.stands.work_eq])
  have hbehind : Piled ss (max n high) rest
      { s with read := s₁.read, parts := s₁.parts ++ s.parts, memo := s₁.memo } := by
    refine ⟨?_, hs₁.rest_eq⟩
    rw [Tree.heightAll_append]
    exact Nat.max_le.mpr ⟨Nat.le_trans h.high (Nat.le_max_right ..),
      Nat.le_trans hs₁.high (Nat.le_max_left ..)⟩
  obtain ⟨a, s', hrun', hQ⟩ := k hbehind
  refine ⟨a, s', ?_, hQ⟩
  change (Move.call r (f ())).run _ _ _ s = _
  simp only [Move.run, hother]
  exact hrun'

theorem read_lt {x : Symbol} (h : Piled ss n (x :: rest) s) : s.read < ss.length :=
  Source.size_ofSymbols ▸ h.stands.read_lt (List.cons_ne_nil x rest)

/-- A rule as often as its symbols come, which is once. -/
theorem readOnce {more : Ahead → Bool} {r : Rule} {x : Symbol}
    (h : Piled ss n (front ++ x :: rest) s) (hr : r.Piles ss limit front high (x :: rest))
    (hfront : front ≠ []) (hwork : (front ++ x :: rest).length * Rule.ranks + r.rank < bound)
    (hmore : more ((Source.ofSymbols ss).ahead s) = true)
    (hstop : ∀ {n' s'}, Piled ss n' (x :: rest) s' → more ((Source.ofSymbols ss).ahead s') = false)
    (k : ∀ {s'}, Piled ss (max n high) (x :: rest) s' → (f ()).Ends ss limit bound Q s') :
    (Move.readWhile more r >>= f).Ends ss limit bound Q s := by
  refine .once ?_
  change (if more ((Source.ofSymbols ss).ahead s) then Move.read r >>= fun _ => pure true
    else _ : Move Bool).Ends ..
  rw [if_pos hmore]
  refine h.read hr hwork fun {s₁} hs₁ => .pure ⟨rfl, ?_, hs₁.read_lt, ?_⟩
  · refine h.stands.read_lt_read hs₁.stands ?_
    rw [List.length_append]
    exact Nat.lt_add_of_pos_left (List.length_pos_of_ne_nil hfront)
  · change (if more ((Source.ofSymbols ss).ahead s₁) then _ else pure false : Move Bool).Ends ..
    rw [if_neg (Bool.eq_false_iff.mp (hstop hs₁))]
    exact .pure ⟨rfl, k hs₁⟩

theorem closeLast {kind : Phrase} (h : Piled ss n rest s) (hle : high ≤ n + 1) :
    (Move.close kind).Ends ss limit bound (fun _ => Piled ss high rest) s := by
  change (Move.close kind >>= fun _ => pure ()).Ends ..
  exact h.close fun h => .pure ⟨Nat.le_trans hle h.high, h.rest_eq⟩

theorem readLast {r : Rule} (h : Piled ss n (front ++ rest) s)
    (hr : r.Piles ss limit front high rest)
    (hwork : (front ++ rest).length * Rule.ranks + r.rank < bound) :
    (Move.read r).Ends ss limit bound (fun _ => Piled ss high rest) s := by
  change (Move.read r >>= fun _ => pure ()).Ends ..
  exact h.read hr hwork fun h => .pure ⟨Nat.le_trans (Nat.le_max_right ..) h.high, h.rest_eq⟩

end Piled

theorem Rule.Piles.of_production {r : Rule}
    (h : ∀ bound s, Piled ss 0 (front ++ rest) s → Room bound (front ++ rest) r.rank →
      r.production.Ends ss limit bound (fun _ => Piled ss high rest) s) :
    r.Piles ss limit front high rest := fun s hs => by
  obtain ⟨_, s', hrun, hQ⟩ := h _ s ⟨Nat.zero_le _, hs.rest_eq⟩ (Nat.le_of_eq (hs.work_eq r).symm)
  exact ⟨s', (r.run_production s).trans hrun, hQ⟩

/-! ### Towers -/

/-- Enumerations in one another's bodies. -/
def tower : Nat → List Symbol
  | 0     => [TokenKind.semi.symbol]
  | n + 1 => TokenKind.enumKw.symbol :: ⟨.identifier, "A", false⟩ :: TokenKind.lbrace.symbol ::
      TokenKind.semi.symbol :: (tower n ++ [TokenKind.rbrace.symbol])

theorem modifiers_pile :
    Rule.modifiers.Piles ss limit [] 0 (TokenKind.enumKw.symbol :: rest) := by
  refine .of_production fun bound s hs _ => ?_
  have hat : ((Source.ofSymbols ss).ahead s).at_ 0 = TokenKind.enumKw.symbol := hs.stands.at_eq 0
  have hkind : ((Source.ofSymbols ss).ahead s).kind = .enumKw := congrArg Symbol.kind hat
  have hno : ((Source.ofSymbols ss).ahead s).startsModifier = false := by
    simp only [Ahead.startsModifier, Ahead.isAtModifierWord, Ahead.isSealed, Ahead.isAtWord,
      Ahead.startsAnnotation, Ahead.isAt, hat, hkind]
    rfl
  change (if ((Source.ofSymbols ss).ahead s).startsModifier then _ else _ : Move Unit).Ends ..
  rw [if_neg (Bool.eq_false_iff.mp hno)]
  exact .pure hs

theorem tower_ne_nil : tower n ≠ [] := by
  cases n <;> exact List.cons_ne_nil _ _

/-- A tower does not start as a body ends. -/
theorem isInBody_tower (h : Piled ss high (tower n ++ rest) s) :
    Production.isInBody ((Source.ofSymbols ss).ahead s) = true := by
  rw [Production.isInBody, h.stands.isAt_eq, h.stands.isAt_eq]
  cases n <;> rfl

theorem enumBody_piles (h : (Rule.classBodyDeclaration .member).Piles ss limit (tower n) high
      (TokenKind.rbrace.symbol :: rest)) :
    Rule.enumBody.Piles ss limit (TokenKind.lbrace.symbol :: TokenKind.semi.symbol ::
      (tower n ++ [TokenKind.rbrace.symbol])) high rest := by
  have hfront : TokenKind.lbrace.symbol :: TokenKind.semi.symbol ::
      (tower n ++ [TokenKind.rbrace.symbol]) ++ rest = TokenKind.lbrace.symbol ::
        TokenKind.semi.symbol :: (tower n ++ TokenKind.rbrace.symbol :: rest) := by
    simp only [List.cons_append, List.append_assoc, List.nil_append]
  refine .of_production fun bound s hs room => ?_
  rw [hfront] at hs room
  refine hs.expect rfl (by decide) fun {s₁} hs₁ => ?_
  have hsemi : ((Source.ofSymbols ss).ahead s₁).isAt .semi = true := hs₁.stands.isAt_eq .semi
  refine .noCommas (by rw [hsemi]; rfl) hs₁.read_lt (.provided hsemi ?_)
  change (Move.take >>= fun _ => Move.readWhile Production.isInBody (.classBodyDeclaration .member)
    >>= fun _ => Move.expect .rbrace >>= fun _ => Move.close .enumBody).Ends ..
  refine hs₁.take (by decide) fun {s₂} hs₂ => ?_
  have hwork : (tower n ++ TokenKind.rbrace.symbol :: rest).length * Rule.ranks +
      (Rule.classBodyDeclaration .member).rank < bound :=
    room.fewer (Nat.lt_add_of_pos_right Nat.two_pos)
  refine hs₂.readOnce h tower_ne_nil hwork (isInBody_tower hs₂) (fun hs₃ => ?_) fun hs₃ => ?_
  · rw [Production.isInBody, hs₃.stands.isAt_eq]
    rfl
  · exact hs₃.expect rfl (by decide) fun hs₄ => hs₄.closeLast (by omega)

theorem enumDeclaration_piles (setting : Setting)
    (h : (Rule.classBodyDeclaration .member).Piles ss limit (tower n) high
      (TokenKind.rbrace.symbol :: rest)) :
    (Rule.memberBody setting).Piles ss limit (tower (n + 1)) (high + 1) rest := by
  refine .of_production fun bound s hs room => ?_
  change Piled ss 0 (TokenKind.enumKw.symbol :: _) s at hs
  have hat (kind : TokenKind) : ((Source.ofSymbols ss).ahead s).isAt kind = (.enumKw == kind) :=
    hs.stands.isAt_eq kind
  change (if ((Source.ofSymbols ss).ahead s).isAt .classKw then _
    else if ((Source.ofSymbols ss).ahead s).isAt .interfaceKw then _
    else if ((Source.ofSymbols ss).ahead s).isAt .enumKw then Production.enumDeclaration
    else _ : Move Unit).Ends ..
  rw [if_neg (by rw [hat]; decide), if_neg (by rw [hat]; decide), if_pos (by rw [hat]; rfl)]
  refine hs.expect rfl (by decide) fun {s₁} hs₁ => hs₁.expect rfl (by decide) fun {s₂} hs₂ => ?_
  refine .notAfter (hs₂.stands.isAt_eq .implementsKw) ?_
  exact hs₂.read (enumBody_piles h) (room.fewer (by simp [tower])) fun hs₃ =>
    hs₃.closeLast (by omega)

theorem memberDeclaration_piles (setting : Setting)
    (h : (Rule.classBodyDeclaration .member).Piles ss limit (tower n) high
      (TokenKind.rbrace.symbol :: rest)) :
    (Rule.memberDeclaration setting).Piles ss limit (tower (n + 1)) (high + 1) rest := by
  refine .of_production fun bound s hs room => ?_
  have hs : Piled ss 0 ([] ++ (tower (n + 1) ++ rest)) s := hs
  refine hs.read modifiers_pile
    (room.same (r := .modifiers) (Nat.le_of_ble_eq_true rfl)) fun hs₁ => ?_
  exact hs₁.read (enumDeclaration_piles setting h)
    (room.same (Nat.le_of_ble_eq_true rfl)) fun hs₂ => hs₂.closeLast (by omega)

/-- **A tower is read without a level, as high as it is.** -/
theorem tower_piles (n : Nat) (setting : Setting) (rest : List Symbol) :
    (Rule.classBodyDeclaration setting).Piles ss limit (tower n) n rest := by
  induction n generalizing setting rest with
  | zero =>
    refine .of_production fun bound s hs room => ?_
    have hsemi : ((Source.ofSymbols ss).ahead s).isAt .semi = true := hs.stands.isAt_eq .semi
    change (if ((Source.ofSymbols ss).ahead s).isAt .semi then _ else _ : Move Unit).Ends ..
    rw [if_pos hsemi]
    exact hs.take (by decide) fun hs₁ => hs₁.closeLast (Nat.zero_le _)
  | succ n ih =>
    refine .of_production fun bound s hs room => ?_
    have hat (kind : TokenKind) : ((Source.ofSymbols ss).ahead s).isAt kind = (.enumKw == kind) :=
      hs.stands.isAt_eq kind
    change (if ((Source.ofSymbols ss).ahead s).isAt .semi then _
      else if ((Source.ofSymbols ss).ahead s).isAt .lbrace && _ then _
      else if ((Source.ofSymbols ss).ahead s).isAt .staticKw && _ && _ then _
      else _ : Move Unit).Ends ..
    rw [hat, hat, hat]
    exact hs.readLast (memberDeclaration_piles setting (ih .member _))
      (room.same (Nat.le_of_ble_eq_true rfl))

section Start

variable (h : Piled ss n (TokenKind.enumKw.symbol :: rest) s)
include h

theorem no_package :
    Production.startsPackage.Ends ss limit bound (fun b s' => b = false ∧ s = s') s := by
  change (if ((Source.ofSymbols ss).ahead s).isAt .packageKw then _
    else if ((Source.ofSymbols ss).ahead s).isAt .atSign && _ then _ else _ : Move Bool).Ends ..
  rw [h.stands.isAt_eq, h.stands.isAt_eq]
  exact .pure ⟨rfl, rfl⟩

theorem no_import : ((Source.ofSymbols ss).ahead s).isAt .importKw = false :=
  h.stands.isAt_eq .importKw

theorem no_module :
    Production.startsModule.Ends ss limit bound (fun b s' => b = false ∧ s = s') s := by
  have hmodule : Production.isAtModule ((Source.ofSymbols ss).ahead s) = false := by
    rw [Production.isAtModule, h.stands.at_eq]
    rfl
  change (if ((Source.ofSymbols ss).ahead s).isAt .atSign then _
    else pure (Production.isAtModule _) : Move Bool).Ends ..
  rw [h.stands.isAt_eq, hmodule]
  exact .pure ⟨rfl, rfl⟩

end Start

theorem anyDeclaration_piles {next : Unit → Move β} {Q : β → State → Prop}
    (h : Piled ss 0 (tower (n + 1) ++ rest) s)
    (hroom : Room bound (tower (n + 1) ++ rest) Rule.declarationStart.rank)
    (k : ∀ s', Piled ss (n + 1) rest s' → (next ()).Ends ss limit bound Q s') :
    (Production.anyDeclaration >>= next).Ends ss limit bound Q s := by
  refine .bind (.bind ((no_package h).mono ?_))
  rintro _ _ ⟨rfl, rfl⟩
  change (if ((Source.ofSymbols ss).ahead s).isAt .importKw then _ else _ : Move Unit).Ends ..
  rw [no_import h]
  refine .bind ((no_module h).mono ?_)
  rintro _ _ ⟨rfl, rfl⟩
  refine (h.readLast (tower_piles (n + 1) .alone rest)
    (hroom.same (Nat.le_of_ble_eq_true rfl))).mono fun _ s' hs' => k s' hs'

/-- A tower is a declaration, and there is nothing behind it. -/
theorem declarationStart_tower : ∃ s' t,
    Rule.declarationStart.run (.ofSymbols (tower (n + 1) ++ [.final])) limit ⟨0, 0, [], []⟩ =
      .done () s' ∧ s'.parts = [t] ∧ n < t.height := by
  have hs : Piled (tower (n + 1) ++ [.final]) 0 (tower (n + 1) ++ [.final]) ⟨0, 0, [], []⟩ :=
    ⟨Nat.zero_le _, rfl⟩
  have hbody : Rule.declarationStart.production.Ends (tower (n + 1) ++ [.final]) limit
      ((Source.ofSymbols (tower (n + 1) ++ [.final])).work .declarationStart 0)
      (fun _ s' => ∃ t, s'.parts = [t] ∧ n < t.height) ⟨0, 0, [], []⟩ := by
    refine anyDeclaration_piles hs (Nat.le_of_eq (hs.stands.work_eq _).symm) fun s₁ hs₁ => ?_
    refine .bind (m := Production.finish) ?_
    change (if !((Source.ofSymbols _).ahead s₁).isAt .eof then _ else _ : Move Unit).Ends ..
    rw [hs₁.stands.isAt_eq]
    refine .pure ⟨(), _, rfl, _, rfl, ?_⟩
    have hhigh := hs₁.high
    simp only [Tree.ofParts, Tree.height, Tree.heightAll_reverse]
    omega
  obtain ⟨_, s', hrun, t, hparts, hheight⟩ := hbody
  exact ⟨s', t, (Rule.run_production ..).trans hrun, hparts, hheight⟩

end Grammar

/-! ### The texts of towers -/

/-- Enumerations in one another's bodies. -/
def towerText : Nat → List Char
  | 0     => [';']
  | n + 1 => "enum A".toList ++ '\x7b' :: ';' :: (towerText n ++ ['\x7d'])

theorem lexes_tower {rest : List Char} {ss : List Symbol} (h : Lexes rest ss) (n : Nat) :
    Lexes (towerText n ++ rest) (tower n ++ ss) := by
  induction n generalizing rest ss with
  | zero => exact h.single rfl
  | succ n ih =>
    have hclose : Lexes ('\x7d' :: rest) (TokenKind.rbrace.symbol :: ss) := h.single rfl
    have hsemi : Lexes (';' :: (towerText n ++ '\x7d' :: rest)) (TokenKind.semi.symbol :: _) :=
      (ih hclose).single rfl
    have hopen : Lexes ('\x7b' :: _) (TokenKind.lbrace.symbol :: _) := hsemi.single rfl
    have hname := hopen.name ⟨'A', [], rfl, List.forall_mem_nil _, rfl⟩ (.cons rfl (by decide) _)
    have hword : Lexes ("enum".toList ++ ' ' :: _) (TokenKind.enumKw.symbol :: _) :=
      hname.blank.keyword (c := 'e') (w := "num".toList) rfl (.cons rfl (by decide) _)
    have hA : LegalName.symbol ⟨'A', [], rfl, List.forall_mem_nil _, rfl⟩ =
      ⟨.identifier, "A", false⟩ := rfl
    simpa [towerText, tower, hA, LegalName.chars] using hword

/-- **Under any limit there are trees of any height.** -/
theorem exists_higher (limit n : Nat) : ∃ source tree,
    parseTree .decl limit source = .ok tree ∧ n < tree.height := by
  have hlexes : Lexes (String.ofList (towerText (n + 1))).toList (tower (n + 1)) := by
    have hlexes := lexes_tower .nil (n + 1)
    rwa [List.append_nil, List.append_nil, ← String.toList_ofList (l := towerText _)] at hlexes
  obtain ⟨ts, htokens, hunplaced⟩ := hlexes.tokenize
  obtain ⟨s, t, hrun, hparts, hheight⟩ := @declarationStart_tower limit n
  rw [run_ofSymbols hunplaced] at hrun
  have hparse : parseTree .decl limit _ =
      (Rule.declarationStart.run (.ofTokens ts) limit ⟨0, 0, [], []⟩).verdict limit ts :=
    parseTree_of_tokenize htokens
  cases hactual : Rule.declarationStart.run (.ofTokens ts) limit ⟨0, 0, [], []⟩ with
  | refused place why memo =>
    rw [hactual] at hrun
    cases hrun
  | done value s₀ =>
    rw [hactual] at hrun hparse
    have hunplaced : s₀.parts.map Tree.unplaced = [t] :=
      (congrArg State.parts (Outcome.done.inj hrun).2).trans hparts
    obtain ⟨tree, htree, rfl⟩ := List.map_eq_singleton_iff.mp hunplaced
    rw [Outcome.verdict, htree] at hparse
    exact ⟨_, tree, hparse, Nat.lt_of_lt_of_eq hheight tree.height_unplaced⟩

end JavaSource
