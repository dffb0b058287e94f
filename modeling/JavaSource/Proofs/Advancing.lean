import JavaSource.Proofs.Running

/-!
# How moves advance

Reading comes to an end because every rule but three reads a symbol, a rule that is read before
anything else has been read ranks below the one that reads it, and a loop that goes around has read
something.

`m.Advances source bound base Q place` says so of the moves `m` from a place on: they read no
symbol at the end of the source, loops go forward, a rule is read or tried only if the moves are
beyond the place `base` or the rule ranks below `bound`, and the place where the moves end
satisfies `Q`.

Only how far reading has come matters for that: a `Stage` says whether it has come beyond the base,
and perhaps what is seen ahead.  `m.Goes source bound S T` says that the moves go from stage `S` to
stage `T`, so it composes along the moves, and whether a rule may be read at a stage is computed
(`Rule.mayBeRead`).

* `Goes.bind`, `Goes.loop`, `Goes.read`, `Goes.take`: the rules of this calculus, and one for each
  of the common moves.
-/

namespace JavaSource.Grammar

/-! ### What a rule consumes -/

/-- How many symbols a rule reads at least. -/
def Rule.least : Rule → Nat
  | compilationUnit | modifiers | annotations => 0
  | _ => 1

/-- The kind of the symbol at a place. -/
def Source.kindAt (source : Source) (place : Nat) : TokenKind :=
  ((source.symbols[place]?).getD .final).kind

/-- What has to stand where a rule is read. -/
def Rule.Expects (ahead : TokenKind) : Rule → Prop
  | superAccess => ahead = .superKw
  | _           => True

/-- From a place, moves come to an end, where a property holds. -/
def Move.Advances (source : Source) (bound base : Nat) {α : Type} :
    Move α → (α → Nat → Prop) → Nat → Prop
  | .done value, Q, i => Q value i
  | .look next, Q, i =>
    ∀ last, (next ⟨source.symbols, i, last⟩).Advances source bound base Q i
  | .shift next, Q, i =>
    source.kindAt i ≠ .eof ∧ next.Advances source bound base Q (i + 1)
  | .join _ width next, Q, i =>
    0 < width ∧ (∀ n < width, source.kindAt (i + n) ≠ .eof) ∧
      next.Advances source bound base Q (i + width)
  | .call rule next, Q, i =>
    (base < i ∨ rule.rank < bound) ∧ rule.Expects (source.kindAt i) ∧
      ∀ j, i + rule.least ≤ j → next.Advances source bound base Q j
  | .probe what next, Q, i =>
    (base < i ∨ what.rule.rank < bound) ∧
      ∀ width, (next width).Advances source bound base Q i
  | .wrap _ next, Q, i => next.Advances source bound base Q i
  | .deepen next, Q, i => next.Advances source bound base Q i
  | .iterate body next, Q, i =>
    ∃ I : Nat → Prop, I i ∧ ∀ j, I j → body.Advances source bound base
      (fun more k => if more then j < k ∧ I k else next.Advances source bound base Q k) j
  | .refuse _ _, _, _ => True

variable {source : Source} {bound base : Nat} {α β : Type}

namespace Move.Advances

theorem mono {m : Move α} {Q Q' : α → Nat → Prop} {i : Nat}
    (h : m.Advances source bound base Q i) (hQ : ∀ a j, Q a j → Q' a j) :
    m.Advances source bound base Q' i := by
  induction m generalizing i with
  | done value => exact hQ _ _ h
  | look next ih => exact fun last => ih _ (h last) hQ
  | shift next ih => exact ⟨h.1, ih h.2 hQ⟩
  | join kind width next ih => exact ⟨h.1, h.2.1, ih h.2.2 hQ⟩
  | call rule next ih => exact ⟨h.1, h.2.1, fun j hj => ih (h.2.2 j hj) hQ⟩
  | probe what next ih => exact ⟨h.1, fun width => ih _ (h.2 width) hQ⟩
  | wrap kind next ih => exact ih h hQ
  | deepen next ih => exact ih h hQ
  | iterate body next ihb ih =>
    obtain ⟨I, hI, hbody⟩ := h
    refine ⟨I, hI, fun j hj => ihb (hbody j hj) fun more k hk => ?_⟩
    cases more with
    | true => exact hk
    | false => exact ih hk hQ
  | refuse place why => trivial

theorem bind {m : Move α} {f : α → Move β} {Q : β → Nat → Prop} {i : Nat}
    (h : m.Advances source bound base (fun a j => (f a).Advances source bound base Q j) i) :
    (m >>= f).Advances source bound base Q i := by
  induction m generalizing i with
  | done value => exact h
  | look next ih => exact fun last => ih _ (h last)
  | shift next ih => exact ⟨h.1, ih h.2⟩
  | join kind width next ih => exact ⟨h.1, h.2.1, ih h.2.2⟩
  | call rule next ih => exact ⟨h.1, h.2.1, fun j hj => ih (h.2.2 j hj)⟩
  | probe what next ih => exact ⟨h.1, fun width => ih _ (h.2 width)⟩
  | wrap kind next ih => exact ih h
  | deepen next ih => exact ih h
  | iterate body next _ ih =>
    obtain ⟨I, hI, hbody⟩ := h
    refine ⟨I, hI, fun j hj => (hbody j hj).mono fun more k hk => ?_⟩
    cases more with
    | true => exact hk
    | false => exact ih hk
  | refuse place why => trivial

/-- Moves that advance may do so where more is allowed. -/
theorem rebase {m : Move α} {Q : α → Nat → Prop} {bound' base' start i : Nat}
    (hle : start ≤ i) (h : m.Advances source bound' base' Q i)
    (hmore : ∀ j n, start ≤ j → base' < j ∨ n < bound' → base < j ∨ n < bound) :
    m.Advances source bound base (fun a j => start ≤ j ∧ Q a j) i := by
  induction m generalizing i with
  | done value => exact ⟨hle, h⟩
  | look next ih => exact fun last => ih _ hle (h last)
  | shift next ih => exact ⟨h.1, ih (Nat.le_succ_of_le hle) h.2⟩
  | join kind width next ih =>
    exact ⟨h.1, h.2.1, ih (Nat.le_trans hle (Nat.le_add_right ..)) h.2.2⟩
  | call rule next ih =>
    exact ⟨hmore _ _ hle h.1, h.2.1, fun j hj =>
      ih (Nat.le_trans hle (Nat.le_trans (Nat.le_add_right ..) hj)) (h.2.2 j hj)⟩
  | probe what next ih => exact ⟨hmore _ _ hle h.1, fun width => ih _ hle (h.2 width)⟩
  | wrap kind next ih => exact ih hle h
  | deepen next ih => exact ih hle h
  | iterate body next ihb ih =>
    obtain ⟨I, hI, hbody⟩ := h
    refine ⟨fun j => start ≤ j ∧ I j, ⟨hle, hI⟩, fun j hj => ?_⟩
    refine (ihb hj.1 (hbody j hj.2)).mono fun more k hk => ?_
    cases more with
    | true => exact ⟨hk.2.1, hk.1, hk.2.2⟩
    | false => exact ih hk.1 hk.2
  | refuse place why => trivial

end Move.Advances

/-! ### Stages -/

/-- How far reading has come. -/
inductive Stage where
  /-- To the base, or beyond it. -/
  | any
  /-- Beyond the base. -/
  | fed
  /-- So far, and this is seen ahead. -/
  | seeing (stage : Stage) (a : Ahead)

namespace Stage

/-- Whether reading has come beyond the base for sure. -/
def isFed : Stage → Bool
  | any            => false
  | fed            => true
  | seeing stage _ => stage.isFed

/-- The stage, without what is seen. -/
def blind (S : Stage) : Stage := bif S.isFed then fed else any

/-- The stage behind a turn of a loop that says whether it goes on. -/
def turn : Bool → Stage
  | true  => fed
  | false => any

/-- The stage behind some symbols or maybe none. -/
def behind (S : Stage) (least : Nat) : Stage := bif S.isFed || Nat.blt 0 least then fed else any

/-- The ranks of the rules that may be read from here on. -/
def ranks (S : Stage) (bound : Nat) : Nat := bif S.isFed then Rule.ranks else bound

/-- Whether a place is at a stage. -/
def At (source : Source) (base : Nat) : Stage → Nat → Prop
  | any, i            => base ≤ i
  | fed, i            => base < i
  | seeing stage a, i => stage.At source base i ∧ a.read = i ∧ a.symbols = source.symbols

/-- Whether all that is at one stage is at another one, which sees nothing. -/
def within : Stage → Stage → Bool
  | _, any => true
  | S, fed => S.isFed
  | _, seeing _ _ => false

variable {S T : Stage} {i j : Nat}

@[simp] theorem isFed_blind : S.blind.isFed = S.isFed := by
  unfold blind
  cases S.isFed <;> rfl

@[simp] theorem isFed_behind {least : Nat} :
    (S.behind least).isFed = (S.isFed || Nat.blt 0 least) := by
  unfold behind
  cases S.isFed || Nat.blt 0 least <;> rfl

@[simp] theorem within_blind : S.within T.blind = (!T.isFed || S.isFed) := by
  unfold blind
  cases T.isFed <;> rfl

theorem At.le (h : S.At source base i) : base ≤ i := by
  induction S with
  | any => exact h
  | fed => exact Nat.le_of_lt h
  | seeing stage a ih => exact ih h.1

theorem At.lt (h : S.At source base i) (hfed : S.isFed) : base < i := by
  induction S with
  | any => cases hfed
  | fed => exact h
  | seeing stage a ih => exact ih h.1 hfed

theorem At.within (h : S.At source base i) (hle : S.within T) : T.At source base i := by
  cases T with
  | any => exact h.le
  | fed => exact h.lt hle
  | seeing stage a => cases hle

theorem At.behind {least : Nat} (h : S.At source base i) (hle : i + least ≤ j) :
    (S.behind least).At source base j := by
  have hbase := h.le
  unfold Stage.behind
  cases hfed : S.isFed with
  | true => exact Nat.lt_of_lt_of_le (h.lt hfed) (Nat.le_trans (Nat.le_add_right ..) hle)
  | false =>
    cases least with
    | zero => exact Nat.le_trans hbase hle
    | succ least =>
      show base < j
      omega

theorem At.add_le {least : Nat} (h : (any.behind least).At source base j) (hle : least ≤ 1) :
    base + least ≤ j := by
  cases least with
  | zero => exact h
  | succ n =>
    have hlt : base < j := h
    omega

theorem At.blind (h : S.At source base i) (hle : i ≤ j) : S.blind.At source base j := by
  have hbehind : (S.behind 0).At source base j := h.behind hle
  unfold Stage.behind at hbehind
  rwa [show Nat.blt 0 0 = false from rfl, Bool.or_false] at hbehind

end Stage

/-- Whether a rule may be read at a stage, whatever stands ahead. -/
def Rule.mayBeRead (r : Rule) (bound : Nat) (S : Stage) : Bool :=
  (S.isFed || Nat.blt r.rank bound) &&
    match r with
    | superAccess => false
    | _           => true

theorem Rule.mayBeRead_fed {r : Rule} {bound bound' : Nat} {S : Stage}
    (h : r.mayBeRead bound S = true) : r.mayBeRead bound' .fed = true :=
  ((Bool.and_eq_true ..).mp h).2

/-- Moves lead from one stage to others. -/
def Move.Goes (source : Source) (bound : Nat) (S : Stage) (m : Move α) (T : α → Stage) : Prop :=
  ∀ base i, S.At source base i →
    m.Advances source bound base (fun a j => (T a).At source base j) i

namespace Move.Goes

variable {S : Stage} {m : Move α} {a : Ahead}

theorem bind {T : α → Stage} {U : β → Stage} {f : α → Move β} (h : m.Goes source bound S T)
    (hf : ∀ a, (f a).Goes source bound (T a) U) : (m >>= f).Goes source bound S U :=
  fun base i hi => .bind ((h base i hi).mono fun a j hj => hf a base j hj)

theorem andThen {U : β → Stage} {m : Move Unit} {n : Move β} {T : Unit → Stage}
    (h : m.Goes source bound S T) (hn : n.Goes source bound (T ()) U) :
    (do m; n).Goes source bound S U :=
  h.bind fun _ => hn

theorem mono {T U : α → Stage} (h : m.Goes source bound S T) (hle : ∀ a, (T a).within (U a)) :
    m.Goes source bound S U :=
  fun base i hi => (h base i hi).mono fun a _ hj => hj.within (hle a)

/-- What is seen may be forgotten. -/
theorem unseen {T : α → Stage} (h : m.Goes source bound S T) :
    m.Goes source bound (S.seeing a) T :=
  fun base i hi => h base i hi.1

/-- What goes from the base goes from beyond it. -/
theorem anywhere {T : α → Stage} (h : m.Goes source bound .any T) : m.Goes source bound S T :=
  fun base i hi => h base i hi.le

theorem pure {T : α → Stage} {value : α} (hle : S.within (T value)) :
    (Pure.pure value : Move α).Goes source bound S T :=
  fun _ _ hi => hi.within hle

theorem ite {T : α → Stage} {c : Prop} [Decidable c] {n : Move α}
    (hm : c → m.Goes source bound S T) (hn : ¬c → n.Goes source bound S T) :
    (if c then m else n).Goes source bound S T := by
  split
  · exact hm ‹_›
  · exact hn ‹_›

theorem ahead {T : α → Stage} {f : Ahead → Move α}
    (h : ∀ a, (f a).Goes source bound (S.seeing a) T) :
    (Move.ahead >>= f).Goes source bound S T :=
  fun base i hi last => h ⟨source.symbols, i, last⟩ base i ⟨hi, rfl, rfl⟩

/-- What is seen again is what was seen. -/
theorem aheadAgain {T : α → Stage} {f : Ahead → Move α}
    (h : ∀ b : Ahead, b.kind = a.kind → (f b).Goes source bound (S.seeing b) T) :
    (Move.ahead >>= f).Goes source bound (S.seeing a) T := by
  rintro base i ⟨hi, rfl, hsymbols⟩ last
  have hkind : (Ahead.mk source.symbols a.read last).kind = a.kind := by
    rw [← hsymbols]
    rfl
  exact h _ hkind base a.read ⟨hi, rfl, rfl⟩

/-- A decision leaves the stage as it was. -/
theorem decide {f : Ahead → Move α}
    (h : ∀ a, (f a).Goes source bound (S.seeing a) fun _ => S.seeing a) :
    (Move.ahead >>= f).Goes source bound S fun _ => S :=
  fun base i hi last =>
    (h ⟨source.symbols, i, last⟩ base i ⟨hi, rfl, rfl⟩).mono fun _ _ hj => hj.1

theorem decided {value : α} : (Pure.pure value : Move α).Goes source bound S fun _ => S :=
  fun _ _ hi => hi

theorem take (h : a.kind ≠ .eof) : Move.take.Goes source bound (S.seeing a) fun _ => .fed := by
  rintro base i ⟨hi, rfl, hsymbols⟩
  refine ⟨?_, Nat.lt_succ_of_le hi.le⟩
  rw [Source.kindAt, ← hsymbols]
  exact h

theorem takeTwo (h : a.kind ≠ .eof) (h' : a.kindAt 1 ≠ .eof) :
    Move.takeTwo.Goes source bound (S.seeing a) fun _ => .fed := by
  rintro base i ⟨hi, rfl, hsymbols⟩
  refine ⟨?_, ?_, Nat.lt_succ_of_le (Nat.le_succ_of_le hi.le)⟩
  · rw [Source.kindAt, ← hsymbols]
    exact h
  · rw [Source.kindAt, ← hsymbols]
    exact h'

theorem joined {kind : TokenKind} {width : Nat} (hpos : 0 < width)
    (h : ∀ n < width, a.kindAt n ≠ .eof) :
    (Move.joined kind width).Goes source bound (S.seeing a) fun _ => .fed := by
  rintro base i ⟨hi, rfl, hsymbols⟩
  refine ⟨hpos, fun n hn => ?_, Nat.lt_of_le_of_lt hi.le (Nat.lt_add_of_pos_right hpos)⟩
  rw [Source.kindAt, ← hsymbols]
  exact h n hn

theorem allowed {base i n : Nat} (hi : S.At source base i)
    (h : (S.isFed || Nat.blt n bound) = true) : base < i ∨ n < bound := by
  rcases (Bool.or_eq_true ..).mp h with h | h
  · exact .inl (hi.lt h)
  · exact .inr (Nat.le_of_ble_eq_true h)

theorem read {r : Rule} (h : r.mayBeRead bound S = true) :
    (Move.read r).Goes source bound S fun _ => S.behind r.least := by
  obtain ⟨hallowed, hfree⟩ := (Bool.and_eq_true ..).mp h
  refine fun base i hi => ⟨allowed hi hallowed, ?_, fun j hj => hi.behind hj⟩
  cases r with
  | superAccess => cases hfree
  | _ => trivial

theorem readSuper (h : (S.isFed || Nat.blt Rule.superAccess.rank bound) = true)
    (hsuper : a.kind = .superKw) :
    (Move.read .superAccess).Goes source bound (S.seeing a) fun _ => .fed := by
  rintro base i ⟨hi, rfl, hsymbols⟩
  refine ⟨allowed hi h, ?_, fun j hj => Nat.lt_of_le_of_lt hi.le hj⟩
  show Source.kindAt .. = _
  rw [Source.kindAt, ← hsymbols]
  exact hsuper

theorem attempt {what : Probe} (h : (S.isFed || Nat.blt what.rule.rank bound) = true) :
    (Move.attempt what).Goes source bound S fun _ => S :=
  fun _ _ hi => ⟨allowed hi h, fun _ => hi⟩

theorem close {kind : Phrase} : (Move.close kind).Goes source bound S fun _ => S :=
  fun _ _ hi => hi

theorem nest : Move.nest.Goes source bound S fun _ => S :=
  fun _ _ hi => hi

theorem fail {T : α → Stage} {why : Refusal} :
    (Move.fail why : Move α).Goes source bound S T :=
  fun _ _ _ _ => trivial

theorem mismatch {T : α → Stage} {expecting : String} :
    (Move.mismatch expecting : Move α).Goes source bound S T := fail

theorem refuse {T : α → Stage} {place : Nat} {why : Refusal} :
    (Move.refuse place why : Move α).Goes source bound S T :=
  fun _ _ _ => trivial

/-- A loop whose every turn reads something.  The turns may read the rules that may be read where
the loop starts. -/
theorem loop {body : Move Bool} (h : body.Goes source (S.ranks bound) .any Stage.turn) :
    (Move.loop body).Goes source bound S fun _ => S.blind := by
  refine fun base i hi => ⟨fun j => i ≤ j, Nat.le_refl i, fun j hj => ?_⟩
  have hbody := h j j (Nat.le_refl j)
  refine .mono (hbody.rebase (Nat.le_refl j) fun k n hk hallowed => ?_) fun more k hk => ?_
  · cases hfed : S.isFed with
    | true => exact .inl (Nat.lt_of_lt_of_le (hi.lt hfed) (Nat.le_trans hj hk))
    | false =>
      rw [Stage.ranks, hfed, cond_false] at hallowed
      exact hallowed.imp_left (Nat.lt_of_le_of_lt (Nat.le_trans hi.le hj))
  · cases more with
    | true => exact ⟨hk.2, Nat.le_trans hj hk.1⟩
    | false => exact hi.blind (Nat.le_trans hj hk.1)

/-! ### Common moves -/

theorem isAt {T : α → Stage} {kind : TokenKind} {f : Bool → Move α}
    (h : ∀ a : Ahead, (f (a.isAt kind)).Goes source bound (S.seeing a) T) :
    (Move.isAt kind >>= f).Goes source bound S T :=
  ahead h

theorem ne_eof {kind : TokenKind} {n : Nat} (h : (a.kindAt n == kind) = true)
    (hkind : kind ≠ .eof) : a.kindAt n ≠ .eof :=
  fun heof => hkind ((beq_iff_eq.mp h).symm.trans heof)

theorem expect {kind : TokenKind} (hkind : kind ≠ .eof) :
    (Move.expect kind).Goes source bound S fun _ => .fed :=
  isAt fun _ => ite (fun h => take (ne_eof h hkind)) fun _ => mismatch

theorem either_ne_eof {kind kind' : TokenKind} {n : Nat}
    (h : (a.kindAt n == kind || a.kindAt n == kind') = true) (hkind : kind ≠ .eof)
    (hkind' : kind' ≠ .eof) : a.kindAt n ≠ .eof :=
  ((Bool.or_eq_true ..).mp h).elim (ne_eof · hkind) (ne_eof · hkind')

theorem word_ne_eof {word : String} (h : a.isAtWord word = true) : a.kind ≠ .eof :=
  ne_eof (Bool.and_eq_true_iff.mp h).1 (by decide)

theorem expectWord {word : String} : (Move.expectWord word).Goes source bound S fun _ => .fed :=
  ahead fun _ => ite (fun h => take (word_ne_eof h)) fun _ => mismatch

/-- Some moves that are allowed by what is seen. -/
theorem provided {allows : Ahead → Bool} {moves : Move Unit}
    (h : ∀ a, allows a = true → moves.Goes source bound (S.seeing a) fun _ => S.blind) :
    (Move.provided allows moves).Goes source bound S fun _ => S.blind :=
  ahead fun a => ite (h a) fun _ => pure (by simp [Stage.isFed])

theorem eat {kind : TokenKind} (hkind : kind ≠ .eof) :
    (Move.eat kind).Goes source bound S fun eaten => bif eaten then .fed else S.blind :=
  isAt fun _ => ite (fun h => (take (ne_eof h hkind)).andThen (pure rfl))
    fun _ => pure (by simp [Stage.isFed])

/-- Going on behind a symbol. -/
theorem eatTurn {kind : TokenKind} (hkind : kind ≠ .eof) :
    (Move.eat kind).Goes source bound S Stage.turn :=
  (eat hkind).mono fun eaten => by
    cases eaten with
    | true => rfl
    | false => rfl

/-- Some moves behind a symbol, or others without it. -/
theorem ifEaten {T : α → Stage} {kind : TokenKind} {n : Move α} (hkind : kind ≠ .eof)
    (hm : m.Goes source bound .fed T) (hn : n.Goes source bound S.blind T) :
    (do if ← Move.eat kind then m else n).Goes source bound S T :=
  (eat hkind).bind fun eaten => by
    cases eaten with
    | true => exact hm
    | false => exact hn

theorem readAt {kind : TokenKind} {r : Rule} (h : r.mayBeRead bound S = true) :
    (Move.readAt kind r).Goes source bound S fun _ => S.blind :=
  isAt fun _ => ite
    (fun _ => .unseen <| (read h).mono fun _ => by cases hfed : S.isFed <;> simp [hfed])
    fun _ => pure (by simp [Stage.isFed])

theorem readAfter {kind : TokenKind} {r : Rule} (hkind : kind ≠ .eof)
    (h : r.mayBeRead bound .fed = true) :
    (Move.readAfter kind r).Goes source bound S fun _ => S.blind :=
  ifEaten hkind ((read h).mono fun _ => by simp [Stage.isFed]) (pure (by simp))

/-- Behind a rule that reads something. -/
theorem readThen {r : Rule} {n : Move α} {T : α → Stage} (hleast : r.least = 1)
    (h : r.mayBeRead bound S = true) (hn : n.Goes source bound .fed T) :
    (do Move.read r; n).Goes source bound S T := by
  have hread : (Move.read r).Goes source bound S fun _ => .fed :=
    (read h).mono fun _ => by simp [Stage.within, hleast]
  exact hread.andThen hn

theorem readWhile {more : Ahead → Bool} {r : Rule} (hleast : r.least = 1)
    (h : r.mayBeRead (S.ranks bound) .any = true) :
    (Move.readWhile more r).Goes source bound S fun _ => S.blind :=
  loop <| ahead fun _ => ite (fun _ => .unseen (readThen hleast h (pure rfl))) fun _ => pure rfl

theorem commasUpTo {closer : Ahead → Bool} {r : Rule} (hleast : r.least = 1)
    (h : r.mayBeRead (S.ranks bound) .any = true) :
    (Move.commasUpTo closer r).Goes source bound S fun _ => S.blind := by
  refine loop <| ahead fun _ => ite (fun _ => pure rfl) fun _ => ?_
  exact unseen <| readThen hleast h <| eatTurn (by decide)

/-- In a list of rules, the later ones come behind symbols. -/
theorem separated {separator : TokenKind} {r : Rule} (hkind : separator ≠ .eof)
    (hleast : r.least = 1) (h : r.mayBeRead bound S = true) :
    (Move.separated separator r).Goes source bound S fun _ => .fed :=
  readThen hleast h <| loop <|
    ifEaten hkind (readThen hleast (Rule.mayBeRead_fed h) (pure rfl)) (pure rfl)

end Move.Goes

/-- A rule reads as much as it should, and other rules where it may, wherever it starts. -/
def Rule.Steps (source : Source) (r : Rule) : Prop :=
  r.production.Goes source r.rank .any fun _ => Stage.any.behind r.least

/-- A rule reads as much as it should, and other rules where it may. -/
def Rule.Advances (source : Source) (r : Rule) (start : Nat) : Prop :=
  r.production.Advances source r.rank start (fun _ j => start + r.least ≤ j) start

theorem Rule.least_le_one (r : Rule) : r.least ≤ 1 := by
  cases r <;> simp [least]

theorem Rule.advances_of_goes {r : Rule} {S : Stage} {start : Nat}
    (h : r.production.Goes source r.rank S fun _ => Stage.any.behind r.least)
    (hstart : S.At source start start) : r.Advances source start :=
  (h start start hstart).mono fun _ _ hj => hj.add_le r.least_le_one

theorem Rule.Steps.advances {r : Rule} (h : r.Steps source) {start : Nat} :
    r.Advances source start :=
  advances_of_goes h (Nat.le_refl start)

end JavaSource.Grammar
