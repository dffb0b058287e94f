import JavaSource.Grammar.Production
import JavaSource.Proofs.Adds

/-!
# How high rules build

A rule that nests takes a level, and there are only so many.  Between two levels it can build only
so high, as a rule that leads back to itself without a level does so through one of two phrases:
the body of an enumeration, or the value of an element of an annotation.  These phrases are
*uncounted* (`Phrase.isUncounted`).

The links of a chain take a level each, but what they are linked to has been read before them, with
all levels still to be had.  So a level is worth not some phrases but a whole chain of them
(`room`).

`Rule.ceiling` says how high a rule builds that starts at a depth, uncounted phrases aside.
`m.Climbs limit floor bound bound'` says that from parts below one bound, at the depth `floor` or
deeper, the moves `m` come to parts below the other one, and `m.Links limit floor bound` that parts
may rise above the bound as far as levels are taken.
-/

namespace JavaSource

/-- Phrases that a rule may come back through without having taken a level. -/
def Phrase.isUncounted : Phrase → Bool
  | .enumBody | .elementValue => true
  | _                         => false

namespace Tree

mutual

/-- The number of uncounted phrases on the way down that has most of them. -/
def uncounted : Tree → Nat
  | leaf _           => 0
  | node kind ps _ _ => uncountedAll ps + kind.isUncounted.toNat

/-- The greatest such number of several trees. -/
def uncountedAll : List Tree → Nat
  | []      => 0
  | p :: ps => max p.uncounted (uncountedAll ps)

end

/-- A tree is no higher than a bound, with so many phrases more for each uncounted one. -/
def Below (bound : Nat) (t : Tree) : Prop := t.height ≤ bound + 20 * t.uncounted

variable {bound bound' : Nat} {t : Tree} {ts : List Tree}

theorem Below.mono (h : t.Below bound) (hle : bound ≤ bound') : t.Below bound' :=
  Nat.le_trans h (Nat.add_le_add_right hle _)

theorem Below.leaf {token : Token} : (Tree.leaf token).Below bound := Nat.zero_le _

theorem heightAll_le (h : ∀ t ∈ ts, t.Below bound) :
    heightAll ts ≤ bound + 20 * uncountedAll ts := by
  induction ts with
  | nil => exact Nat.zero_le _
  | cons t ts ih =>
    have hts := ih fun t ht => h t (List.mem_cons_of_mem _ ht)
    have ht : t.height ≤ bound + 20 * t.uncounted := h t List.mem_cons_self
    simp only [heightAll, uncountedAll]
    omega

variable {kind : Phrase} {start stop : Location}

theorem Below.node (h : ∀ t ∈ ts, t.Below bound) :
    (Tree.node kind ts start stop).Below (bound + 1) := by
  have hts := heightAll_le h
  simp only [Below, height, uncounted]
  omega

/-- An uncounted phrase pays for what is below it. -/
theorem Below.uncounted (hkind : kind.isUncounted = true) (h : ∀ t ∈ ts, t.Below (bound + 19)) :
    (Tree.node kind ts start stop).Below bound := by
  have hts := heightAll_le h
  simp only [Below, height, Tree.uncounted, hkind, Bool.toNat_true]
  omega

end Tree

namespace Grammar

/-! ### What a level is worth -/

/-- How high rules build with the levels that are left at a depth. -/
def room (limit depth : Nat) : Nat := (limit + 1 - depth) * (2 * limit + 20)

/-- How many phrases a rule puts above what it takes a level for. -/
def Rule.rise : Rule → Nat
  | elementValue | enumBody | binary _ | unary => 0
  | expression | type | bareType | classBody _ | arrayInitializer | statement
  | qualifiedName | elementValuePair | variableInitializer | castHead => 1
  | qualifiedNames | annotations | annotationUse | resultType | typeList | typeBound
  | importDeclaration | arguments | dimExpr | expressionStatement | forUpdate | catchType
  | expressionStart => 2
  | modifiers | typeArgument | dim | typeParameter | modifiedType | packageDeclaration
  | moduleDirective | enumConstant | recordComponent | methodCall => 3
  | typeArguments | typeParameters | moduleDeclaration | recordHeader | variableDeclaratorId
  | pattern => 4
  | coit | formalParameter | variableDeclarator | resourceVariable | superAccess
  | memberBody .outermost => 5
  | classType | formalParameters _ | variableDeclarators | resource | genericInvocation
  | memberDeclaration .outermost => 6
  | localVariableDeclaration | lambdaParameters | resourceSpecification | selected => 7
  | blockStatement | forInit => 8
  | block | statementStart => 9
  | finallyClause | catchClause | lambda | memberBody _ => 10
  | ternary | memberDeclaration _ => 11
  | caseItem | classBodyDeclaration _ => 12
  | switchLabel | compilationUnit | declarationStart => 13
  | switchEntry => 14
  | switchBlock => 15
  | primary | postfixed => 16

/-- Whether a rule goes beyond what is left of its level. -/
def Rule.overreaches : Rule → Bool
  | postfixed => true
  | _         => false

/-- How high a rule builds that starts at a depth, uncounted phrases aside.  A chain of selectors
goes beyond what is left of its level, and an operand leaves room for a chain of operators. -/
def Rule.ceiling (limit depth : Nat) : Rule → Nat
  | unary     => room limit depth - limit
  | postfixed => room limit depth + (limit + 16)
  | r         => room limit depth + r.rise

/-- What rules build stays below their ceilings. -/
def heights (limit : Nat) : Contract where
  before _ s := s.depth ≤ limit
  after r s s' := ∀ t ∈ s'.parts, t.Below (r.ceiling limit s.depth)

variable {limit floor depth bound bound' n : Nat} {r : Rule}

theorem room_succ (h : depth ≤ limit) :
    room limit (depth + 1) + (2 * limit + 20) = room limit depth := by
  rw [room, room, ← Nat.succ_mul]
  congr 1
  omega

theorem room_anti (h : floor ≤ depth) : room limit depth ≤ room limit floor :=
  Nat.mul_le_mul_right _ (Nat.sub_le_sub_left h (limit + 1))

theorem Rule.rise_le (r : Rule) : r.rise ≤ 16 := by
  cases r with
  | memberBody setting | memberDeclaration setting => cases setting <;> decide
  | _ => exact Nat.le_of_ble_eq_true rfl

theorem Rule.ceiling_le (r : Rule) (limit depth : Nat) :
    r.ceiling limit depth ≤ room limit depth + (limit + 16) := by
  have hrise := r.rise_le
  unfold ceiling
  split <;> omega

theorem Rule.ceiling_anti (r : Rule) (h : floor ≤ depth) :
    r.ceiling limit depth ≤ r.ceiling limit floor := by
  have hroom : room limit depth ≤ room limit floor := room_anti h
  unfold ceiling
  split <;> omega

/-- What a rule builds that starts at a depth or deeper stays below a bound. -/
def Rule.Fits (limit floor bound : Nat) (r : Rule) : Prop :=
  floor ≤ limit → r.ceiling limit floor ≤ bound

/-- A rule that rises no higher than so many phrases. -/
theorem fits (h : (Nat.ble r.rise n && !r.overreaches) = true) :
    r.Fits limit floor (room limit floor + n) := fun _ => by
  obtain ⟨hrise, hwithin⟩ := (Bool.and_eq_true ..).mp h
  have hle : r.rise ≤ n := Nat.le_of_ble_eq_true hrise
  unfold Rule.ceiling
  split
  · omega
  · cases hwithin
  · omega

/-- Any rule for which a level is taken. -/
theorem fitsDeeper : r.Fits limit (floor + 1) (room limit floor + n) := fun h => by
  have hroom := room_succ (Nat.le_of_succ_le h)
  have hceiling := r.ceiling_le limit (floor + 1)
  omega

/-! ### The calculus -/

/-- All parts are below a bound, at some depth or deeper. -/
def State.Low (limit floor bound : Nat) (s : State) : Prop :=
  floor ≤ s.depth ∧ s.depth ≤ limit ∧ ∀ t ∈ s.parts, t.Below bound

theorem State.Low.mono {s : State} (h : s.Low limit depth bound) (hfloor : floor ≤ depth)
    (hbound : bound ≤ bound') : s.Low limit floor bound' :=
  ⟨Nat.le_trans hfloor h.1, h.2.1, fun t ht => (h.2.2 t ht).mono hbound⟩

/-- From parts below one bound, moves come to parts below another one. -/
def Move.Climbs (source : Source) (limit floor bound bound' : Nat) {α : Type} (m : Move α) : Prop :=
  ∀ s, s.Low limit floor bound →
    m.Ensures source limit (heights limit) (fun _ s' => s'.Low limit floor bound') s

namespace Move.Climbs

variable {source : Source} {α β : Type} {m : Move α} {kind : TokenKind}

theorem bind {f : α → Move β} {bound'' : Nat} (h : m.Climbs source limit floor bound bound')
    (hf : ∀ a, (f a).Climbs source limit floor bound' bound'') :
    (m >>= f).Climbs source limit floor bound bound'' :=
  fun s hs => .bind ((h s hs).mono fun a s' hs' => hf a s' hs')

theorem andThen {m : Move Unit} {n : Move β} {bound'' : Nat}
    (h : m.Climbs source limit floor bound bound')
    (hn : n.Climbs source limit floor bound' bound'') :
    (do m; n).Climbs source limit floor bound bound'' :=
  h.bind fun _ => hn

theorem pure {a : α} : (Pure.pure a : Move α).Climbs source limit floor bound bound :=
  fun _ hs => hs

theorem ite {c : Prop} [Decidable c] {n : Move α} (hm : m.Climbs source limit floor bound bound')
    (hn : n.Climbs source limit floor bound bound') :
    (if c then m else n).Climbs source limit floor bound bound' := by
  split
  · exact hm
  · exact hn

theorem ahead {f : Ahead → Move α} (h : ∀ a, (f a).Climbs source limit floor bound bound') :
    (Move.ahead >>= f).Climbs source limit floor bound bound' :=
  fun s hs => h _ s hs

theorem isAt {f : Bool → Move α} (h : ∀ b, (f b).Climbs source limit floor bound bound') :
    (Move.isAt kind >>= f).Climbs source limit floor bound bound' :=
  ahead fun _ => h _

theorem attempt {what : Probe} : (Move.attempt what).Climbs source limit floor bound bound :=
  fun _ hs _ _ => hs

theorem take : Move.take.Climbs source limit floor bound bound :=
  fun _ hs _ _ _ => ⟨hs.1, hs.2.1, List.forall_mem_cons.mpr ⟨.leaf, hs.2.2⟩⟩

theorem read (h : r.Fits limit floor bound) :
    (Move.read r).Climbs source limit floor bound bound :=
  fun _ hs => ⟨hs.2.1, fun _ hafter => ⟨hs.1, hs.2.1, List.forall_mem_append.mpr
    ⟨fun t ht => (hafter t ht).mono <|
      Nat.le_trans (r.ceiling_anti hs.1) (h (Nat.le_trans hs.1 hs.2.1)), hs.2.2⟩⟩⟩

theorem close {phrase : Phrase} :
    (Move.close phrase).Climbs source limit floor bound (bound + 1) :=
  fun _ hs => ⟨hs.1, hs.2.1, List.forall_mem_singleton.mpr <|
    .node fun t ht => hs.2.2 t (List.mem_reverse.mp ht)⟩

/-- An uncounted phrase is as good as no phrase at all. -/
theorem closeUncounted {phrase : Phrase} (h : phrase.isUncounted = true) :
    (Move.close phrase).Climbs source limit floor (bound + 19) bound :=
  fun _ hs => ⟨hs.1, hs.2.1, List.forall_mem_singleton.mpr <|
    .uncounted h fun t ht => hs.2.2 t (List.mem_reverse.mp ht)⟩

/-- Moves that are nested one level deeper. -/
theorem nest {f : Unit → Move α} (h : (f ()).Climbs source limit (floor + 1) bound bound') :
    (Move.nest >>= f).Climbs source limit floor bound bound' :=
  fun s hs hlt =>
    have hdeeper : State.Low limit (floor + 1) bound { s with depth := s.depth + 1 } :=
      ⟨Nat.succ_le_succ hs.1, hlt, hs.2.2⟩
    (h _ hdeeper).mono fun _ _ hs' => hs'.mono (Nat.le_succ _) (Nat.le_refl _)

theorem fail {why : Refusal} : (Move.fail why : Move α).Climbs source limit floor bound bound' :=
  fun _ _ => trivial

theorem mismatch {expecting : String} :
    (Move.mismatch expecting : Move α).Climbs source limit floor bound bound' := fail

theorem refuse {place : Nat} {why : Refusal} :
    (Move.refuse place why : Move α).Climbs source limit floor bound bound' :=
  fun _ _ => trivial

theorem loop {body : Move Bool} (h : body.Climbs source limit floor bound bound) :
    (Move.loop body).Climbs source limit floor bound bound :=
  fun _ hs => .loop (State.Low limit floor bound) hs h fun _ hs => hs

theorem mono (h : m.Climbs source limit floor bound bound') {bound'' : Nat}
    (hle : bound' ≤ bound'') : m.Climbs source limit floor bound bound'' :=
  fun s hs => (h s hs).mono fun _ _ hs' => hs'.mono (Nat.le_refl _) hle

/-! ### Common moves -/

theorem expect : (Move.expect kind).Climbs source limit floor bound bound :=
  isAt fun _ => ite take mismatch

theorem expectWord {word : String} :
    (Move.expectWord word).Climbs source limit floor bound bound :=
  ahead fun _ => ite take mismatch

theorem takeTwo : Move.takeTwo.Climbs source limit floor bound bound := andThen take take

theorem provided {allows : Ahead → Bool} {moves : Move Unit}
    (h : moves.Climbs source limit floor bound bound) :
    (Move.provided allows moves).Climbs source limit floor bound bound :=
  ahead fun _ => ite h pure

theorem eat : (Move.eat kind).Climbs source limit floor bound bound :=
  isAt fun _ => ite (andThen take pure) pure

/-- Some moves behind a symbol, or others without it. -/
theorem ifEaten {n : Move α} (hm : m.Climbs source limit floor bound bound')
    (hn : n.Climbs source limit floor bound bound') :
    (do if ← Move.eat kind then m else n).Climbs source limit floor bound bound' :=
  eat.bind fun _ => ite hm hn

theorem readAt (h : r.Fits limit floor bound) :
    (Move.readAt kind r).Climbs source limit floor bound bound :=
  isAt fun _ => ite (read h) pure

theorem readAfter (h : r.Fits limit floor bound) :
    (Move.readAfter kind r).Climbs source limit floor bound bound :=
  ifEaten (read h) pure

theorem readWhile {more : Ahead → Bool} (h : r.Fits limit floor bound) :
    (Move.readWhile more r).Climbs source limit floor bound bound :=
  loop <| ahead fun _ => ite (andThen (read h) pure) pure

theorem commasUpTo {closer : Ahead → Bool} (h : r.Fits limit floor bound) :
    (Move.commasUpTo closer r).Climbs source limit floor bound bound :=
  loop <| ahead fun _ => ite pure (andThen (read h) eat)

theorem separated (h : r.Fits limit floor bound) :
    (Move.separated kind r).Climbs source limit floor bound bound :=
  andThen (read h) <| loop <| ifEaten (andThen (read h) pure) pure

end Move.Climbs

/-! ### Chains -/

/-- All parts are below a bound, with a phrase more for each level taken since some depth. -/
def State.Linked (limit floor bound : Nat) (s : State) : Prop :=
  floor ≤ s.depth ∧ s.depth ≤ limit ∧ ∀ t ∈ s.parts, t.Below (bound + (s.depth - floor))

/-- Moves put a phrase above the parts at most as often as they take a level. -/
def Move.Links (source : Source) (limit floor bound : Nat) {α : Type} (m : Move α) : Prop :=
  ∀ s, s.Linked limit floor bound →
    m.Ensures source limit (heights limit) (fun _ s' => s'.Linked limit floor bound) s

namespace Move.Links

variable {source : Source} {α β : Type} {m : Move α}

theorem andThen {m : Move Unit} {n : Move β} (h : m.Links source limit floor bound)
    (hn : n.Links source limit floor bound) : (do m; n).Links source limit floor bound :=
  fun s hs => .bind ((h s hs).mono fun _ s' hs' => hn s' hs')

theorem pure {a : α} : (Pure.pure a : Move α).Links source limit floor bound := fun _ hs => hs

theorem ahead {f : Ahead → Move α} (h : ∀ a, (f a).Links source limit floor bound) :
    (Move.ahead >>= f).Links source limit floor bound :=
  fun s hs => h _ s hs

theorem ite {c : Prop} [Decidable c] {n : Move α} (hm : m.Links source limit floor bound)
    (hn : n.Links source limit floor bound) :
    (if c then m else n).Links source limit floor bound := by
  split
  · exact hm
  · exact hn

theorem loop {body : Move Bool} (h : body.Links source limit floor bound) :
    (Move.loop body).Links source limit floor bound :=
  fun _ hs => .loop (State.Linked limit floor bound) hs h fun _ hs => hs

/-- A link takes a level and puts one phrase above the parts. -/
theorem nestFrom {f : Unit → Move α} {s : State} (hs : s.Linked limit floor bound)
    (h : ∀ bound', bound ≤ bound' →
      State.Low limit (s.depth + 1) bound' { s with depth := s.depth + 1 } →
        (f ()).Ensures source limit (heights limit)
          (fun _ s' => s'.Low limit (s.depth + 1) (bound' + 1)) { s with depth := s.depth + 1 }) :
    (Move.nest >>= f).Ensures source limit (heights limit)
      (fun _ s' => s'.Linked limit floor bound) s := fun hlt => by
  refine (h (bound + (s.depth - floor)) (Nat.le_add_right ..)
    ⟨Nat.le_refl _, hlt, hs.2.2⟩).mono fun _ s' hs' => ?_
  obtain ⟨hdepth, hlimit, hparts⟩ := hs'
  have hfloor := hs.1
  exact ⟨by omega, hlimit, fun t ht => (hparts t ht).mono (by omega)⟩

theorem nest {f : Unit → Move α} (h : ∀ depth bound', floor ≤ depth → bound ≤ bound' →
    (f ()).Climbs source limit (depth + 1) bound' (bound' + 1)) :
    (Move.nest >>= f).Links source limit floor bound :=
  fun s hs => nestFrom hs fun bound' hle hlow => h s.depth bound' hs.1 hle _ hlow

/-- All links of a chain together take no more levels than there are. -/
theorem climbs (h : m.Links source limit floor bound) :
    m.Climbs source limit floor bound (bound + limit) := fun s hs => by
  have hlinked : s.Linked limit floor bound :=
    ⟨hs.1, hs.2.1, fun t ht => (hs.2.2 t ht).mono (Nat.le_add_right ..)⟩
  refine (h s hlinked).mono fun _ s' hs' => ⟨hs'.1, hs'.2.1, fun t ht => ?_⟩
  have hlimit := hs'.2.1
  exact (hs'.2.2 t ht).mono (by omega)

end Move.Links

/-- Any rule that is read behind the level of a link. -/
theorem fitsLink (hbound : room limit floor ≤ bound + limit) (hdepth : floor ≤ depth)
    (hle : bound ≤ bound') : r.Fits limit (depth + 1) bound' := fun h => by
  have hroom : room limit (floor + 1) + (2 * limit + 20) = room limit floor := room_succ (by omega)
  have hceiling := r.ceiling_le limit (depth + 1)
  have hanti : room limit (depth + 1) ≤ room limit (floor + 1) :=
    room_anti (Nat.succ_le_succ hdepth)
  omega

/-- What a rule builds stays below its ceiling. -/
def Rule.Climbs (source : Source) (limit : Nat) (r : Rule) : Prop :=
  ∀ s, s.parts = [] → s.depth ≤ limit →
    r.production.Ensures source limit (heights limit)
      (fun _ s' => ∀ t ∈ s'.parts, t.Below (r.ceiling limit s.depth)) s

/-- A rule starts without parts, and so below any bound. -/
theorem Rule.Climbs.of_bound {source : Source} (bound : Nat → Nat)
    (h : ∀ floor, r.production.Climbs source limit floor (bound floor) (r.ceiling limit floor)) :
    r.Climbs source limit := fun s hparts hdepth =>
  (h s.depth s ⟨Nat.le_refl _, hdepth, hparts ▸ List.forall_mem_nil _⟩).mono fun _ _ hs => hs.2.2

end Grammar

end JavaSource
