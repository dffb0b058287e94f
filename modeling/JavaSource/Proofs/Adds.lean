import JavaSource.Proofs.Scan

/-!
# What rules add

`Rule.shape` is the table of what a rule reads: the parts that it hands to the phrase being read.
`Adds scan s₀ row s` says that from `s₀` to `s` parts of such a row have come up, that they are
regular, and that their tokens are just those that were read in between.

The contract of a rule is that it adds its shape (`contract`); a few rules give more, or need
something to stand ahead, where the kinds of the parts do not tell enough: a member stands behind
all of its annotations, and a group of a switch block without statements is the last one.

`Adding m row` says that moves add a row wherever they start, so it composes along the moves:
`Adds.step` for moves in a row, `Adding.loop`, `Adding.provided` and so on for the common ones, and
`Adds.close` where the parts so far become a phrase.
-/

namespace JavaSource.Grammar

open Shape Phrase

/-! ### The table -/

/-- What a rule adds. -/
def Rule.shape : Rule → Shape
  | compilationUnit  => phr .compilationUnit
  | declarationStart => phr .declarationStart
  | statementStart   => phr .statementStart
  | expressionStart  => phr .expressionStart
  | qualifiedName    => phr .qualifiedName
  | qualifiedNames   => phr .qualifiedNameList
  | modifiers        => opt (phr .modifiers)
  | annotations      => Phrase.annotations
  | annotationUse    => phr .annotationUse
  | elementValuePair => phr .elementValuePair
  | elementValue     => phr .elementValue
  | type | bareType | resultType => phr .type
  | classType        => phr .classType
  | coit             => phr .coit
  | typeArguments    => phr .typeArguments
  | typeArgument     => anyOf [.type, .wildcard]
  | dim              => phr .dim
  | typeList         => phr .typeList
  | typeParameters   => phr .typeParameters
  | typeParameter    => phr .typeParameter
  | typeBound        => phr .typeBound
  | modifiedType     => all [opt (phr .modifiers), phr .type]
  | packageDeclaration => phr .packageDeclaration
  | importDeclaration  => phr .importDeclaration
  | moduleDeclaration  => phr .moduleDeclaration
  | moduleDirective    => anyOf directives
  | classBodyDeclaration _ => decl
  | memberDeclaration .outermost =>
    one (.only .memberDeclaration (.modifiers :: typeDeclarations))
  | memberDeclaration _   => phr .memberDeclaration
  | memberBody .outermost => anyOf typeDeclarations
  | memberBody _          => anyOf members
  | classBody _           => phr .classBody
  | enumBody              => phr .enumBody
  | enumConstant          => phr .enumConstant
  | recordHeader          => phr .recordHeader
  | recordComponent       => phr .recordComponent
  | formalParameters true => one (.only .formalParameters lambdaParams)
  | formalParameters false => phr .formalParameters
  | formalParameter       => anyOf parameters
  | variableDeclarators   => phr .variableDeclarators
  | variableDeclarator | resourceVariable => phr .variableDeclarator
  | variableDeclaratorId  => phr .variableDeclaratorId
  | variableInitializer   => anyOf initializers
  | arrayInitializer      => phr .arrayInitializer
  | block                 => phr .block
  | blockStatement | statement => stmt
  | localVariableDeclaration => phr .localVariableDeclaration
  | expressionStatement   => phr .expressionStatement
  | forInit               => phr .forInit
  | forUpdate             => phr .forUpdate
  | finallyClause         => phr .finallyClause
  | resourceSpecification => phr .resourceSpecification
  | resource              => phr .resource
  | catchClause           => phr .catchClause
  | catchType             => phr .catchType
  | switchBlock           => phr .switchBlock
  | switchEntry           => anyOf [.switchRule, .switchGroup]
  | switchLabel           => phr .switchLabel
  | caseItem              => anyOf caseItems
  | pattern               => phr .pattern
  | expression            => expr
  | lambda                => phr .lambda
  | ternary               => operand .ternary
  | binary loosest        => operand loosest.phrase.level
  | unary                 => operand .unary
  | postfixed             => operand .post
  | primary | selected    => operand .primary
  | lambdaParameters      => phr .lambdaParameters
  | castHead              => Phrase.castHead
  | methodCall            => phr .methodCall
  | arguments             => phr .arguments
  | superAccess           => anyOf [.methodCall, .superAccess, .superWord]
  | genericInvocation     => phr .explicitGenericInvocation
  | dimExpr               => phr .dimExpr

/-! ### What was added -/

/-- From one state to another, parts in a row of some shape have come up. -/
def Adds (scan : Scan) (s₀ : State) (row : Shape) (s : State) : Prop :=
  ∃ new, s.parts = new.reverse ++ s₀.parts ∧ row.Holds new ∧ (∀ p ∈ new, p.Regular) ∧
    scan.tokens.take s.read =
      scan.tokens.take s₀.read ++ (Tree.leavesAll new).flatMap Token.split

/-- What has to stand ahead of a rule. -/
def Rule.Needs (scan : Scan) (s : State) : Rule → Prop
  | memberBody _ => Ahead.startsAnnotation (scan.source.ahead s) = false
  | superAccess  => (scan.source.ahead s).kind = .superKw
  | _            => True

/-- Whether a rule needs nothing ahead. -/
abbrev Rule.isFree : Rule → Bool
  | memberBody _ | superAccess => false
  | _ => true

/-- What a rule gives beyond its shape. -/
def Rule.Gives (scan : Scan) (s s' : State) : Rule → Prop
  | annotations =>
    Ahead.startsAnnotation (scan.source.ahead s) = false → s'.parts = s.parts ∧ s'.read = s.read
  | modifiers   => Ahead.startsAnnotation (scan.source.ahead s') = false
  | type        => Ahead.startsAnnotation (scan.source.ahead s) = false → Adds scan s plainType s'
  | compilationUnit | declarationStart | statementStart | expressionStart =>
    (scan.source.ahead s').kind = .eof
  | binary loosest => ∀ layer, Layer.ofOperator (scan.source.ahead s').operator.1 = some layer →
    layer.rank < loosest.rank
  | switchEntry =>
    Production.startsLabel (scan.source.ahead s) ∧
      (Adds scan s ((phr .switchRule).alt fullGroup) s' ∨
        Adds scan s emptyGroup s' ∧ Production.isInBody (scan.source.ahead s') = false)
  | _ => True

/-- Whether a rule gives its shape and no more. -/
abbrev Rule.isPlain : Rule → Bool
  | annotations | modifiers | type => false
  | compilationUnit | declarationStart | statementStart | expressionStart => false
  | binary _ | switchEntry => false
  | _ => true

/-- A test that comes out true for the value at hand. -/
class Settled (b : Bool) : Prop where
  eq : b = true

instance : Settled true := ⟨rfl⟩

theorem Rule.needs_of_isFree (r : Rule) [hr : Settled r.isFree] (scan : Scan) (s : State) :
    r.Needs scan s := by
  cases r
  case memberBody => exact absurd hr.eq Bool.false_ne_true
  case superAccess => exact absurd hr.eq Bool.false_ne_true
  all_goals exact trivial

theorem Rule.gives_of_isPlain (r : Rule) [hr : Settled r.isPlain] (scan : Scan) (s s' : State) :
    r.Gives scan s s' := by
  cases r
  case annotations | modifiers | type | binary | switchEntry => exact absurd hr.eq Bool.false_ne_true
  case compilationUnit | declarationStart | statementStart | expressionStart =>
    exact absurd hr.eq Bool.false_ne_true
  all_goals exact trivial

/-- Rules add what the table says. -/
def contract (scan : Scan) : Contract where
  before r s := r.Needs scan s
  after r s s' := Adds scan s r.shape s' ∧ r.Gives scan s s'

variable {scan : Scan} {limit : Nat} {s₀ s₁ s s' : State} {row row' : Shape}

namespace Adds

theorem refl (s : State) : Adds scan s nothing s :=
  ⟨[], rfl, rfl, nofun, (List.append_nil _).symm⟩

theorem trans (h : Adds scan s₀ row s₁) (h' : Adds scan s₁ row' s) :
    Adds scan s₀ (row.andThen row') s := by
  obtain ⟨new, hparts, hholds, hregular, hleaves⟩ := h
  obtain ⟨new', hparts', hholds', hregular', hleaves'⟩ := h'
  refine ⟨new ++ new', ?_, hholds.andThen hholds', fun p hp => ?_, ?_⟩
  · rw [hparts', hparts, List.reverse_append, List.append_assoc]
  · exact (List.mem_append.mp hp).elim (hregular p) (hregular' p)
  · rw [hleaves', hleaves, Tree.leavesAll_append, List.flatMap_append, List.append_assoc]

theorem mono (h : Adds scan s₀ row s) (hrow : Within row row') : Adds scan s₀ row' s := by
  obtain ⟨new, hparts, hholds, hrest⟩ := h
  exact ⟨new, hparts, hrow new hholds, hrest⟩

/-- The depth and what probes found do not matter. -/
theorem congr (h : Adds scan s₀ row s) (hparts : s₁.parts = s₀.parts) (hread : s₁.read = s₀.read)
    (hparts' : s'.parts = s.parts) (hread' : s'.read = s.read) : Adds scan s₁ row s' := by
  obtain ⟨new, hnew, hholds, hregular, hleaves⟩ := h
  exact ⟨new, by rw [hparts', hparts, hnew], hholds, hregular, by rw [hread', hread, hleaves]⟩

/-- The phrase that was built last may tell more. -/
theorem monoLast (h : Adds scan s₀ row s) (hrow : ∀ ts, row.Holds ts →
      (∀ t, ts.getLast? = some t → t.phrase? = (scan.source.ahead s).last) → row'.Holds ts) :
    Adds scan s₀ row' s := by
  obtain ⟨new, hparts, hholds, hrest⟩ := h
  refine ⟨new, hparts, hrow new hholds fun t ht => ?_, hrest⟩
  rw [← List.head?_reverse] at ht
  rw [Source.ahead, hparts, List.head?_append, ht]
  rfl

/-- Where a part has come up, something has been read. -/
theorem lt (h : Adds scan s₀ row s)
    (hrow : row.needs fun i => !i.kinds.contains .compilationUnit) : s₀.read < s.read := by
  obtain ⟨new, -, hholds, hregular, hleaves⟩ := h
  obtain ⟨p, hp, i, hi, hfits⟩ := hholds.needs hrow
  have hkind : p.phrase? ≠ some .compilationUnit := fun hk => by
    rw [List.contains_iff_mem.mpr (Item.mem_kinds_of_fits hfits hk)] at hi
    cases hi
  obtain ⟨t, ht⟩ := List.exists_mem_of_ne_nil _ ((hregular p hp).leaves_ne_nil hkind)
  have hmem : t ∈ Tree.leavesAll new := by
    rw [Tree.leavesAll_eq_flatMap]
    exact List.mem_flatMap.mpr ⟨p, hp, ht⟩
  obtain ⟨u, hu⟩ := List.exists_mem_of_ne_nil _ t.split_ne_nil
  have hpos := List.length_pos_of_mem (List.mem_flatMap.mpr ⟨t, hmem, hu⟩)
  have hlen := congrArg List.length hleaves
  rw [List.length_append, List.length_take, List.length_take] at hlen
  omega

theorem token {t : Token} (ht : scan.tokens[s.read]? = some t) (he : t.kind ≠ .eof)
    {i : Item} (hi : i.fits (.leaf t)) :
    Adds scan s (one i) { s with read := s.read + 1, parts := .leaf t :: s.parts } := by
  have hmem := List.mem_of_getElem? ht
  refine ⟨[.leaf t], rfl, ⟨_, rfl, hi⟩, fun p hp => ?_, ?_⟩
  · rw [List.mem_singleton.mp hp]
    exact .leaf (Scan.spelled hmem he)
  · simp only [Tree.leavesAll, Tree.leaves, List.append_nil, List.flatMap_cons,
      List.flatMap_nil, Scan.split_token hmem]
    exact Scan.take_succ ht

theorem joined {t : Token} {op : TokenKind} {width : Nat}
    (hop : (scan.source.ahead s).operator = (op, width)) (hwidth : width ≠ 1)
    (ht : scan.source.joined op s.read width = some t) :
    Adds scan s (tok op) { s with read := s.read + width, parts := .leaf t :: s.parts } := by
  obtain ⟨hkind, hspelled, -, htake⟩ := Scan.split_joined hop hwidth ht
  refine ⟨[.leaf t], rfl, ⟨_, rfl, ?_⟩, fun p hp => ?_, ?_⟩
  · rw [Item.fits, hkind]
    exact List.contains_iff_mem.mpr (List.mem_singleton_self op)
  · rw [List.mem_singleton.mp hp]
    exact .leaf hspelled
  · simp only [Tree.leavesAll, Tree.leaves, List.append_nil, List.flatMap_cons, List.flatMap_nil]
    exact htake

end Adds

/-! ### Moves -/

/-- Wherever the moves start, they add a row. -/
def Adding (scan : Scan) (limit : Nat) {α : Type} (m : Move α) (row : Shape) : Prop :=
  ∀ s, m.Ensures scan.source limit (contract scan) (fun _ s' => Adds scan s row s') s

variable {α β : Type} {Q : α → State → Prop}

/-- Moves behind what was added before. -/
theorem Adds.step {m : Move β} {f : β → Move α} (h : Adds scan s₀ row s)
    (hm : Adding scan limit m row')
    (hnext : ∀ {b s'}, Adds scan s₀ (row.andThen row') s' →
      (f b).Ensures scan.source limit (contract scan) Q s') :
    (m >>= f).Ensures scan.source limit (contract scan) Q s :=
  .bind ((hm s).mono fun _ _ hs => hnext (h.trans hs))

/-- Moves that add nothing. -/
theorem Adds.skip {m : Move β} {f : β → Move α} (h : Adds scan s₀ row s)
    (hm : Adding scan limit m nothing)
    (hnext : ∀ {b s'}, Adds scan s₀ row s' → (f b).Ensures scan.source limit (contract scan) Q s') :
    (m >>= f).Ensures scan.source limit (contract scan) Q s :=
  h.step hm fun h => hnext (h.mono .andThen_nothing)

/-- One level deeper. -/
theorem Adds.nest {f : Unit → Move α} (h : Adds scan s₀ row s)
    (hnext : ∀ {s'}, Adds scan s₀ row s' →
      (f ()).Ensures scan.source limit (contract scan) Q s') :
    (Move.nest >>= f).Ensures scan.source limit (contract scan) Q s :=
  .nest (hnext (h.congr rfl rfl rfl rfl))

/-- Moves that come last. -/
theorem Adds.last {m : Move α} (h : Adds scan s₀ row s) (hm : Adding scan limit m row')
    (hQ : ∀ {a s'}, Adds scan s₀ (row.andThen row') s' → Q a s') :
    m.Ensures scan.source limit (contract scan) Q s :=
  (hm s).mono fun _ _ hs => hQ (h.trans hs)

/-- The parts so far become a phrase that fits an item. -/
theorem Adds.closeAs {kind : Phrase} {i : Item} {Q : Unit → State → Prop}
    (h : Adds scan s₀ row s) (hs₀ : s₀.parts = []) (hrow : Within row kind.shape)
    (hi : ∀ new start stop, row.Holds new → i.fits (.node kind new start stop))
    (hQ : ∀ {s'}, s'.read = s.read → Adds scan s₀ (one i) s' → Q () s') :
    (Move.close kind).Ensures scan.source limit (contract scan) Q s := by
  obtain ⟨new, hparts, hholds, hregular, hleaves⟩ := h
  rw [hs₀, List.append_nil] at hparts
  refine @hQ { s with parts := [_] } rfl
    ⟨[_], by rw [hs₀]; rfl, ⟨_, rfl, ?_⟩, fun p hp => ?_, ?_⟩
  · rw [hparts, List.reverse_reverse]
    exact hi new _ _ hholds
  · rw [List.mem_singleton.mp hp, hparts, List.reverse_reverse]
    exact .ofParts (hrow _ hholds) hregular _
  · simp only [Tree.leavesAll, Tree.ofParts, Tree.leaves, List.append_nil]
    rw [hparts, List.reverse_reverse]
    exact hleaves

/-- The parts so far become a phrase. -/
theorem Adds.close {kind : Phrase} {Q : Unit → State → Prop} (h : Adds scan s₀ row s)
    (hs₀ : s₀.parts = []) (hrow : Within row kind.shape)
    (hQ : ∀ {s'}, s'.read = s.read → Adds scan s₀ (phr kind) s' → Q () s') :
    (Move.close kind).Ensures scan.source limit (contract scan) Q s :=
  h.closeAs (i := .phrase [kind]) hs₀ hrow
    (fun _ _ _ _ => List.contains_iff_mem.mpr (List.mem_singleton_self kind)) hQ

namespace Adding

theorem ensures {m : Move α} (h : Adding scan limit m row) (s : State) :
    m.Ensures scan.source limit (contract scan) (fun _ s' => Adds scan s row s') s := h s

theorem mono {m : Move α} (h : Adding scan limit m row) (hrow : Within row row') :
    Adding scan limit m row' := fun s => (h s).mono fun _ _ hs => hs.mono hrow

theorem bind {m : Move β} {f : β → Move α} (h : Adding scan limit m row)
    (hf : ∀ b, Adding scan limit (f b) row') :
    Adding scan limit (m >>= f) (row.andThen row') := fun s =>
  .bind ((h s).mono fun b s₁ hs => (hf b s₁).mono fun _ _ hs' => hs.trans hs')

/-- A row, and then a value. -/
theorem andReturn {m : Move β} {a : α} (h : Adding scan limit m row) :
    Adding scan limit (m >>= fun _ => Pure.pure a) row := fun s => .bind (h s)

/-- Moves behind some that add nothing. -/
theorem after {m : Move β} {f : β → Move α} (h : Adding scan limit m nothing)
    (hf : ∀ b, Adding scan limit (f b) row) : Adding scan limit (m >>= f) row := h.bind hf

theorem pure (a : α) : Adding scan limit (pure a) nothing := fun s => .refl s

theorem ahead {f : Ahead → Move α} (h : ∀ a, Adding scan limit (f a) row) :
    Adding scan limit (Move.ahead >>= f) row := fun s => h _ s

theorem isAt {kind : TokenKind} {f : Bool → Move α} (h : ∀ b, Adding scan limit (f b) row) :
    Adding scan limit (Move.isAt kind >>= f) row := fun s => h _ s

theorem attempt {what : Probe} {f : Option Nat → Move α}
    (h : ∀ width, Adding scan limit (f width) row) :
    Adding scan limit (Move.attempt what >>= f) row :=
  fun s width memo => (h width { s with memo }).mono fun _ _ h' => h'.congr rfl rfl rfl rfl

theorem tried {what : Probe} : Adding scan limit (Move.attempt what) nothing :=
  fun s _ _ => (Adds.refl s).congr rfl rfl rfl rfl

theorem nest {f : Unit → Move α} (h : Adding scan limit (f ()) row) :
    Adding scan limit (Move.nest >>= f) row :=
  fun s _ => (h { s with depth := s.depth + 1 }).mono fun _ _ h' => h'.congr rfl rfl rfl rfl

theorem fail (why : Refusal) : Adding scan limit (Move.fail why : Move α) row := fun _ => trivial

theorem mismatch (expecting : String) :
    Adding scan limit (Move.mismatch expecting : Move α) row := fail _

theorem ite {c : Prop} [Decidable c] {m m' : Move α} (h : Adding scan limit m row)
    (h' : Adding scan limit m' row) : Adding scan limit (if c then m else m') row := by
  split
  · exact h
  · exact h'

end Adding

/-! ### Tokens -/

/-- A token that is known. -/
theorem take_ensures {i : Item} (hi : ∀ t, scan.tokens[s.read]? = some t → i.fits (.leaf t)) :
    Move.take.Ensures scan.source limit (contract scan)
      (fun _ s' => Adds scan s (one i) s' ∧ s'.read = s.read + 1) s := fun t ht he => by
  rw [Scan.getElem?_tokens] at ht
  exact ⟨.token ht he (hi t ht), rfl⟩

/-- A token of one of some kinds. -/
theorem take_oneOf {kinds : List TokenKind} (h : (scan.source.ahead s).kind ∈ kinds) :
    Move.take.Ensures scan.source limit (contract scan)
      (fun _ s' => Adds scan s (oneOf kinds) s' ∧ s'.read = s.read + 1) s :=
  take_ensures fun _ ht => List.contains_iff_mem.mpr (Scan.kindAt_eq (n := 0) ht ▸ h)

/-- A token of a kind. -/
theorem take_tok {kind : TokenKind} (h : (scan.source.ahead s).isAt kind) :
    Move.take.Ensures scan.source limit (contract scan)
      (fun _ s' => Adds scan s (tok kind) s' ∧ s'.read = s.read + 1) s :=
  take_oneOf (List.mem_singleton.mpr (beq_iff_eq.mp h))

/-- A word. -/
theorem take_word {text : String} (h : (scan.source.ahead s).isAtWord text) :
    Move.take.Ensures scan.source limit (contract scan)
      (fun _ s' => Adds scan s (word text) s' ∧ s'.read = s.read + 1) s :=
  take_ensures fun t ht => by
    rw [Ahead.isAtWord, Scan.at_eq (n := 0) ht] at h
    exact h

/-- A token if it is there. -/
theorem eat_ensures (kind : TokenKind) : (Move.eat kind).Ensures scan.source limit (contract scan)
    (fun eaten s' => if eaten then Adds scan s (tok kind) s' else s' = s) s := by
  show (if (scan.source.ahead s).isAt kind then _ else _ : Move Bool).Ensures ..
  split
  · exact .bind ((take_tok ‹_›).mono fun _ _ h => h.1)
  · exact rfl

/-- Two tokens that are known. -/
theorem takeTwo_ensures {kind kind' : TokenKind}
    (h : ((scan.source.ahead s).isAt kind && (scan.source.ahead s).kindAt 1 == kind') = true) :
    Move.takeTwo.Ensures scan.source limit (contract scan)
      (fun _ s' => Adds scan s ((tok kind).andThen (tok kind')) s') s := by
  obtain ⟨hfirst, hsecond⟩ := (Bool.and_eq_true ..).mp h
  refine .bind ((take_tok hfirst).mono fun _ s₁ ⟨h₁, hread⟩ => ?_)
  have hsecond' : (scan.source.ahead s₁).isAt kind' := by
    have hkind : (scan.source.ahead s₁).kind = (scan.source.ahead s).kindAt 1 := by
      simp only [Ahead.kind, Ahead.kindAt, Ahead.at_, Source.ahead, hread, Nat.add_zero]
    rwa [Ahead.isAt, hkind]
  exact (take_tok hsecond').mono fun _ _ h₂ => h₁.trans h₂.1

/-- A token that is known, behind what was added before. -/
theorem Adds.stepTok {kind : TokenKind} {f : Unit → Move α} (h : Adds scan s₀ row s)
    (hkind : (scan.source.ahead s).kind = kind)
    (hnext : ∀ {s'}, Adds scan s₀ (row.andThen (tok kind)) s' →
      (f ()).Ensures scan.source limit (contract scan) Q s') :
    (Move.take >>= f).Ensures scan.source limit (contract scan) Q s :=
  .bind ((take_tok (beq_iff_eq.mpr hkind)).mono fun _ _ h' => hnext (h.trans h'.1))

/-- A token that is known, one level deeper. -/
theorem Adds.nestTok {kind : TokenKind} {f : Unit → Move α} (h : Adds scan s₀ row s)
    (hkind : (scan.source.ahead s).kind = kind)
    (hnext : ∀ {s'}, Adds scan s₀ (row.andThen (tok kind)) s' →
      (f ()).Ensures scan.source limit (contract scan) Q s') :
    (Move.nest >>= fun _ => Move.take >>= f).Ensures scan.source limit (contract scan) Q s :=
  .nest (Adds.stepTok (h.congr rfl rfl rfl rfl) hkind hnext)

/-- A word, behind what was added before. -/
theorem Adds.stepWord {text : String} {f : Unit → Move α} (h : Adds scan s₀ row s)
    (hword : (scan.source.ahead s).isAtWord text)
    (hnext : ∀ {s'}, Adds scan s₀ (row.andThen (word text)) s' →
      (f ()).Ensures scan.source limit (contract scan) Q s') :
    (Move.take >>= f).Ensures scan.source limit (contract scan) Q s :=
  .bind ((take_word hword).mono fun _ _ h' => hnext (h.trans h'.1))

/-! ### Common moves -/

/-- A rule, with what it gives. -/
theorem read_ensures {r : Rule} {P : State → Prop} (hr : r.Needs scan { s with parts := [] })
    (hP : ∀ s₁, Adds scan { s with parts := [] } r.shape s₁ →
      r.Gives scan { s with parts := [] } s₁ →
      P { s with read := s₁.read, parts := s₁.parts ++ s.parts, memo := s₁.memo }) :
    (Move.read r).Ensures scan.source limit (contract scan) (fun _ => P) s :=
  ⟨hr, fun s₁ h => hP s₁ h.1 h.2⟩

/-- What a rule adds to no parts it adds to any. -/
theorem Adds.lift {memo : Memo} (h : Adds scan { s with parts := [] } row s₁) :
    Adds scan s row { s with read := s₁.read, parts := s₁.parts ++ s.parts, memo } := by
  obtain ⟨new, hparts, hrest⟩ := h
  rw [List.append_nil] at hparts
  exact ⟨new, by rw [hparts], hrest⟩

/-- What is seen ahead depends on how much has been read. -/
theorem sees_congr {β : Type} {f : Ahead → β} (h : s'.read = s.read)
    (hf : ∀ a last, f { a with last } = f a) :
    f (scan.source.ahead s') = f (scan.source.ahead s) := by
  rw [← hf _ none, ← hf (scan.source.ahead s) none]
  simp only [Source.ahead, h]

/-- Behind modifiers no annotation stands. -/
theorem read_modifiers : (Move.read .modifiers).Ensures scan.source limit (contract scan)
    (fun _ s' => Adds scan s (opt (phr .modifiers)) s' ∧
      Ahead.startsAnnotation (scan.source.ahead s') = false) s :=
  read_ensures trivial fun _ h hgives => ⟨h.lift, hgives⟩

/-- Where no annotation stands none is read. -/
theorem read_annotations (hs : Ahead.startsAnnotation (scan.source.ahead s) = false) :
    (Move.read .annotations).Ensures scan.source limit (contract scan)
      (fun _ s' => s'.parts = s.parts ∧ s'.read = s.read) s :=
  read_ensures trivial fun _ _ hgives => by
    obtain ⟨hparts, hread⟩ := hgives hs
    exact ⟨congrArg (· ++ s.parts) hparts, hread⟩

/-- Where no annotation stands a type has none. -/
theorem read_type (hs : Ahead.startsAnnotation (scan.source.ahead s) = false) :
    (Move.read .type).Ensures scan.source limit (contract scan)
      (fun _ s' => Adds scan s plainType s') s :=
  read_ensures trivial fun _ _ hgives => (hgives hs).lift

namespace Adding

theorem expect (kind : TokenKind) : Adding scan limit (Move.expect kind) (tok kind) := fun s => by
  show (if (scan.source.ahead s).isAt kind then _ else _ : Move Unit).Ensures ..
  split
  · exact (take_tok ‹_›).mono fun _ _ h => h.1
  · exact mismatch _ s

theorem expectWord (text : String) :
    Adding scan limit (Move.expectWord text) (word text) := fun s => by
  show (if (scan.source.ahead s).isAtWord text then _ else _ : Move Unit).Ensures ..
  split
  · exact (take_word ‹_›).mono fun _ _ h => h.1
  · exact mismatch _ s

theorem eat (kind : TokenKind) : Adding scan limit (Move.eat kind) (opt (tok kind)) := fun s =>
  (eat_ensures kind).mono fun eaten s' h => by
    cases eaten with
    | true => exact Adds.mono h .present
    | false =>
      obtain rfl : s' = s := h
      exact (Adds.refl s').mono .absent

theorem provided {allows : Ahead → Bool} {m : Move Unit}
    (hm : ∀ s, allows (scan.source.ahead s) → m.Ensures scan.source limit (contract scan)
      (fun _ s' => Adds scan s row s') s) :
    Adding scan limit (Move.provided allows m) (opt row) := fun s => by
  show (if allows (scan.source.ahead s) then _ else _ : Move Unit).Ensures ..
  split
  · exact (hm s ‹_›).mono fun _ _ h => h.mono .present
  · exact (Adds.refl s).mono .absent

/-- Moves that need not know what lies ahead. -/
theorem optional {allows : Ahead → Bool} {m : Move Unit} (hm : Adding scan limit m row) :
    Adding scan limit (Move.provided allows m) (opt row) := provided fun s _ => hm s

/-- Moves behind a token, if it is there. -/
theorem providedAt {kind : TokenKind} {m : Move Unit} (hm : Adding scan limit m row) :
    Adding scan limit (Move.provided (·.isAt kind) (Move.take >>= fun _ => m)) (behind kind row) :=
  provided fun _ hkind => .bind ((take_tok hkind).mono fun _ _ h => h.1.last hm fun h => h)

/-- Moves behind a word, if it is there. -/
theorem providedAtWord {text : String} {m : Move Unit} (hm : Adding scan limit m row) :
    Adding scan limit (Move.provided (·.isAtWord text) (Move.take >>= fun _ => m))
      (behindWord text row) :=
  provided fun _ hword => .bind ((take_word hword).mono fun _ _ h => h.1.last hm fun h => h)

/-- Moves that add a row or nothing, over and over. -/
theorem loop {body : Move Bool} (hbody : Adding scan limit body (opt row)) :
    Adding scan limit (Move.loop body) (many row) := fun s₀ => by
  refine .loop (Adds scan s₀ (many row)) ((Adds.refl s₀).mono .none_many) (fun s₁ h => ?_)
    fun _ h => h
  refine (hbody s₁).mono fun _ _ h' => (h.trans h').mono fun ts hts => ?_
  obtain ⟨us, vs, rfl, hus, rfl | hvs⟩ := hts
  · rwa [List.append_nil]
  · exact hus.many_append hvs

/-- Moves that always add a row, over and over. -/
theorem loopSeveral {body : Move Bool} (hbody : Adding scan limit body row)
    (hrow : row.needs fun i => !i.kinds.contains .compilationUnit) :
    Adding scan limit (Move.loop body) (several row) := fun s => by
  refine .loopWhile (fun s₁ => s₁ = s ∨ Adds scan s (several row) s₁) (.inl rfl) fun s₁ hs₁ => ?_
  refine (hbody s₁).mono fun more s₂ h => ?_
  have hseveral : Adds scan s (several row) s₂ := by
    rcases hs₁ with rfl | hs₁
    · exact h.mono .one_several
    · exact (hs₁.trans h).mono .several_again
  cases more with
  | true => exact ⟨h.lt hrow, .inr hseveral⟩
  | false => exact hseveral

/-- A rule that needs nothing ahead. -/
theorem read {r : Rule} [Settled r.isFree] : Adding scan limit (Move.read r) r.shape := fun _ =>
  read_ensures (r.needs_of_isFree ..) fun _ h _ => h.lift

variable {r : Rule} [Settled r.isFree]

/-- A rule that adds a row of another shape too. -/
theorem readAs (h : Within r.shape row) : Adding scan limit (Move.read r) row := mono read h

theorem readAt (kind : TokenKind) :
    Adding scan limit (Move.readAt kind r) (opt r.shape) := fun s => by
  show (if (scan.source.ahead s).isAt kind then _ else _ : Move Unit).Ensures ..
  split
  · exact (read s).mono fun _ _ h => h.mono .present
  · exact (Adds.refl s).mono .absent

theorem readAfter (kind : TokenKind) :
    Adding scan limit (Move.readAfter kind r) (behind kind r.shape) := fun s => by
  refine .bind ((eat_ensures kind).mono fun eaten s₁ h => ?_)
  cases eaten with
  | true => exact (read s₁).mono fun _ _ h' => (Adds.trans h h').mono .present
  | false => exact (show s₁ = s from h) ▸ (Adds.refl s).mono .absent

theorem separated (separator : TokenKind) :
    Adding scan limit (Move.separated separator r) (Shape.separated separator r.shape) := by
  refine (read.bind fun _ => loop fun s => ?_).mono fun _ h => holds_andThen.mp h
  refine .bind ((eat_ensures separator).mono fun eaten s₁ h => ?_)
  cases eaten with
  | true =>
    exact .bind ((read s₁).mono fun _ _ h' =>
      ((Adds.trans h h').mono fun _ hts => holds_andThen.mp hts).mono .present)
  | false => exact (show s₁ = s from h) ▸ (Adds.refl s).mono .absent

theorem readWhile {more : Ahead → Bool} :
    Adding scan limit (Move.readWhile more r) (many r.shape) := by
  refine loop fun s => ?_
  show (if more (scan.source.ahead s) then _ else _ : Move Bool).Ensures ..
  split
  · exact .bind ((read s).mono fun _ _ h => h.mono .present)
  · exact (Adds.refl s).mono .absent

theorem commasUpTo {closer : Ahead → Bool} :
    Adding scan limit (Move.commasUpTo closer r) (listed .comma r.shape) := by
  refine loop fun s => ?_
  show (if closer (scan.source.ahead s) then _ else _ : Move Bool).Ensures ..
  split
  · exact (Adds.refl s).mono .absent
  · exact .bind ((read s).mono fun _ s₁ h => (eat .comma s₁).mono fun _ _ h' =>
      ((h.trans h').mono fun _ hts => holds_andThen.mp hts).mono .present)

end Adding

/-- A rule that adds a row of another shape too. -/
theorem readAs_ensures {r : Rule} [Settled r.isFree] (h : Within r.shape row) :
    (Move.read r).Ensures scan.source limit (contract scan) (fun _ s' => Adds scan s row s') s :=
  Adding.readAs h s

/-! ### Rules -/

/-- The production of a rule ensures what the contract says. -/
def Keeps (scan : Scan) (limit : Nat) (r : Rule) : Prop :=
  ∀ s, s.parts = [] → r.Needs scan s → r.production.Ensures scan.source limit (contract scan)
    (fun _ s' => Adds scan s r.shape s' ∧ r.Gives scan s s') s

/-- A rule that gives its shape and no more. -/
theorem Keeps.of_shape {r : Rule} [Settled r.isPlain] (h : ∀ s, s.parts = [] →
      r.production.Ensures scan.source limit (contract scan)
        (fun _ s' => Adds scan s r.shape s') s) : Keeps scan limit r :=
  fun s hs _ => (h s hs).mono fun _ _ h' => ⟨h', r.gives_of_isPlain ..⟩

end JavaSource.Grammar
