import JavaSource.Proofs.Reading.Types

/-!
# Reading expressions

Each reader yields what its goal gives.  A chain of operations is followed down to its start; every
link on the way is a readable tree of a kind that extends what is to its left.
-/

namespace JavaSource

open Phrase

namespace Opened.Readable

variable {o : Opened} {kind : Phrase}

/-! ### Literals -/

/-- A literal has a value, or one that is out of range. -/
theorem literalValue_cases {t : Token} (h : t.kind ∈ literals) :
    (∃ value, t.literalValue? = .ok value) ∨
      ∃ text, t.literalValue? = .error (.outOfRange text) := by
  simp only [literals, List.mem_cons, List.not_mem_nil, or_false] at h
  unfold Token.literalValue?
  rcases h with h | h | h | h | h | h | h | h <;> rw [h] <;> dsimp only
  · split
    · exact .inl ⟨_, rfl⟩
    · exact .inr ⟨_, rfl⟩
  · split
    · exact .inl ⟨_, rfl⟩
    · exact .inr ⟨_, rfl⟩
  all_goals exact .inl ⟨_, rfl⟩

theorem literal (ho : o.Readable .literal) : Yields (fun _ => True) o.literal := by
  refine (ho.token literals rfl).bind fun t ⟨hkind, _⟩ => ?_
  rcases literalValue_cases hkind with ⟨value, h⟩ | ⟨text, h⟩
  · rw [h]
    trivial
  · rw [h]
    exact .outOfRange text none

/-! ### Operators -/

/-- An operator that the first token spells. -/
theorem operator {α : Type} {place : OperatorPlace} {ofText? : String → Option α}
    (ho : o.Readable kind) (kinds : List TokenKind)
    (h : (kind.shape.nth Shape.tokenOnly 0).any (·.all (·.any (·.isTokenOf kinds))) )
    (hk : (kinds.all fun k => (k.text?.bind ofText?).isSome)) :
    Yields (fun _ => True) (o.operator place ofText?) := by
  refine (ho.token kinds h).bind fun t ⟨hkind, hspelled⟩ => ?_
  obtain ⟨op, hop⟩ := known_of_spelled hkind hspelled hk
  rw [hop]
  trivial

/-- The tokens of operations on two values. -/
def binaries : List TokenKind :=
  [.orOr, .andAnd, .bitOr, .caret, .bitAnd, .eqEq, .notEq, .lt, .gt, .le, .ge, .lshift, .rshift,
   .urshift, .add, .sub, .mul, .div, .mod]

/-- The phrases whose first phrase is what they extend. -/
def chains : List Phrase :=
  [.conditionalOr, .conditionalAnd, .inclusiveOr, .exclusiveOr, .bitAnd, .equality, .relational,
   .shift, .additive, .multiplicative, .memberAccess, .arrayAccess]

theorem mem_chains (h : isChain kind) : kind ∈ chains := by
  cases kind <;> first | decide | cases h

theorem extend_binary (ho : o.Readable kind) {left : Expr}
    (h : (kind.shape.nth Shape.tokenOnly 0).any (·.all (·.any (·.isTokenOf binaries))))
    (hn : (kind.shape.nth Shape.phraseOnly 1).any (·.all (·.any (·.isAnyOf Goal.expr.kinds))))
    (hkind : kind ≠ .memberAccess ∧ kind ≠ .arrayAccess) :
    Yields (fun _ => True) (o.extend left) := by
  refine (ho.readNth hn).bind fun right _ => ?_
  rw [ho.kind]
  split
  · exact absurd (Option.some.inj ‹_›) hkind.1
  · exact absurd (Option.some.inj ‹_›) hkind.2
  · exact (ho.operator binaries h rfl).bind fun _ _ => trivial

theorem extend (ho : o.Readable kind) (hchain : isChain kind) (left : Expr) :
    Yields (fun _ => True) (o.extend left) := by
  have hmem := mem_chains hchain
  simp only [chains, List.mem_cons, List.not_mem_nil, or_false] at hmem
  rcases hmem with rfl | rfl | rfl | rfl | rfl | rfl | rfl | rfl | rfl | rfl | rfl | rfl
  iterate 10 exact ho.extend_binary rfl rfl (by decide)
  · refine (ho.readNth rfl).bind fun right _ => ?_
    rw [ho.kind]
    trivial
  · refine (ho.readNth rfl).bind fun right _ => ?_
    rw [ho.kind]
    trivial

/-- Where a chain starts: its links, and an expression. -/
def StartsChain (found : List Opened × Part) : Prop :=
  (∀ link ∈ found.1, ∃ kind, link.Readable kind ∧ isChain kind) ∧
    found.2.Readable ∧ ∃ kind ∈ Goal.expr.kinds, found.2.tree.phrase? = some kind

theorem firstStart_eq (links : List Opened) (link : Opened) (ps : List Part) :
    Part.firstStart links link ps =
      match ps.find? Part.isPhrase with
      | some p => p.chainStart links
      | none   => link.lacks "at least 1 child rules" := by
  induction ps with
  | nil => rw [Part.firstStart]; rfl
  | cons p ps ih =>
    rw [Part.firstStart, List.find?_cons]
    cases hp : p.isPhrase with
    | true => rfl
    | false => exact ih

/-- What a link extends is an expression. -/
theorem first_of_chain (ho : o.Readable kind) (hchain : isChain kind) :
    ∃ p ∈ o.parts, o.parts.find? Part.isPhrase = some p ∧
      ∃ kind ∈ Goal.expr.kinds, p.tree.phrase? = some kind := by
  have hshape : ∀ k ∈ chains,
      (k.shape.nth Shape.phraseOnly 0).any (·.all (·.any (·.isAnyOf Goal.expr.kinds))) := by decide
  obtain ⟨p, hmem, hp, hkind⟩ := ho.phrase_at 0 Goal.expr.kinds (hshape kind (mem_chains hchain))
  rw [← List.head?_eq_getElem?, phrases, List.head?_filter] at hp
  exact ⟨p, hmem, hp, hkind⟩

theorem chainStart {p : Part} (hp : p.Readable) {links : List Opened}
    (hlinks : ∀ link ∈ links, ∃ kind, link.Readable kind ∧ isChain kind)
    (hk : ∃ kind ∈ Goal.expr.kinds, p.tree.phrase? = some kind) :
    Yields StartsChain (p.chainStart links) := by
  induction hp generalizing links with
  | @mk tree parts read regular trees below reads ih =>
    obtain ⟨kind, hmem, hphrase⟩ := hk
    have hphrase : tree.phrase? = some kind := hphrase
    rw [Part.chainStart, hphrase, Option.any_some]
    split
    · rename_i hchain
      have ho : Readable ⟨tree, parts⟩ kind := ⟨hphrase, regular, trees, below⟩
      obtain ⟨q, hq, hfind, hk⟩ := ho.first_of_chain hchain
      rw [firstStart_eq, hfind]
      exact ih q hq (List.forall_mem_cons.mpr ⟨⟨kind, ho, hchain⟩, hlinks⟩) hk
    · exact ⟨hlinks, .mk regular trees below reads, kind, hmem, hphrase⟩

theorem chain (ho : o.Readable kind) (hchain : isChain kind) : Yields (fun _ => True) o.chain := by
  have hfirst : Yields StartsChain (Part.firstStart [o] o o.parts) := by
    obtain ⟨p, hmem, hfind, hk⟩ := ho.first_of_chain hchain
    rw [firstStart_eq, hfind]
    exact chainStart (ho.below p hmem) (List.forall_mem_singleton.mpr ⟨kind, ho, hchain⟩) hk
  refine hfirst.bind fun ⟨links, start⟩ ⟨hlinks, hstart, k, hk, hphrase⟩ => ?_
  refine (hstart.reads_kind hphrase hk).bind fun left _ => .foldlM trivial fun left _ link hlink =>
    ?_
  obtain ⟨k, hlink, hchain⟩ := hlinks link hlink
  exact hlink.extend hchain left

/-! ### Operators and lambdas -/

theorem assignment (ho : o.Readable .assignment) : Yields (fun _ => True) o.assignment := by
  obtain ⟨t, ht, hkind, hspelled⟩ := ho.token_eq assignments rfl
  have hrest : ∀ op, Yields (fun _ => True) (do
      let target ← o.readNth 0 .expr
      return Node.assignment o.span target op (← o.readNth 1 .expr)) := fun op =>
    (ho.readNth rfl).bind fun _ _ => (ho.readNth rfl).bind fun _ _ => trivial
  unfold Opened.assignment
  rw [ht]
  show Yields _ (if (t.kind == .assign) = true then _ else _)
  split
  · exact hrest _
  · rename_i hne
    rcases List.mem_cons.mp hkind with h | hkind
    · exact absurd (beq_iff_eq.mpr h) hne
    · obtain ⟨op, hop⟩ := known_of_spelled (f := AssignOp.ofText?) hkind hspelled rfl
      have hoperator : o.operator .inAssignment AssignOp.ofText? = .ok op := by
        simp only [Opened.operator, ht, bind, Except.bind, hop]
        rfl
      rw [hoperator]
      exact hrest _

theorem instanceOf (ho : o.Readable .instanceOf) : Yields (fun _ => True) o.instanceOf := by
  refine (ho.readNth rfl).bind fun _ _ => (ho.nth [.pattern, .type] rfl).bind
    fun target ⟨hread, k, hk, hphrase⟩ => ?_
  split
  · exact (hread.reads_as (beq_iff_eq.mp ‹_›) rfl).bind fun _ _ => trivial
  · rename_i hne
    rcases List.mem_cons.mp hk with rfl | hk
    · exact absurd (beq_iff_eq.mpr hphrase) hne
    · obtain rfl := List.mem_singleton.mp hk
      exact (hread.reads_as hphrase rfl).bind fun _ _ => trivial

/-- Without parentheses and without types there is one name. -/
theorem lambdaName (ho : o.Readable .lambdaParameters) (hnone : o.first? .formalParameters = none)
    (hparen : ¬o.hasToken .lparen = true) : ∃ id, o.identifier? = some id := by
  rcases ho.exists_either [.identifier, .lparen] [.formalParameters] rfl with
    ⟨t, ht, hkind⟩ | ⟨p, hp, k, hk, hphrase⟩
  · rcases List.mem_cons.mp hkind with hkind | hkind
    · exact identifier?_of_mem ht hkind
    · exact absurd (List.mem_singleton.mp hkind ▸ hasToken_of_mem ht) hparen
  · obtain rfl := List.mem_singleton.mp hk
    exact absurd (beq_iff_eq.mpr hphrase) (List.find?_eq_none.mp hnone p hp)

theorem lambdaParams (ho : o.Readable .lambdaParameters) :
    Yields (·.lambdaWithoutReceiver) o.lambdaParams := by
  unfold Opened.lambdaParams
  split
  · obtain ⟨hmem, hphrase⟩ := mem_of_first? ‹_›
    have hfits := ho.fits_of_kind hmem hphrase (.only .formalParameters Phrase.lambdaParams)
      rfl
    exact ((ho.below _ hmem).reads_as hphrase rfl).map fun _ hn => hn hfits
  · rename_i hnone
    split
    · exact rfl
    · rename_i hparen
      obtain ⟨id, hid⟩ := ho.lambdaName hnone hparen
      rw [Opened.identifierAs, hid]
      exact rfl

theorem flaw?_lambda {span : Option Text.Span} {params : Node .lambdaParams}
    {body : Node .lambdaBody} (h : params.lambdaWithoutReceiver) :
    (Node.lambda span params body).flaw? = none := by
  cases params with
  | singleParam => rfl
  | nameParams => rfl
  | formalParams ps =>
    cases ps with
    | formalParameters span receiver ps =>
      cases receiver with
      | absent => rfl
      | present => cases h

theorem lambda (ho : o.Readable .lambda) : Yields (fun _ => True) o.lambda := by
  refine (ho.readFirst rfl rfl).bind fun params ⟨_, _, hparams⟩ => ?_
  refine (ho.nth (.block :: expressions) rfl).bind fun body ⟨hread, k, hk, hphrase⟩ => ?_
  have hrest : ∀ body, Yields (fun _ => True) (Node.lambda o.span params body).checked :=
    fun body => (Node.checked_yields (flaw?_lambda hparams)).any
  dsimp only
  split
  · refine Yields.bind (P := fun _ => True) ?_ fun body _ => hrest body
    exact (hread.reads_as (beq_iff_eq.mp ‹_›) rfl).map fun _ _ => trivial
  · rename_i hne
    rcases List.mem_cons.mp hk with rfl | hk
    · exact absurd (beq_iff_eq.mpr hphrase) hne
    · have hk : k ∈ Goal.expr.kinds := List.mem_cons_of_mem _ hk
      refine Yields.bind (P := fun _ => True) ?_ fun body _ => hrest body
      exact (hread.reads_kind hphrase hk).map fun _ _ => trivial

/-! ### Calls and references -/

theorem methodCall (ho : o.Readable .methodCall) : Yields (fun _ => True) o.methodCall :=
  (ho.token [.identifier, .thisKw, .superKw] rfl).bind fun _ _ =>
    (ho.readFirst rfl rfl).bind fun _ _ => trivial

theorem superAccess (ho : o.Readable .superAccess) : Yields (fun _ => True) o.superAccess :=
  (ho.identifier rfl).bind fun _ _ => (ho.readFirst? rfl).bind fun _ _ =>
    (ho.readFirst? rfl).bind fun _ _ => trivial

/-- A reference ends in a name or in `new`. -/
theorem reference_ends (ho : o.Readable .methodReference) :
    (Node.ofOption o.identifier?).isSome = !o.hasToken .newKw := by
  obtain ⟨a, ha, hkind, -⟩ := ho.token_at 0 [.colonColon] rfl
  obtain ⟨b, hb, hkind', -⟩ := ho.token_at 1 [.newKw, .identifier] rfl
  have hlen : o.tree.tokens.length = 2 := ho.length_tokens rfl
  have htokens : o.tree.tokens = [a, b] := by
    match htokens : o.tree.tokens, hlen with
    | [_, _], _ =>
      rw [htokens] at ha hb
      cases ha
      cases hb
      rfl
  simp only [List.mem_cons, List.not_mem_nil, or_false] at hkind hkind'
  rcases hkind' with hkind' | hkind'
  · simp [Opened.identifier?, Opened.identifiers, Tree.tokensOf, Opened.hasToken, Tree.hasToken,
      htokens, hkind, hkind', Node.ofOption, Node.isSome]
  · simp [Opened.identifier?, Opened.identifiers, Tree.tokensOf, Opened.hasToken, Tree.hasToken,
      htokens, hkind, hkind', Node.ofOption, Node.isSome]

theorem methodReference (ho : o.Readable .methodReference) :
    Yields (fun _ => True) o.methodReference := by
  refine (ho.nth (.type :: expressions) rfl).bind fun target ⟨hread, k, hk, hphrase⟩ => ?_
  have hrest : ∀ target, Yields (fun _ => True) (do
      let typeArgs ← o.readFirst? .typeArguments .typeArguments
      (Node.reference o.span target typeArgs (.ofOption o.identifier?)
        (o.hasToken .newKw)).checked) := fun target => by
    refine (ho.readFirst? rfl).bind fun typeArgs _ => (Node.checked_yields ?_).any
    simp only [Node.flaw?, ho.reference_ends]
    cases o.hasToken .newKw <;> rfl
  dsimp only
  split
  · refine Yields.bind (P := fun _ => True) ?_ fun body _ => hrest body
    exact (hread.reads_as (beq_iff_eq.mp ‹_›) rfl).map fun _ _ => trivial
  · rename_i hne
    rcases List.mem_cons.mp hk with rfl | hk
    · exact absurd (beq_iff_eq.mpr hphrase) hne
    · have hk : k ∈ Goal.expr.kinds := List.mem_cons_of_mem _ hk
      refine Yields.bind (P := fun _ => True) ?_ fun body _ => hrest body
      exact (hread.reads_kind hphrase hk).map fun _ _ => trivial

theorem genericCall (ho : o.Readable .explicitGenericInvocation) :
    Yields (fun _ => True) o.genericCall :=
  (ho.readFirst rfl rfl).bind fun _ _ => (ho.readNth rfl).bind fun _ _ => trivial

/-! ### Creation -/

theorem objectCreation (ho : o.Readable .objectCreation) :
    Yields (fun _ => True) o.objectCreation :=
  (ho.readFirst rfl rfl).bind fun _ _ => (ho.readFirst rfl rfl).bind fun _ _ =>
    (ho.readFirst? rfl).bind fun _ _ => (ho.readFirst? rfl).bind fun _ _ => trivial

/-- A name that was seen stays. -/
theorem push_yields {p : Part} (hp : p.Readable) (head : InnerHead) :
    Yields (fun head' => (head.id.isSome ∨ ∃ t, p.tree = .leaf t ∧ t.kind = .identifier) →
      head'.id.isSome) (head.push p) := by
  unfold InnerHead.push
  cases htree : p.tree with
  | leaf t =>
    dsimp only [Tree.token?]
    split
    · exact fun _ => rfl
    · rename_i hkind
      rintro (hid | ⟨u, hu, hkind'⟩)
      · exact hid
      · cases hu
        exact absurd (beq_iff_eq.mpr hkind') hkind
  | node k ps a b =>
    dsimp only [Tree.token?]
    have hid : ∀ {P : Prop}, (head.id.isSome ∨ ∃ t, Tree.node k ps a b = .leaf t ∧
        t.kind = .identifier) → (head.id.isSome → P) → P := by
      rintro P (hid | ⟨u, hu, -⟩) h
      · exact h hid
      · cases hu
    split
    · exact fun h => hid h id
    · rename_i hargs
      have hargs : p.isA .typeArguments := by simpa using hargs
      refine (hp.reads_as (beq_iff_eq.mp hargs) rfl).bind fun args _ => ?_
      split
      · exact fun h => hid h id
      · exact fun h => hid h id

theorem innerCreation (ho : o.Readable .innerCreation) : Yields (fun _ =>
  True) o.innerCreation := by
  have hname : ∃ t ∈ o.tree.tokens, t.kind = .identifier := ho.exists_token rfl
  obtain ⟨t, ht, hkind⟩ := hname
  refine (Yields.foldlM_any (P := fun head => head.id.isSome)
    (fun head p hp => push_yields (ho.below p hp) head) _).bind fun head hhead => ?_
  obtain ⟨p, hp, hleaf⟩ := ho.part_of_token ht
  obtain ⟨id, hid⟩ := Option.isSome_iff_exists.mp (hhead (.inr ⟨p, hp, t, hleaf, hkind⟩))
  simp only [hid]
  exact (ho.readFirst rfl rfl).bind fun _ _ => (ho.readFirst? rfl).bind fun _ _ => trivial

theorem dimExpr (ho : o.Readable .dimExpr) : Yields (fun _ => True) o.dimExpr :=
  (ho.readNth rfl).map fun _ _ => trivial

theorem arrayInitializer (ho : o.Readable .arrayInitializer) :
    Yields (fun _ => True) o.arrayInitializer := (ho.readPhrases rfl).map fun _ _ => trivial

/-- A new array has sizes, or else dimensions and an initializer. -/
theorem sizing (ho : o.Readable .arrayCreation) :
    ((o.phrasesOf .dimExpr).isEmpty = false ∧ (o.phrasesOf .arrayInitializer).isEmpty = true) ∨
      ((o.phrasesOf .dimExpr).isEmpty = true ∧ (o.phrasesOf .arrayInitializer).isEmpty = false ∧
        (o.phrasesOf .dim).isEmpty = false) := by
  obtain ⟨us, vs, heq, hus, hvs | hvs⟩ := ho.holds
  · have h : Shape.Holds (.seq _ _) (o.parts.map Part.tree) := ⟨us, vs, heq, hus, hvs⟩
    exact .inl ⟨phrasesOf_ne_of_holds h rfl, phrasesOf_empty_of_holds h (by decide)⟩
  · have h : Shape.Holds (.seq _ _) (o.parts.map Part.tree) := ⟨us, vs, heq, hus, hvs⟩
    exact .inr ⟨phrasesOf_empty_of_holds h (by decide), phrasesOf_ne_of_holds h rfl,
      phrasesOf_ne_of_holds h rfl⟩

theorem arrayCreation (ho : o.Readable .arrayCreation) :
    Yields (fun _ => True) o.arrayCreation := by
  refine (ho.readFirst rfl rfl).bind fun ty _ => (ho.readAll rfl).bind fun sized hsized => ?_
  refine (ho.readFirst? rfl).bind fun init hinit => ho.dims.bind fun dims hdims => ?_
  refine (Node.checked_yields ?_).any
  show Node.sizing? sized dims init = none
  rw [isSome_first?] at hinit
  rcases ho.sizing with ⟨hne, hempty⟩ | ⟨hempty, hne, hdim⟩
  · rw [Node.sizing?, hinit, hsized, hne, hempty]
    rfl
  · rw [Node.sizing?, hinit, hsized, hempty, hne]
    exact Node.lacking?_eq_none (hdims.trans hdim)

/-! ### Switch rules -/

theorem conditions (ho : o.Readable .conditionalAnd) : Yields (fun _ => True) o.conditions :=
  (ho.readNth rfl).bind fun _ _ => (ho.readNth rfl).bind fun _ _ => trivial

/-- A label, with its tokens and items. -/
def IsLabel (p : Part) : Prop := p.Readable ∧ p.tree.phrase? = some .switchLabel

theorem switchRule_yields {label : Part} (h : IsLabel label) {span : Option Text.Span}
    {isArrow : Bool} {body : Nodes .stmt} :
    Yields (fun _ => True) (switchRule span label isArrow body) := by
  unfold switchRule
  split
  · trivial
  · exact (h.1.reads_kind h.2 (by decide)).bind fun _ _ => trivial

theorem groupRules_yields {body : Nodes .stmt} {labels : List Part}
    (h : ∀ label ∈ labels, IsLabel label) : Yields (fun _ => True) (groupRules body labels) := by
  fun_induction groupRules body labels with
  | case1 => trivial
  | case2 label =>
    exact (switchRule_yields (h label (List.mem_singleton_self _))).bind fun _ _ => trivial
  | case3 label labels _ ih =>
    obtain ⟨hlabel, hlabels⟩ := List.forall_mem_cons.mp h
    exact (switchRule_yields hlabel).bind fun _ _ => (ih hlabels).bind fun _ _ => trivial

theorem isLabel_of_mem (ho : o.Readable kind) {label : Part}
    (h : label ∈ o.phrasesOf .switchLabel) : IsLabel label :=
  ⟨ho.below label (List.mem_filter.mp h).1, beq_iff_eq.mp (List.mem_filter.mp h).2⟩

theorem groupBody (ho : o.Readable .switchGroup) :
    Yields (fun n => n.isEmpty = (o.phrasesBut .switchLabel).isEmpty) o.groupBody := ho.readBut rfl

theorem switchRules (ho : o.Readable kind) (hk : kind ∈ Goal.switchRules.kinds) :
    Yields (fun _ => True) o.switchRules := by
  unfold Opened.switchRules
  rw [ho.kind]
  rcases List.mem_cons.mp hk with rfl | hk
  · refine (ho.first rfl).bind fun label ⟨_, hlabel, hphrase⟩ => (ho.readNth rfl).bind fun body _ =>
      ?_
    exact (switchRule_yields ⟨hlabel, hphrase⟩).bind fun _ _ => trivial
  · obtain rfl := List.mem_singleton.mp hk
    exact ho.groupBody.bind fun body _ => groupRules_yields fun label => isLabel_of_mem ho

theorem allRules (ho : o.Readable .switchBlock) : Yields (fun _ => True) o.allRules := by
  refine Yields.bind (P := fun _ => True) (Yields.mapM (P := fun _ => True) fun p hp => ?_).any
    fun _ _ => trivial
  obtain ⟨hmem, hphrase⟩ := List.mem_filter.mp hp
  obtain ⟨k, hk⟩ := Option.isSome_iff_exists.mp hphrase
  have hkinds : ∀ k ∈ Phrase.switchBlock.shape.kinds, k ∈ Goal.switchRules.kinds := by decide
  exact ((ho.below p hmem).reads_kind hk (hkinds k (ho.kind_mem hmem hk))).any

theorem switchExpr (ho : o.Readable .switchExpression) : Yields (fun _ => True) o.switchExpr := by
  refine (ho.readNth rfl).bind fun _ _ => (ho.first rfl).bind fun block ⟨_, hblock, hphrase⟩ => ?_
  exact (hblock.opened hphrase).allRules.bind fun _ _ => trivial

/-! ### All expressions -/

theorem expr (ho : o.Readable kind) (hk : kind ∈ Goal.expr.kinds) :
    Yields (fun _ => True) o.expr := by
  unfold Opened.expr
  rw [ho.kind]
  simp only [Goal.kinds, initializers, expressions, List.mem_cons, List.not_mem_nil,
    or_false] at hk
  rcases hk with rfl | rfl | rfl | rfl | rfl | rfl | rfl | rfl | rfl | rfl | rfl | rfl | rfl |
    rfl | rfl | rfl | rfl | rfl | rfl | rfl | rfl | rfl | rfl | rfl | rfl | rfl | rfl | rfl |
    rfl | rfl | rfl | rfl | rfl | rfl
  · exact ho.arrayInitializer.map fun _ _ => trivial
  · exact ho.lambda
  · exact ho.assignment
  · exact (ho.readNth rfl).bind fun _ _ => (ho.readNth rfl).bind fun _ _ =>
      (ho.readNth rfl).bind fun _ _ => trivial
  iterate 7 exact ho.chain rfl
  · exact ho.instanceOf
  iterate 3 exact ho.chain rfl
  · refine ho.castBound.bind fun _ _ => (ho.last Goal.expr.kinds rfl).bind
      fun p ⟨hp, k, hk, hphrase⟩ => ?_
    exact (hp.reads_kind hphrase hk).bind fun _ _ => trivial
  · exact (ho.operator [.inc, .dec, .add, .sub, .tilde, .bang] rfl rfl).bind fun _ _ =>
      (ho.readNth rfl).bind fun _ _ => trivial
  · exact (ho.operator [.inc, .dec] rfl rfl).bind fun _ _ => (ho.readNth rfl).bind fun _ _ =>
      trivial
  · exact ho.readNth rfl
  · exact ho.literal.map fun _ _ => trivial
  · exact (ho.token [.identifier] rfl).bind fun _ _ => trivial
  · trivial
  · trivial
  · exact ho.superAccess
  · exact ho.methodCall
  · exact ho.chain rfl
  · exact ho.chain rfl
  · exact (ho.readFirst rfl rfl).map fun _ _ => trivial
  · exact ho.methodReference
  · exact ho.objectCreation
  · exact ho.innerCreation
  · exact ho.arrayCreation
  · exact ho.switchExpr
  · exact ho.genericCall

theorem caseItem (ho : o.Readable kind) (hk : kind ∈ Goal.caseItem.kinds) :
    Yields (fun _ => True) (o.caseItem o.expr) := by
  unfold Opened.caseItem
  rw [ho.kind]
  rcases List.mem_cons.mp hk with rfl | hk
  · exact ho.pattern.bind fun _ _ => trivial
  rcases List.mem_cons.mp hk with rfl | hk
  · exact (ho.readFirst rfl rfl).bind fun _ _ => (ho.readNth rfl).bind fun _ _ => trivial
  · have hne : kind ≠ .pattern ∧ kind ≠ .guardedPattern :=
      ⟨fun he => absurd (he ▸ hk) (by decide), fun he => absurd (he ▸ hk) (by decide)⟩
    split
    · exact absurd (Option.some.inj ‹_›) hne.1
    · exact absurd (Option.some.inj ‹_›) hne.2
    · exact (ho.expr (List.mem_cons_of_mem _ hk)).map fun _ _ => trivial

end Opened.Readable

end JavaSource
