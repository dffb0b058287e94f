import JavaSource.Proofs.Legal
import JavaSource.Proofs.Phrases
import JavaSource.Reading.Reader

/-!
# What trees can be read as

`Goal.kinds` says what kinds of phrases are read as a goal, and `Goal.Gives` what the node then
satisfies, where a reader further up relies on it: a type without annotations has none, a list of
names is not empty, the parameters of a lambda have no receiver.

A part is *readable* when all that is below it is, and it yields what its goals give.  The readers
look at the parts of an opened tree by kind, by place or by token; each way of looking is one lemma
that takes what it needs from the shape of the tree, by computation: `Opened.Readable.nth`,
`Opened.Readable.first`, `Opened.Readable.last`, `Opened.Readable.token` and so on.
-/

namespace JavaSource

open Phrase

/-! ### Goals -/

/-- The kinds of phrases that are read as a goal. -/
def Goal.kinds : {c : Category} → Goal c → List Phrase
  | _, .qualifiedName        => [.qualifiedName]
  | _, .qualifiedNames       => [.qualifiedNameList, .catchType]
  | _, .modifiers            => [.modifiers]
  | _, .annotationUse        => [.annotationUse]
  | _, .annotationElement    => [.elementValuePair, .elementValue]
  | _, .elementValue         => [.elementValue]
  | _, .elementValueArray    => [.elementValueArrayInitializer]
  | _, .type                 => [.type]
  | _, .classType            => [.classType]
  | _, .typeArgument         => [.type, .wildcard]
  | _, .types                => [.typeList]
  | _, .coit                 => [.coit]
  | _, .typeArguments        => [.typeArguments]
  | _, .dim                  => [.dim]
  | _, .typeParameter        => [.typeParameter]
  | _, .typeParameters       => [.typeParameters]
  | _, .typeBound            => [.typeBound]
  | _, .pattern              => [.pattern]
  | _, .expr                 => initializers
  | _, .exprs                => [.arguments, .forUpdate]
  | _, .lambdaParams         => [.lambdaParameters]
  | _, .dimExpr              => [.dimExpr]
  | _, .arrayInitializer     => [.arrayInitializer]
  | _, .caseItem             => Phrase.caseItems
  | _, .caseItems            => [.switchLabel]
  | _, .conditions           => expressions
  | _, .switchRules          => [.switchRule, .switchGroup]
  | _, .stmt                 => statements
  | _, .block                => [.block]
  | _, .localVariables       => [.localVariableDeclaration]
  | _, .forInit              => [.forInit]
  | _, .catchClause          => [.catchClause]
  | _, .tryResource          => [.resource]
  | _, .switchBlock          => [.switchBlock]
  | _, .decl                 => declarations
  | _, .decls                => [.classBody]
  | _, .member               => members
  | _, .enumConstant         => [.enumConstant]
  | _, .recordComponent      => [.recordComponent]
  | _, .variableDeclarator   => [.variableDeclarator]
  | _, .variableDeclarators  => [.variableDeclarators]
  | _, .variableDeclaratorId => [.variableDeclaratorId]
  | _, .receiverParameter    => [.receiverParameter]
  | _, .formalParameter      => [.formalParameter, .variableArityParameter]
  | _, .formalParameters     => [.formalParameters]
  | _, .packageDecl          => [.packageDeclaration]
  | _, .importDecl           => [.importDeclaration]
  | _, .directive            => directives
  | _, .moduleDecl           => [.moduleDeclaration]
  | _, .compilationUnit      => [.compilationUnit]

/-- Parameters without a receiver. -/
def Node.withoutReceiver : Node .formalParameters → Bool
  | .formalParameters _ receiver _ => !receiver.isSome

/-- Parameters of a lambda without a receiver. -/
def Node.lambdaWithoutReceiver : Node .lambdaParams → Bool
  | .formalParams ps => ps.withoutReceiver
  | _                => true

/-- What a node satisfies that a tree is read as. -/
def Goal.Gives : {c : Category} → Goal c → Tree → Node c → Prop
  | _, .type, t, n =>
    (Item.only .type [.classType, .dim]).fits t → n.typeAnnotations.isEmpty
  | _, .qualifiedNames, _, n | _, .variableDeclarators, _, n => n.isEmpty = false
  | _, .formalParameters, t, n =>
    (Item.only .formalParameters Phrase.lambdaParams).fits t → n.withoutReceiver
  | _, .lambdaParams, _, n => n.lambdaWithoutReceiver
  | _, .member, t, n =>
    n.modifiers?.isSome ∧ (t.phrase?.any typeDeclarations.contains → n.isTypeDeclaration)
  | _, .decl, t, n =>
    (Item.only .memberDeclaration (.modifiers :: typeDeclarations)).fits t → n.isTypeDeclaration
  | _, .switchBlock, _, n => n.mixture? = none
  | _, _, _, _ => True

/-! ### Parts -/

/-- What is below a part is readable, and the part yields what its goals give. -/
inductive Part.Readable : Part → Prop where
  | mk {tree : Tree} {parts : List Part} {read : {c : Category} → Goal c → Reading c}
      (regular : tree.Regular) (trees : parts.map Part.tree = tree.parts)
      (below : ∀ p ∈ parts, Part.Readable p)
      (reads : ∀ {c : Category} (goal : Goal c), tree.phrase?.any goal.kinds.contains →
        Yields (goal.Gives tree) (read goal)) : Part.Readable (.mk tree parts read)

/-- An opened tree of some kind with readable parts. -/
structure Opened.Readable (o : Opened) (kind : Phrase) : Prop where
  kind : o.tree.phrase? = some kind
  regular : o.tree.Regular
  trees : o.parts.map Part.tree = o.tree.parts
  below : ∀ p ∈ o.parts, p.Readable

variable {c : Category} {goal : Goal c} {p : Part} {kind kind' : Phrase} {i : Item}

theorem Part.tree_opened : p.opened.tree = p.tree := by
  cases p
  rfl

namespace Part.Readable

theorem regular (h : p.Readable) : p.tree.Regular := by
  cases h with
  | mk regular => exact regular

theorem reads_kind (h : p.Readable) (hp : p.tree.phrase? = some kind)
    (hk : kind ∈ goal.kinds) : Yields (goal.Gives p.tree) (p.read goal) := by
  cases h with
  | @mk tree _ _ _ _ _ reads =>
    have hp : tree.phrase? = some kind := hp
    exact reads goal (by rw [hp]; exact List.contains_iff_mem.mpr hk)

theorem reads_as (h : p.Readable) (hp : p.tree.phrase? = some kind)
    (hk : goal.kinds.contains kind) : Yields (goal.Gives p.tree) (p.read goal) :=
  h.reads_kind hp (List.contains_iff_mem.mp hk)

theorem opened (h : p.Readable) (hp : p.tree.phrase? = some kind) :
    p.opened.Readable kind := by
  cases h with
  | mk regular trees below => exact ⟨hp, regular, trees, below⟩

end Part.Readable

/-- Parts of one sort read as the same thing. -/
theorem Part.readAll_yields {ps : List Part}
    (h : ∀ p ∈ ps, p.Readable ∧ ∃ kind, p.tree.phrase? = some kind ∧ kind ∈ goal.kinds) :
    Yields (fun n => n.isEmpty = ps.isEmpty) (Part.readAll goal ps) := by
  have hmap : Yields (fun ns => ns.length = ps.length ∧ ∀ n ∈ ns, True)
      (ps.mapM (Part.read goal)) := .mapM fun p hp => by
    obtain ⟨hread, kind, hkind, hk⟩ := h p hp
    exact (hread.reads_kind hkind hk).any
  refine hmap.map fun ns ⟨hlen, _⟩ => ?_
  rw [Node.isEmpty_ofList]
  cases ns <;> cases ps <;> first | rfl | cases hlen

/-- A part, if there is one, read as something. -/
theorem Part.readOption_yields {p? : Option Part}
    (h : ∀ p, p? = some p → Yields (goal.Gives p.tree) (p.read goal)) :
    Yields (fun n => n.isSome = p?.isSome) (Part.readOption goal p?) := by
  cases p? with
  | none => exact rfl
  | some p => exact (h p rfl).map fun _ _ => rfl

/-! ### Opened trees -/

namespace Opened.Readable

variable {o : Opened}

theorem holds (ho : o.Readable kind) : kind.shape.Holds (o.parts.map Part.tree) := by
  rw [ho.trees]
  exact ho.regular.holds_of ho.kind

theorem item (ho : o.Readable kind) (hp : p ∈ o.parts) :
    ∃ i ∈ kind.shape.items, i.fits p.tree := ho.holds.item (List.mem_map_of_mem hp)

theorem kind_mem (ho : o.Readable kind) (hp : p ∈ o.parts) (hk : p.tree.phrase? = some kind') :
    kind' ∈ kind.shape.kinds := ho.holds.kind (List.mem_map_of_mem hp) hk

theorem map_phrases : o.phrases.map Part.tree =
    (o.parts.map Part.tree).filter fun t => t.phrase?.isSome := by
  rw [List.filter_map]
  rfl

/-- The phrase at a place fits one of the items that the shape has there. -/
theorem nth_fits (ho : o.Readable kind) {n : Nat} {is : List (Option Item)}
    (his : kind.shape.nth Shape.phraseOnly n = some is) :
    ∃ i ∈ is, Shape.Fits i (o.phrases[n]?.map Part.tree) := by
  obtain ⟨i, hi, hfits⟩ := ho.holds.nth Shape.counts_phraseOnly his
  rw [← map_phrases, List.getElem?_map] at hfits
  exact ⟨i, hi, hfits⟩

/-- The phrase at a place. -/
theorem phrase_at (ho : o.Readable kind) (n : Nat) (kinds : List Phrase)
    (h : (kind.shape.nth Shape.phraseOnly n).any (·.all (·.any (·.isAnyOf kinds)))) :
    ∃ p ∈ o.parts, o.phrases[n]? = some p ∧ ∃ kind' ∈ kinds, p.tree.phrase? = some kind' := by
  obtain ⟨is, his, hall⟩ := (Option.any_eq_true ..).mp h
  obtain ⟨i?, hi?, hfits⟩ := ho.nth_fits his
  obtain ⟨i, rfl, hi⟩ := (Option.any_eq_true ..).mp (List.all_eq_true.mp hall i? hi?)
  obtain ⟨t, ht, hfits⟩ := hfits
  obtain ⟨p, hp, rfl⟩ := Option.map_eq_some_iff.mp ht
  exact ⟨p, (List.mem_filter.mp (List.mem_of_getElem? hp)).1, hp, Item.exists_phrase hfits hi⟩

theorem nth (ho : o.Readable kind) {n : Nat} (kinds : List Phrase)
    (h : (kind.shape.nth Shape.phraseOnly n).any (·.all (·.any (·.isAnyOf kinds)))) :
    Yields (fun p => p.Readable ∧ ∃ kind' ∈ kinds, p.tree.phrase? = some kind') (o.nth n) := by
  obtain ⟨p, hmem, hp, hkind⟩ := ho.phrase_at n kinds h
  rw [Opened.nth, hp]
  exact ⟨ho.below p hmem, hkind⟩

theorem readNth (ho : o.Readable kind) {n : Nat}
    (h : (kind.shape.nth Shape.phraseOnly n).any (·.all (·.any (·.isAnyOf goal.kinds)))) :
    Yields (fun _ => True) (o.readNth n goal) :=
  (ho.nth goal.kinds h).bind fun _ ⟨hp, _, hk, hphrase⟩ => (hp.reads_kind hphrase hk).any

/-- What may stand at a place, if anything does. -/
theorem kind_at (ho : o.Readable kind) {n : Nat} {kinds : List Phrase}
    (h : (kind.shape.nth Shape.phraseOnly n).any (·.all (·.all (·.isAnyOf kinds))))
    (hp : o.phrases[n]? = some p) : p ∈ o.parts ∧ ∃ k ∈ kinds, p.tree.phrase? = some k := by
  obtain ⟨is, his, hall⟩ := (Option.any_eq_true ..).mp h
  obtain ⟨i?, hi?, hfits⟩ := ho.nth_fits his
  have hany := List.all_eq_true.mp hall i? hi?
  rw [hp] at hfits
  cases i? with
  | none => cases hfits
  | some i =>
    obtain ⟨t, ht, hfits⟩ := hfits
    obtain rfl := Option.some.inj ht
    exact ⟨(List.mem_filter.mp (List.mem_of_getElem? hp)).1, Item.exists_phrase hfits hany⟩

/-- The phrase at a place, if there is one, read as something. -/
theorem readOption (ho : o.Readable kind) {n : Nat}
    (h : (kind.shape.nth Shape.phraseOnly n).any (·.all (·.all (·.isAnyOf goal.kinds)))) :
    Yields (fun _ => True) (Part.readOption goal o.phrases[n]?) :=
  (Part.readOption_yields fun p hp => by
    obtain ⟨hmem, k, hk, hphrase⟩ := ho.kind_at h hp
    exact (ho.below p hmem).reads_kind hphrase hk).any

/-! ### By kind -/

theorem mem_of_first? (h : o.first? kind' = some p) :
    p ∈ o.parts ∧ p.tree.phrase? = some kind' :=
  ⟨List.mem_of_find?_eq_some h, beq_iff_eq.mp (List.find?_some (p := Part.isA kind') h)⟩

/-- A phrase of one of some kinds that cannot be missing. -/
theorem exists_phrase (ho : o.Readable kind) (kinds : List Phrase)
    (h : kind.shape.needs (·.isAnyOf kinds)) :
    ∃ p ∈ o.parts, ∃ kind' ∈ kinds, p.tree.phrase? = some kind' := by
  obtain ⟨t, ht, i, hi, hfits⟩ := ho.holds.needs h
  obtain ⟨p, hp, rfl⟩ := List.mem_map.mp ht
  exact ⟨p, hp, Item.exists_phrase hfits hi⟩

/-- The first phrase of a kind of which there is one. -/
theorem first_of_mem (ho : o.Readable kind) (hp : p ∈ o.parts)
    (hphrase : p.tree.phrase? = some kind') :
    Yields (fun p => p ∈ o.parts ∧ p.Readable ∧ p.tree.phrase? = some kind') (o.first kind') := by
  rw [Opened.first]
  cases hfirst : o.first? kind' with
  | none => exact absurd (beq_iff_eq.mpr hphrase) (List.find?_eq_none.mp hfirst p hp)
  | some q =>
    obtain ⟨hq, hphrase⟩ := mem_of_first? hfirst
    exact ⟨hq, ho.below q hq, hphrase⟩

/-- The first phrase of a kind that cannot be missing. -/
theorem first (ho : o.Readable kind) (h : kind.shape.needs (·.isAnyOf [kind'])) :
    Yields (fun p => p ∈ o.parts ∧ p.Readable ∧ p.tree.phrase? = some kind') (o.first kind') := by
  obtain ⟨p, hp, k, hk, hphrase⟩ := ho.exists_phrase [kind'] h
  exact ho.first_of_mem hp (List.mem_singleton.mp hk ▸ hphrase)

theorem readFirst_of_mem (ho : o.Readable kind) (hp : p ∈ o.parts)
    (hphrase : p.tree.phrase? = some kind') (hk : goal.kinds.contains kind') :
    Yields (fun n => ∃ t, t.phrase? = some kind' ∧ goal.Gives t n) (o.readFirst kind' goal) :=
  (ho.first_of_mem hp hphrase).bind fun p ⟨_, hp, hphrase⟩ =>
    (hp.reads_as hphrase hk).mono fun _ hn => ⟨p.tree, hphrase, hn⟩

theorem readFirst (ho : o.Readable kind) (h : kind.shape.needs (·.isAnyOf [kind']))
    (hk : goal.kinds.contains kind') :
    Yields (fun n => ∃ t, t.phrase? = some kind' ∧ goal.Gives t n) (o.readFirst kind' goal) := by
  obtain ⟨p, hp, k, hk', hphrase⟩ := ho.exists_phrase [kind'] h
  exact ho.readFirst_of_mem hp (List.mem_singleton.mp hk' ▸ hphrase) hk

/-- The first phrase of a kind that cannot be missing where another one is. -/
theorem readFirst_unless (ho : o.Readable kind) {other : Phrase} (hnone : o.first? other = none)
    (h : kind.shape.needs (·.isAnyOf [kind', other]))
    (hk : goal.kinds.contains kind') :
    Yields (fun n => ∃ t, t.phrase? = some kind' ∧ goal.Gives t n) (o.readFirst kind' goal) := by
  obtain ⟨p, hp, k, hmem, hphrase⟩ := ho.exists_phrase [kind', other] h
  rcases List.mem_cons.mp hmem with rfl | hmem
  · exact ho.readFirst_of_mem hp hphrase hk
  · obtain rfl := List.mem_singleton.mp hmem
    exact absurd (beq_iff_eq.mpr hphrase) (List.find?_eq_none.mp hnone p hp)

/-- A phrase of a kind for which there is only one item. -/
theorem fits_of_kind (ho : o.Readable kind) (hmem : p ∈ o.parts)
    (hphrase : p.tree.phrase? = some kind') (i : Item)
    (hi : (kind.shape.items.all fun j => !j.kinds.contains kind' || j == i)) :
    i.fits p.tree := ho.holds.fits_of_kind (List.mem_map_of_mem hmem) hphrase hi

theorem readFirstAs (ho : o.Readable kind) (i : Item)
    (h : kind.shape.needs (·.isAnyOf [kind']))
    (hi : (kind.shape.items.all fun j => !j.kinds.contains kind' || j == i))
    (hk : goal.kinds.contains kind') :
    Yields (fun n => ∃ t, i.fits t ∧ goal.Gives t n) (o.readFirst kind' goal) :=
  (ho.first h).bind fun p ⟨hmem, hp, hphrase⟩ =>
    (hp.reads_as hphrase hk).mono fun _ hn => ⟨p.tree, ho.fits_of_kind hmem hphrase i hi, hn⟩

theorem readFirst? (ho : o.Readable kind) (hk : goal.kinds.contains kind') :
    Yields (fun n => n.isSome = (o.first? kind').isSome) (o.readFirst? kind' goal) :=
  Part.readOption_yields fun p hp => by
    obtain ⟨hmem, hphrase⟩ := mem_of_first? hp
    exact (ho.below p hmem).reads_as hphrase hk

theorem readList (ho : o.Readable kind) {goal : Goal (.list c)}
    (hk : goal.kinds.contains kind') :
    Yields (fun n => o.first? kind' ≠ none → ∃ t, goal.Gives t n) (o.readList kind' goal) := by
  unfold Opened.readList
  cases hp : o.first? kind' with
  | none => exact fun hne => absurd rfl hne
  | some p =>
    obtain ⟨hmem, hphrase⟩ := mem_of_first? hp
    exact ((ho.below p hmem).reads_as hphrase hk).mono fun n hn _ => ⟨p.tree, hn⟩

theorem phrasesOf_ne_of_mem (hp : p ∈ o.parts) (hphrase : p.tree.phrase? = some kind') :
    (o.phrasesOf kind').isEmpty = false :=
  List.isEmpty_eq_false_iff_exists_mem.mpr ⟨p, List.mem_filter.mpr ⟨hp, beq_iff_eq.mpr hphrase⟩⟩

theorem phrasesOf_ne_of_holds {a : Shape} (h : a.Holds (o.parts.map Part.tree))
    (hneeds : a.needs (·.isAnyOf [kind'])) : (o.phrasesOf kind').isEmpty = false := by
  obtain ⟨t, ht, i, hi, hfits⟩ := h.needs hneeds
  obtain ⟨p, hp, rfl⟩ := List.mem_map.mp ht
  obtain ⟨k, hk, hphrase⟩ := Item.exists_phrase hfits hi
  exact phrasesOf_ne_of_mem hp (List.mem_singleton.mp hk ▸ hphrase)

theorem phrasesOf_ne (ho : o.Readable kind) (h : kind.shape.needs (·.isAnyOf [kind'])) :
    (o.phrasesOf kind').isEmpty = false := phrasesOf_ne_of_holds ho.holds h

theorem phrasesOf_empty_of_holds {a : Shape} (h : a.Holds (o.parts.map Part.tree))
    (hk : kind' ∉ a.kinds) : (o.phrasesOf kind').isEmpty = true := by
  rw [List.isEmpty_iff, phrasesOf, List.filter_eq_nil_iff]
  exact fun p hp hisA => hk (h.kind (List.mem_map_of_mem hp) (beq_iff_eq.mp hisA))

/-- What is right below a tree that has no other phrases there than some. -/
theorem mem_of_only (ho : o.Readable kind) {k : Phrase} {inner : List Phrase}
    (h : (Item.only k inner).fits o.tree) (hp : p ∈ o.parts) (hk : p.tree.phrase? = some kind') :
    kind' ∈ inner := by
  have hmem : p.tree ∈ o.tree.parts := ho.trees ▸ List.mem_map_of_mem hp
  cases htree : o.tree with
  | leaf t =>
    rw [htree] at h
    cases h
  | node k' ps a b =>
    rw [htree] at h hmem
    have hall := List.all_eq_true.mp ((Bool.and_eq_true ..).mp h).2 _ hmem
    rw [hk] at hall
    exact List.contains_iff_mem.mp hall

theorem phrasesOf_only (ho : o.Readable kind) {k : Phrase} {inner : List Phrase}
    (h : (Item.only k inner).fits o.tree) (hk : kind' ∉ inner) : (o.phrasesOf kind').isEmpty := by
  rw [List.isEmpty_iff, phrasesOf, List.filter_eq_nil_iff]
  exact fun p hp hisA => hk (ho.mem_of_only h hp (beq_iff_eq.mp hisA))

/-- What is right below a tree that has one of some phrases there. -/
theorem exists_of_holding (ho : o.Readable kind) {k : Phrase} {inner : List Phrase}
    (h : (Item.holding k inner).fits o.tree) :
    ∃ p ∈ o.parts, ∃ kind' ∈ inner, p.tree.phrase? = some kind' := by
  have htrees := ho.trees
  cases htree : o.tree with
  | leaf t =>
    rw [htree] at h
    cases h
  | node k' ps a b =>
    rw [htree] at h htrees
    obtain ⟨t, ht, hany⟩ := List.any_eq_true.mp ((Bool.and_eq_true ..).mp h).2
    have ht : t ∈ o.parts.map Part.tree := htrees ▸ ht
    obtain ⟨p, hp, rfl⟩ := List.mem_map.mp ht
    obtain ⟨kind', hk, hinner⟩ := (Option.any_eq_true ..).mp hany
    exact ⟨p, hp, kind', List.contains_iff_mem.mp hinner, hk⟩

theorem isSome_first? : (o.first? kind').isSome = !(o.phrasesOf kind').isEmpty := by
  rw [first?, ← List.head?_filter]
  show (o.phrasesOf kind').head?.isSome = _
  cases o.phrasesOf kind' <;> rfl

/-- All phrases of a kind. -/
theorem readAll (ho : o.Readable kind) (hk : goal.kinds.contains kind') :
    Yields (fun n => n.isEmpty = (o.phrasesOf kind').isEmpty) (o.readAll kind' goal) :=
  Part.readAll_yields fun p hp => by
    obtain ⟨hmem, hphrase⟩ := List.mem_filter.mp hp
    exact ⟨ho.below p hmem, kind', beq_iff_eq.mp hphrase, List.contains_iff_mem.mp hk⟩

/-- All phrases of a kind that cannot be missing. -/
theorem readAll_ne (ho : o.Readable kind) (h : kind.shape.needs (·.isAnyOf [kind']))
    (hk : goal.kinds.contains kind') :
    Yields (fun n => n.isEmpty = false) (o.readAll kind' goal) :=
  (ho.readAll hk).mono fun _ hn => hn.trans (ho.phrasesOf_ne h)

/-- All phrases that pass a test. -/
theorem readFilter (ho : o.Readable kind) {f : Part → Bool}
    (h : ∀ k ∈ kind.shape.kinds, k ∈ goal.kinds ∨ ∀ p, p.tree.phrase? = some k → f p = false) :
    Yields (fun n => n.isEmpty = (o.phrases.filter f).isEmpty)
      (Part.readAll goal (o.phrases.filter f)) :=
  Part.readAll_yields fun p hp => by
    obtain ⟨hmem, hf⟩ := List.mem_filter.mp hp
    obtain ⟨hmem, hphrase⟩ := List.mem_filter.mp hmem
    obtain ⟨k, hk⟩ := Option.isSome_iff_exists.mp hphrase
    refine ⟨ho.below p hmem, k, hk, (h k (ho.kind_mem hmem hk)).resolve_right fun hfalse => ?_⟩
    rw [hfalse p hk] at hf
    cases hf

/-- Where all phrases are of one kind or of those of a goal, those of other kinds than that one
are of the goal. -/
theorem mem_kinds_or_isA
    (h : (kind.shape.kinds.all fun k => k == kind' || goal.kinds.contains k)) :
    ∀ k ∈ kind.shape.kinds, k ∈ goal.kinds ∨
      ∀ p : Part, p.tree.phrase? = some k → (!p.isA kind') = false := fun k hk => by
  rcases (Bool.or_eq_true ..).mp (List.all_eq_true.mp h k hk) with he | hmem
  · exact .inr fun p hp => by simp [Part.isA, hp, beq_iff_eq.mp he]
  · exact .inl (List.contains_iff_mem.mp hmem)

theorem readBut (ho : o.Readable kind)
    (h : (kind.shape.kinds.all fun k => k == kind' || goal.kinds.contains k)) :
    Yields (fun n => n.isEmpty = (o.phrasesBut kind').isEmpty)
      (Part.readAll goal (o.phrasesBut kind')) := ho.readFilter (mem_kinds_or_isA h)

/-- All phrases. -/
theorem readPhrases (ho : o.Readable kind)
    (h : kind.shape.kinds.all goal.kinds.contains) :
    Yields (fun n => n.isEmpty = o.phrases.isEmpty) (Part.readAll goal o.phrases) :=
  Part.readAll_yields fun p hp => by
    obtain ⟨hmem, hphrase⟩ := List.mem_filter.mp hp
    obtain ⟨k, hk⟩ := Option.isSome_iff_exists.mp hphrase
    exact ⟨ho.below p hmem, k, hk, List.contains_iff_mem.mp
      (List.all_eq_true.mp h k (ho.kind_mem hmem hk))⟩

/-- The last phrase. -/
theorem last_eq (ho : o.Readable kind) (kinds : List Phrase)
    (h : kind.shape.final.any (·.all (·.isAnyOf kinds))) :
    ∃ p ∈ o.parts, o.last = .ok p ∧ ∃ kind' ∈ kinds, p.tree.phrase? = some kind' := by
  obtain ⟨is, his, hall⟩ := (Option.any_eq_true ..).mp h
  obtain ⟨i, hi, t, ht, hfits⟩ := ho.holds.final his
  rw [← map_phrases, List.getLast?_map] at ht
  obtain ⟨p, hp, rfl⟩ := Option.map_eq_some_iff.mp ht
  exact ⟨p, (List.mem_filter.mp (List.mem_of_getLast? hp)).1, by rw [Opened.last, hp],
    Item.exists_phrase hfits (List.all_eq_true.mp hall i hi)⟩

theorem last (ho : o.Readable kind) (kinds : List Phrase)
    (h : kind.shape.final.any (·.all (·.isAnyOf kinds))) :
    Yields (fun p => p.Readable ∧ ∃ kind' ∈ kinds, p.tree.phrase? = some kind') o.last := by
  obtain ⟨p, hmem, hp, hkind⟩ := ho.last_eq kinds h
  rw [hp]
  exact ⟨ho.below p hmem, hkind⟩

/-! ### Tokens -/

/-- Each token is a part. -/
theorem part_of_token (ho : o.Readable kind) {t : Token} (ht : t ∈ o.tree.tokens) :
    ∃ p ∈ o.parts, p.tree = .leaf t := by
  obtain ⟨u, hu, htoken⟩ := List.mem_filterMap.mp ht
  obtain ⟨p, hp, rfl⟩ := List.mem_map.mp (ho.trees ▸ hu)
  refine ⟨p, hp, ?_⟩
  cases h : p.tree with
  | leaf t' =>
    rw [h] at htoken
    cases htoken
    rfl
  | node =>
    rw [h] at htoken
    cases htoken

theorem spelled (ho : o.Readable kind) {t : Token} (ht : t ∈ o.tree.tokens) : t.Spelled := by
  obtain ⟨p, hp, hleaf⟩ := ho.part_of_token ht
  have hregular := (ho.below p hp).regular
  rw [hleaf] at hregular
  cases hregular with
  | leaf spelled => exact spelled

theorem filter_tokens (ts : List Tree) :
    (ts.filter fun t => !t.phrase?.isSome) = (ts.filterMap Tree.token?).map Tree.leaf := by
  induction ts with
  | nil => rfl
  | cons t ts ih =>
    cases t with
    | leaf t => exact congrArg (.leaf t :: ·) ih
    | node => exact ih

/-- The token at a place. -/
theorem token_at (ho : o.Readable kind) (n : Nat) (kinds : List TokenKind)
    (h : (kind.shape.nth Shape.tokenOnly n).any (·.all (·.any (·.isTokenOf kinds)))) :
    ∃ t, o.tree.tokens[n]? = some t ∧ t.kind ∈ kinds ∧ t.Spelled := by
  obtain ⟨is, his, hall⟩ := (Option.any_eq_true ..).mp h
  obtain ⟨i?, hi?, hfits⟩ := ho.holds.nth Shape.counts_tokenOnly his
  obtain ⟨i, rfl, hi⟩ := (Option.any_eq_true ..).mp (List.all_eq_true.mp hall i? hi?)
  obtain ⟨_, ht, hfits⟩ := hfits
  rw [filter_tokens, List.getElem?_map, ho.trees] at ht
  obtain ⟨t, htoken, rfl⟩ := Option.map_eq_some_iff.mp ht
  obtain ⟨u, hu, hkind⟩ := Item.exists_token hfits hi
  cases hu
  exact ⟨t, htoken, hkind, ho.spelled (List.mem_of_getElem? htoken)⟩

/-- How many tokens there are. -/
theorem length_tokens (ho : o.Readable kind) {n : Nat}
    (h : kind.shape.count Shape.tokenOnly = some n) : o.tree.tokens.length = n := by
  have hlen := ho.holds.count Shape.counts_tokenOnly h
  rwa [filter_tokens, List.length_map, ho.trees] at hlen

/-- The first token. -/
theorem token_eq (ho : o.Readable kind) (kinds : List TokenKind)
    (h : (kind.shape.nth Shape.tokenOnly 0).any (·.all (·.any (·.isTokenOf kinds)))) :
    ∃ t, o.token = .ok t ∧ t.kind ∈ kinds ∧ t.Spelled := by
  obtain ⟨t, ht, hkind⟩ := ho.token_at 0 kinds h
  rw [← List.head?_eq_getElem?] at ht
  exact ⟨t, by rw [Opened.token, ht], hkind⟩

theorem token (ho : o.Readable kind) (kinds : List TokenKind)
    (h : (kind.shape.nth Shape.tokenOnly 0).any (·.all (·.any (·.isTokenOf kinds)))) :
    Yields (fun t => t.kind ∈ kinds ∧ t.Spelled) o.token := by
  obtain ⟨t, ht, hkind⟩ := ho.token_eq kinds h
  exact ht ▸ hkind

/-- A token below a tree is one of its tokens. -/
theorem mem_tokens (ho : o.Readable kind) {t : Token}
    (h : .leaf t ∈ o.parts.map Part.tree) : t ∈ o.tree.tokens :=
  List.mem_filterMap.mpr ⟨.leaf t, ho.trees ▸ h, rfl⟩

/-- A token of a kind that cannot be missing. -/
theorem exists_token (ho : o.Readable kind) {word : TokenKind}
    (h : kind.shape.needs (·.isTokenOf [word])) :
    ∃ t ∈ o.tree.tokens, t.kind = word := by
  obtain ⟨t, ht, i, hi, hfits⟩ := ho.holds.needs h
  obtain ⟨u, rfl, hkind⟩ := Item.exists_token hfits hi
  exact ⟨u, ho.mem_tokens ht, List.mem_singleton.mp hkind⟩

/-- A token or a phrase that cannot be missing. -/
theorem exists_either (ho : o.Readable kind) (words : List TokenKind) (kinds : List Phrase)
    (h : (kind.shape.needs fun i => i.isTokenOf words || i.isAnyOf kinds)) :
    (∃ t ∈ o.tree.tokens, t.kind ∈ words) ∨
      ∃ p ∈ o.parts, ∃ kind' ∈ kinds, p.tree.phrase? = some kind' := by
  obtain ⟨t, ht, i, hi, hfits⟩ := ho.holds.needs h
  rcases (Bool.or_eq_true ..).mp hi with hi | hi
  · obtain ⟨u, rfl, hkind⟩ := Item.exists_token hfits hi
    exact .inl ⟨u, ho.mem_tokens ht, hkind⟩
  · obtain ⟨p, hp, rfl⟩ := List.mem_map.mp ht
    exact .inr ⟨p, hp, Item.exists_phrase hfits hi⟩

theorem hasToken_of_mem {t : Token} (ht : t ∈ o.tree.tokens) : o.hasToken t.kind :=
  List.any_eq_true.mpr ⟨t, ht, beq_iff_eq.mpr rfl⟩

theorem identifier?_of_mem {t : Token} (ht : t ∈ o.tree.tokens) (hkind : t.kind = .identifier) :
    ∃ id, o.identifier? = some id := by
  have hmem : t ∈ o.tree.tokensOf .identifier :=
    List.mem_filter.mpr ⟨ht, beq_iff_eq.mpr hkind⟩
  rw [Opened.identifier?, Opened.identifiers]
  cases hids : o.tree.tokensOf .identifier with
  | nil =>
    rw [hids] at hmem
    cases hmem
  | cons t ts => exact ⟨t.identifier, rfl⟩

/-- An identifier that cannot be missing. -/
theorem identifier?_isSome (ho : o.Readable kind)
    (h : kind.shape.needs (·.isTokenOf [.identifier])) :
    ∃ id, o.identifier? = some id := by
  obtain ⟨t, ht, hkind⟩ := ho.exists_token h
  exact identifier?_of_mem ht hkind

theorem identifierAs (ho : o.Readable kind) {what : String}
    (h : kind.shape.needs (·.isTokenOf [.identifier])) :
    Yields (fun _ => True) (o.identifierAs what) := by
  obtain ⟨id, hid⟩ := ho.identifier?_isSome h
  rw [Opened.identifierAs, hid]
  trivial

theorem identifier (ho : o.Readable kind)
    (h : kind.shape.needs (·.isTokenOf [.identifier])) :
    Yields (fun _ => True) o.identifier := ho.identifierAs h

theorem filter_identifiers (ts : List Tree) :
    (ts.filter fun t => t.token?.any fun u => u.kind == .identifier) =
      ((ts.filterMap Tree.token?).filter fun u => u.kind == .identifier).map Tree.leaf := by
  induction ts with
  | nil => rfl
  | cons t ts ih =>
    cases t with
    | leaf u =>
      show List.filter _ (Tree.leaf u :: ts) = List.map _ (List.filter _ (u :: _))
      rw [List.filter_cons, List.filter_cons, ih]
      show (if (u.kind == .identifier) = true then _ else _) = _
      cases u.kind == .identifier <;> rfl
    | node => exact ih

/-- How many identifiers there are at least. -/
theorem length_identifiers (ho : o.Readable kind) :
    kind.shape.atLeast (Item.tells .identifier) ≤ o.identifiers.length := by
  have hcounts : Shape.Counts (Item.tells .identifier) fun t =>
      t.token?.any fun u => u.kind == .identifier := fun _ _ _ => Item.token?_of_tells
  have hleast := ho.holds.atLeast hcounts
  rw [filter_identifiers, List.length_map, ho.trees] at hleast
  rwa [Opened.identifiers, List.length_map]

/-! ### Along the parts -/

/-- A fold that goes along with an automaton. -/
theorem foldlM_walk {α σ : Type} {step : σ → Item → Option σ} {R : σ → α → Prop}
    {push : α → Part → Except NodeError α} {ps : List Part} {s s' : σ} {x : α}
    (h : Shape.Walk step s (ps.map Part.tree) s') (hx : R s x)
    (hpush : ∀ p ∈ ps, ∀ s s' i x, R s x → i.fits p.tree → step s i = some s' →
      Yields (R s') (push x p)) : Yields (R s') (ps.foldlM push x) := by
  induction ps generalizing s x with
  | nil =>
    cases h
    exact hx
  | cons p ps ih =>
    cases h with
    | cons fits moves rest =>
      obtain ⟨hp, hps⟩ := List.forall_mem_cons.mp hpush
      rw [List.foldlM_cons]
      exact (hp _ _ _ _ hx fits moves).bind fun x hx => ih rest hx hps

/-- Where a search for the first phrase behind a token is. -/
inductive Search where
  | before
  | behind
  | found (item : Item)
  deriving DecidableEq

/-- One more item on the way. -/
def Search.step (marker : TokenKind) : Search → Item → Option Search
  | before,  i => (i.tells marker).map fun told => if told then behind else before
  | behind,  i => some (if i.isPhrase then found i else behind)
  | found i, _ => some (found i)

/-- Whether only phrases of some kinds can be found. -/
def Search.finds (kinds : List Phrase) : Search → Bool
  | found i => i.isAnyOf kinds
  | _       => true

/-- Whether something is found. -/
def Search.isFound : Search → Bool
  | found _ => true
  | _       => false

/-- What a search ends with. -/
def Search.Ends : Search → Option Part → Prop
  | found i, p => ∃ q, p = some q ∧ i.fits q.tree
  | _,       p => p = none

theorem walk_found {marker : TokenKind} {ts : List Tree} {s s' : Search}
    (h : Shape.Walk (Search.step marker) s ts s') (hs : s = .found i) : s' = .found i := by
  induction h with
  | nil => exact hs
  | cons _ moves _ ih =>
    subst hs
    cases moves
    exact ih rfl

theorem walk_behind {marker : TokenKind} {ps : List Part} {s : Search}
    (h : Shape.Walk (Search.step marker) .behind (ps.map Part.tree) s) :
    s.Ends (ps.find? Part.isPhrase) := by
  induction ps with
  | nil =>
    cases h
    rfl
  | cons p ps ih =>
    cases h with
    | @cons _ _ _ i _ _ fits moves rest =>
      have hp : p.isPhrase = i.isPhrase := Item.isSome_phrase?_of_fits fits
      cases moves
      rw [List.find?_cons, hp]
      cases hi : i.isPhrase with
      | true =>
        rw [hi] at rest
        exact walk_found rest rfl ▸ ⟨p, rfl, fits⟩
      | false =>
        rw [hi] at rest
        exact ih rest

theorem walk_before {marker : TokenKind} {ps : List Part} {s : Search}
    (h : Shape.Walk (Search.step marker) .before (ps.map Part.tree) s) :
    s.Ends ((ps.dropWhile fun p => !p.tree.token?.any (·.kind == marker)).find? Part.isPhrase) := by
  induction ps with
  | nil =>
    cases h
    rfl
  | cons p ps ih =>
    cases h with
    | cons fits moves rest =>
      obtain ⟨told, htold, rfl⟩ := Option.map_eq_some_iff.mp moves
      have hp := Item.token?_of_tells fits htold
      rw [List.dropWhile_cons, hp]
      cases told with
      | false => exact ih rest
      | true =>
        have hnone : p.isPhrase = false := by
          unfold Part.isPhrase
          cases htree : p.tree with
          | leaf => rfl
          | node =>
            rw [htree] at hp
            cases hp
        have hfind : (p :: ps).find? Part.isPhrase = ps.find? Part.isPhrase := by
          rw [List.find?_cons, hnone]
        exact hfind ▸ walk_behind rest

/-- What is found behind a token. -/
theorem behind_fits (ho : o.Readable kind) (marker : TokenKind) {accepts : Search → Bool}
    (h : kind.shape.reads (Search.step marker) .before accepts) :
    ∃ s, accepts s ∧ s.Ends (o.behind? (·.kind == marker)) := by
  obtain ⟨s, hs, hwalk⟩ := ho.holds.walk h
  exact ⟨s, hs, walk_before hwalk⟩

theorem mem_of_behind? {isMarker : Token → Bool} (h : o.behind? isMarker = some p) :
    p ∈ o.parts :=
  (List.dropWhile_sublist _).subset (List.mem_of_find?_eq_some h)

/-- What may be found behind a token. -/
theorem kind_behind (ho : o.Readable kind) {marker : TokenKind} {kinds : List Phrase}
    (h : kind.shape.reads (Search.step marker) .before (Search.finds kinds))
    (hp : o.behind? (·.kind == marker) = some p) :
    p ∈ o.parts ∧ ∃ k ∈ kinds, p.tree.phrase? = some k := by
  obtain ⟨s, hs, hends⟩ := ho.behind_fits marker h
  rw [hp] at hends
  cases s with
  | before => cases hends
  | behind => cases hends
  | found i =>
    obtain ⟨q, hq, hfits⟩ := hends
    obtain rfl := Option.some.inj hq
    exact ⟨mem_of_behind? hp, Item.exists_phrase hfits hs⟩

/-- The first phrase behind a token, if there is one, read as something. -/
theorem readBehind (ho : o.Readable kind) {marker : TokenKind}
    (h : kind.shape.reads (Search.step marker) .before (Search.finds goal.kinds)) :
    Yields (fun _ => True) (Part.readOption goal (o.behind? (·.kind == marker))) :=
  (Part.readOption_yields fun p hp => by
    obtain ⟨hmem, k, hk, hphrase⟩ := ho.kind_behind h hp
    exact (ho.below p hmem).reads_kind hphrase hk).any

/-- The first phrase behind a token that cannot be missing. -/
theorem exists_behind (ho : o.Readable kind) (marker : TokenKind) (kinds : List Phrase)
    (h : (kind.shape.reads (Search.step marker) .before fun s => s.isFound && s.finds kinds)) :
    ∃ p, o.behind? (·.kind == marker) = some p ∧ p.Readable ∧
      ∃ kind' ∈ kinds, p.tree.phrase? = some kind' := by
  obtain ⟨s, hs, hends⟩ := ho.behind_fits marker h
  cases s with
  | before => cases hs
  | behind => cases hs
  | found i =>
    obtain ⟨p, hp, hfits⟩ := hends
    exact ⟨p, hp, ho.below p (mem_of_behind? hp), Item.exists_phrase hfits hs⟩

/-! ### Common parts -/

theorem annotations (ho : o.Readable kind) :
    Yields (fun n =>
      n.isEmpty = (o.phrasesOf .annotationUse).isEmpty) o.annotations := ho.readAll rfl

theorem modifiers (ho : o.Readable kind) : Yields (fun _ => True) o.modifiers :=
  (ho.readList rfl).any

theorem dims (ho : o.Readable kind) :
    Yields (fun n => n.isEmpty = (o.phrasesOf .dim).isEmpty) o.dims := ho.readAll rfl

end Opened.Readable

end JavaSource
