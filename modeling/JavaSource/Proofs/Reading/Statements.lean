import JavaSource.Proofs.Reading.Expressions

/-!
# Reading statements

Each reader yields what its goal gives.  The head of a loop is read along with an automaton that
counts semicolons; the groups of a switch block are full but for the last one.
-/

namespace JavaSource

open Phrase

namespace Opened.Readable

variable {o : Opened} {kind : Phrase}

theorem block (ho : o.Readable .block) : Yields (fun _ => True) o.block :=
  (ho.readPhrases rfl).map fun _ _ => trivial

theorem localVariables (ho : o.Readable .localVariableDeclaration) :
    Yields (fun _ => True) o.localVariables := by
  refine (ho.readFirst rfl rfl).bind fun ty _ => (ho.readFirst rfl rfl).bind fun ds ⟨_, _, hds⟩ =>
    ?_
  refine (Node.check_yields ?_).bind fun _ _ => ho.modifiers.bind fun _ _ => trivial
  exact Node.lacking?_eq_none hds

/-! ### Loops -/

theorem forInit (ho : o.Readable .forInit) : Yields (fun _ => True) o.forInit := by
  unfold Opened.forInit
  split
  · obtain ⟨hmem, hphrase⟩ := mem_of_first? ‹_›
    exact ((ho.below _ hmem).reads_as hphrase rfl).map fun _ _ => trivial
  · rename_i hnone
    refine (Part.readAll_yields fun p hp => ?_).map fun _ _ => trivial
    obtain ⟨hmem, hphrase⟩ := List.mem_filter.mp hp
    obtain ⟨k, hk⟩ := Option.isSome_iff_exists.mp hphrase
    refine ⟨ho.below p hmem, k, hk, ?_⟩
    rcases List.mem_cons.mp (ho.kind_mem hmem hk) with rfl | hkinds
    · exact absurd (beq_iff_eq.mpr hk) (List.find?_eq_none.mp hnone p hmem)
    · have hexprs : ∀ k ∈ (Shape.separated .comma Phrase.expr).kinds, k ∈ Goal.expr.kinds := by
        decide
      exact hexprs k hkinds

/-- How many semicolons there are so far.  Between the first and the second one there is nothing
but an expression. -/
def headStep (semicolons : Nat) (i : Item) : Option Nat :=
  if i.isPhrase then
    if semicolons ≠ 1 || i.isAnyOf (.forInit :: .forUpdate :: Goal.expr.kinds) then some semicolons
    else none
  else (i.tells .semi).map fun told => if told then semicolons + 1 else semicolons

theorem headStep_leaf {i : Item} {t : Token} {n n' : Nat} (hfits : i.fits (.leaf t))
    (hstep : headStep n i = some n') : n' = if t.kind == .semi then n + 1 else n := by
  unfold headStep at hstep
  rw [← Item.isSome_phrase?_of_fits hfits] at hstep
  obtain ⟨told, htold, rfl⟩ := Option.map_eq_some_iff.mp hstep
  have htoken : (t.kind == .semi) = told := Item.token?_of_tells hfits htold
  rw [htoken]

theorem headStep_phrase {i : Item} {t : Tree} {k : Phrase} {n n' : Nat} (hfits : i.fits t)
    (hphrase : t.phrase? = some k) (hstep : headStep n i = some n') :
    n' = n ∧ (n = 1 → k ∈ .forInit :: .forUpdate :: Goal.expr.kinds) := by
  unfold headStep at hstep
  rw [← Item.isSome_phrase?_of_fits hfits, hphrase] at hstep
  simp only [Option.isSome_some, ↓reduceIte, Option.ite_none_right_eq_some,
    Option.some.injEq] at hstep
  obtain ⟨hor, rfl⟩ := hstep
  refine ⟨rfl, fun hone => ?_⟩
  rcases (Bool.or_eq_true ..).mp hor with hne | hany
  · exact absurd hone (of_decide_eq_true hne)
  · obtain ⟨k', hk', hphrase'⟩ := Item.exists_phrase hfits hany
    exact Option.some.inj (hphrase.symm.trans hphrase') ▸ hk'

theorem headPush_yields {p : Part} (hp : p.Readable) {head : ForHead} {i : Item} {n : Nat}
    (hfits : i.fits p.tree) (hstep : headStep head.semicolons i = some n) :
    Yields (fun head => head.semicolons = n) (head.push p) := by
  unfold ForHead.push
  cases htree : p.tree with
  | leaf t =>
    rw [htree] at hfits
    rw [headStep_leaf hfits hstep]
    dsimp only
    cases t.kind == .semi <;> exact rfl
  | node k ps a b =>
    have hphrase : p.tree.phrase? = some k := by rw [htree]; rfl
    obtain ⟨rfl, hkind⟩ := headStep_phrase hfits hphrase hstep
    dsimp only
    split
    · exact (hp.reads_as hphrase rfl).bind fun _ _ => rfl
    · exact (hp.reads_as hphrase rfl).bind fun _ _ => rfl
    · split
      · rename_i hinit hupdate hsemi
        have hk : k ∈ Goal.expr.kinds := by
          rcases List.mem_cons.mp (hkind (beq_iff_eq.mp hsemi)) with h | hk
          · exact absurd h hinit
          rcases List.mem_cons.mp hk with h | hk
          · exact absurd h hupdate
          · exact hk
        exact (hp.reads_kind hphrase hk).bind fun _ _ => rfl
      · exact rfl

theorem forStmt (ho : o.Readable .forStatement) : Yields (fun _ => True) o.forStmt := by
  refine (ho.last Goal.stmt.kinds rfl).bind fun p ⟨hp, k, hk, hphrase⟩ => ?_
  refine (hp.reads_kind hphrase hk).bind fun body _ => ?_
  have hreads : Phrase.forStatement.shape.reads headStep 0 fun _ => true := rfl
  obtain ⟨n, -, hwalk⟩ := ho.holds.walk hreads
  refine (foldlM_walk (R := fun n head => ForHead.semicolons head = n) hwalk rfl ?_).bind
    fun head _ => trivial
  rintro p hp _ n i head rfl hfits hstep
  exact headPush_yields (ho.below p hp) hfits hstep

theorem forEachStmt (ho : o.Readable .enhancedForStatement) :
    Yields (fun _ => True) o.forEachStmt := by
  refine (ho.readFirst rfl rfl).bind fun ty _ => (ho.readFirst rfl rfl).bind fun id _ => ?_
  obtain ⟨iter, hiter, hread, k, hk, hphrase⟩ := ho.exists_behind .colon Goal.expr.kinds rfl
  rw [hiter]
  refine (hread.reads_kind hphrase hk).bind fun iter _ => ?_
  refine (ho.last Goal.stmt.kinds rfl).bind fun p ⟨hp, k, hk, hphrase⟩ => ?_
  exact (hp.reads_kind hphrase hk).bind fun body _ => ho.modifiers.bind fun _ _ => trivial

/-! ### Exceptions -/

theorem finalBlock (ho : o.Readable kind) :
    Yields (fun n => n.isSome = (o.first? .finallyClause).isSome) o.finalBlock := by
  unfold Opened.finalBlock
  split
  · rename_i clause hclause
    obtain ⟨hmem, hphrase⟩ := mem_of_first? hclause
    rw [hclause]
    exact (((ho.below _ hmem).opened hphrase).readFirst rfl rfl).map fun _ _ => rfl
  · rename_i hnone
    rw [hnone]
    exact rfl

theorem tryStmt (ho : o.Readable .tryStatement) : Yields (fun _ => True) o.tryStmt := by
  refine (ho.readFirst rfl rfl).bind fun body _ => (ho.readAll rfl).bind fun catches hcatches => ?_
  refine ho.finalBlock.bind fun final hfinal => (Node.checked_yields ?_).any
  rw [isSome_first?] at hfinal
  obtain ⟨p, hp, k, hk, hphrase⟩ := ho.exists_phrase [.catchClause, .finallyClause] rfl
  have hne := phrasesOf_ne_of_mem hp hphrase
  rcases List.mem_cons.mp hk with rfl | hk
  · rw [hne] at hcatches
    cases catches with
    | nil => cases hcatches
    | cons => rfl
  · obtain rfl := List.mem_singleton.mp hk
    rw [hne] at hfinal
    cases final with
    | absent => cases hfinal
    | present => cases catches <;> rfl

theorem tryResourcesStmt (ho : o.Readable .tryWithResourcesStatement) :
    Yields (fun _ => True) o.tryResourcesStmt := by
  refine (ho.first rfl).bind fun specification ⟨_, hread, hphrase⟩ => ?_
  refine ((hread.opened hphrase).readAll_ne rfl rfl).bind fun resources hresources => ?_
  refine (ho.readFirst rfl rfl).bind fun body _ => (ho.readAll rfl).bind fun catches _ => ?_
  refine ho.finalBlock.bind fun final _ => (Node.checked_yields ?_).any
  exact Node.lacking?_eq_none hresources

theorem catchClause (ho : o.Readable .catchClause) : Yields (fun _ => True) o.catchClause := by
  refine (ho.readFirst rfl rfl).bind fun exceptions ⟨_, _, hne⟩ =>
    (ho.identifierAs rfl).bind fun id _ => ?_
  refine (ho.readFirst rfl rfl).bind fun body _ => (Node.check_yields ?_).bind fun _ _ => ?_
  · exact Node.lacking?_eq_none hne
  · exact ho.modifiers.bind fun _ _ => trivial

theorem tryResource (ho : o.Readable .resource) : Yields (fun _ => True) o.tryResource := by
  unfold Opened.tryResource
  split
  · obtain ⟨hmem, hphrase⟩ := mem_of_first? ‹_›
    exact ((ho.below _ hmem).reads_as hphrase rfl).map fun _ _ => trivial
  · rename_i hnone
    refine (ho.readFirst_unless hnone rfl rfl).bind fun ty _ => ?_
    refine (ho.readFirst_unless hnone rfl rfl).bind fun declarator _ => ?_
    exact ho.modifiers.bind fun _ _ => trivial

/-! ### Switch blocks -/

/-- A label without `default` has an item. -/
theorem phrases_of_label (ho : o.Readable .switchLabel) (hdefault : ¬o.hasToken .defaultKw = true) :
    o.phrases ≠ [] := by
  rcases ho.exists_either [.defaultKw] Phrase.caseItems rfl with ⟨t, ht, hkind⟩ | ⟨p, hp, k, _, hk⟩
  · exact absurd (List.mem_singleton.mp hkind ▸ hasToken_of_mem ht) hdefault
  · exact List.ne_nil_of_mem (List.mem_filter.mpr ⟨hp, by rw [Part.isPhrase, hk]; rfl⟩)

theorem switchLabels (ho : o.Readable .switchLabel) :
    Yields (fun labels => labels ≠ []) o.switchLabels := by
  unfold Opened.switchLabels
  split
  · exact List.cons_ne_nil _ _
  · have hne := ho.phrases_of_label ‹_›
    refine (Yields.mapM (P := fun _ => True) fun p hp => ?_).bind fun items ⟨hlen, _⟩ => ?_
    · obtain ⟨hmem, hphrase⟩ := List.mem_filter.mp hp
      obtain ⟨k, hk⟩ := Option.isSome_iff_exists.mp hphrase
      have hkinds : ∀ k ∈ Phrase.switchLabel.shape.kinds, k ∈ Goal.caseItem.kinds := by decide
      exact ((ho.below p hmem).reads_kind hk (hkinds k (ho.kind_mem hmem hk))).any
    · show List.map _ (o.phrases.zip items) ≠ []
      rw [Ne, List.map_eq_nil_iff, ← List.length_eq_zero_iff, List.length_zip, hlen, Nat.min_self]
      exact fun hzero => hne (List.length_eq_zero_iff.mp hzero)

theorem groupLabels (ho : o.Readable .switchGroup) :
    Yields (fun labels => labels ≠ []) o.groupLabels := by
  have hne : (o.phrasesOf .switchLabel).isEmpty = false := ho.phrasesOf_ne rfl
  refine (Yields.mapM (P := fun labels => labels ≠ []) fun label hlabel => ?_).bind
    fun labels ⟨hlen, hlabels⟩ => ?_
  · obtain ⟨hread, hphrase⟩ := isLabel_of_mem ho hlabel
    exact (hread.opened hphrase).switchLabels
  · show labels.flatten ≠ []
    cases labels with
    | nil =>
      rw [List.isEmpty_eq_false_iff, ← List.length_pos_iff, ← hlen] at hne
      cases hne
    | cons label labels =>
      have hlabel := hlabels label List.mem_cons_self
      rw [List.flatten_cons]
      exact fun hnil => hlabel (List.append_eq_nil_iff.mp hnil).1

/-- A group with statements behind its labels. -/
def IsFull (p : Part) : Prop :=
  p.Readable ∧ (Item.holding .switchGroup statements).fits p.tree

/-- A group with labels alone. -/
def IsBare (p : Part) : Prop :=
  p.Readable ∧ (Item.only .switchGroup [.switchLabel]).fits p.tree

theorem phrase?_of_fits {i : Item} {t : Tree} {kind : Phrase} (h : i.fits t)
    (hi : i.isAnyOf [kind]) : t.phrase? = some kind := by
  obtain ⟨k, hk, hphrase⟩ := Item.exists_phrase h hi
  exact List.mem_singleton.mp hk ▸ hphrase

theorem groupBody_of_isFull {p : Part} (h : IsFull p) :
    p.opened.Readable .switchGroup ∧ Yields (fun n => n.isEmpty = false) p.opened.groupBody := by
  obtain ⟨hread, hfits⟩ := h
  have ho : p.opened.Readable .switchGroup := hread.opened (phrase?_of_fits hfits rfl)
  refine ⟨ho, ho.groupBody.mono fun n hn => hn.trans ?_⟩
  obtain ⟨q, hq, k, hk, hphrase⟩ := ho.exists_of_holding (Part.tree_opened ▸ hfits)
  have hne : k ≠ .switchLabel := fun he => absurd (he ▸ hk) (by decide)
  refine List.isEmpty_eq_false_iff_exists_mem.mpr ⟨q, List.mem_filter.mpr ⟨?_, ?_⟩⟩
  · exact List.mem_filter.mpr ⟨hq, by rw [Part.isPhrase, hphrase]; rfl⟩
  · simpa [Part.isA, hphrase] using hne

theorem groupBody_of_isBare {p : Part} (h : IsBare p) :
    p.opened.Readable .switchGroup ∧ Yields (fun n => n.isEmpty) p.opened.groupBody := by
  obtain ⟨hread, hfits⟩ := h
  have ho : p.opened.Readable .switchGroup := hread.opened (phrase?_of_fits hfits rfl)
  refine ⟨ho, ho.groupBody.mono fun n hn => hn.trans ?_⟩
  rw [List.isEmpty_iff, phrasesBut, List.filter_eq_nil_iff]
  intro q hq hbut
  obtain ⟨hmem, hphrase⟩ := List.mem_filter.mp hq
  obtain ⟨k, hk⟩ := Option.isSome_iff_exists.mp hphrase
  have hlabel := ho.mem_of_only (Part.tree_opened ▸ hfits) hmem hk
  rw [Part.isA, hk, List.mem_singleton.mp hlabel] at hbut
  cases hbut

theorem groupsAndLabels_bare {groups : List Part} (h : ∀ p ∈ groups, IsBare p)
    (labels : List (Node .switchLabel)) :
    Yields (fun _ => True) (groupsAndLabels labels groups) := by
  induction groups generalizing labels with
  | nil => trivial
  | cons p ps ih =>
    obtain ⟨hp, hps⟩ := List.forall_mem_cons.mp h
    obtain ⟨ho, hbody⟩ := groupBody_of_isBare hp
    rw [groupsAndLabels]
    refine ho.groupLabels.bind fun own _ => hbody.bind fun body hbody => ?_
    cases body with
    | nil => exact ih hps _
    | cons => cases hbody

/-- Groups with statements, and behind them some with labels alone. -/
theorem groupsAndLabels_yields {fulls bares : List Part} (hfulls : ∀ p ∈ fulls, IsFull p)
    (hbares : ∀ p ∈ bares, IsBare p) :
    Yields (fun _ => True) (groupsAndLabels [] (fulls ++ bares)) := by
  induction fulls with
  | nil => exact groupsAndLabels_bare hbares []
  | cons p ps ih =>
    obtain ⟨hp, hps⟩ := List.forall_mem_cons.mp hfulls
    obtain ⟨ho, hbody⟩ := groupBody_of_isFull hp
    rw [List.cons_append, groupsAndLabels]
    refine ho.groupLabels.bind fun own hown => hbody.bind fun body hbody => ?_
    cases body with
    | nil => cases hbody
    | cons =>
      refine Yields.bind (P := fun _ => True) (Node.checked_yields ?_).any fun node _ => ?_
      · cases own with
        | nil => exact absurd rfl hown
        | cons => rfl
      · exact (ih hps).bind fun _ _ => trivial

/-- The groups of a switch block. -/
theorem groups (ho : o.Readable .switchBlock) : ∃ fulls bares : List Part,
    o.phrasesOf .switchGroup = fulls ++ bares ∧ (∀ p ∈ fulls, IsFull p) ∧
      ∀ p ∈ bares, IsBare p := by
  obtain ⟨_, _, htrees, ⟨_, _, rfl, hfront, hback⟩, hend⟩ := ho.holds
  rw [List.append_assoc] at htrees
  obtain ⟨ps, qs, hparts, rfl, hqs⟩ := List.map_eq_append_iff.mp htrees
  have hback : (Shape.seq (.opt emptyGroup) (.tok .rbrace)).Holds (qs.map Part.tree) :=
    ⟨_, _, hqs, hback, hend⟩
  refine ⟨ps.filter (Part.isA .switchGroup), qs.filter (Part.isA .switchGroup), ?_, ?_, ?_⟩
  · rw [phrasesOf, hparts, List.filter_append]
  · intro p hp
    obtain ⟨hmem, hphrase⟩ := List.mem_filter.mp hp
    exact ⟨ho.below p (hparts ▸ List.mem_append_left qs hmem),
      hfront.fits_of_kind (List.mem_map_of_mem hmem) (beq_iff_eq.mp hphrase) (by decide)⟩
  · intro p hp
    obtain ⟨hmem, hphrase⟩ := List.mem_filter.mp hp
    exact ⟨ho.below p (hparts ▸ List.mem_append_right ps hmem),
      hback.fits_of_kind (List.mem_map_of_mem hmem) (beq_iff_eq.mp hphrase) (by decide)⟩

theorem switchBlock (ho : o.Readable .switchBlock) :
    Yields (fun n => n.mixture? = none) o.switchBlock := by
  unfold Opened.switchBlock
  dsimp only
  split
  · exact .mixedSwitch _
  · split
    · refine ho.allRules.bind fun rules _ => ?_
      show Node.mixture? _ = none
      rw [Node.mixture?]
      cases rules <;> rfl
    · obtain ⟨fulls, bares, heq, hfulls, hbares⟩ := ho.groups
      rw [heq]
      exact (groupsAndLabels_yields hfulls hbares).bind fun _ _ => rfl

/-! ### All statements -/

theorem stmt (ho : o.Readable kind) (hk : kind ∈ Goal.stmt.kinds) :
    Yields (fun _ => True) o.stmt := by
  unfold Opened.stmt
  rw [ho.kind]
  simp only [Goal.kinds, statements, List.mem_cons, List.not_mem_nil, or_false] at hk
  rcases hk with rfl | rfl | rfl | rfl | rfl | rfl | rfl | rfl | rfl | rfl | rfl | rfl | rfl |
    rfl | rfl | rfl | rfl | rfl | rfl | rfl | rfl
  · exact ho.block.map fun _ _ => trivial
  · exact (ho.readFirst rfl rfl).bind fun _ _ => trivial
  · let local? : Item := .only .memberDeclaration (.modifiers :: typeDeclarations)
    refine (ho.readFirstAs local? rfl rfl rfl).bind fun decl hread => ?_
    obtain ⟨t, hfits, hdecl⟩ := hread
    refine (Node.checked_yields ?_).any
    exact if_pos (hdecl hfits)
  · trivial
  · exact (ho.identifierAs rfl).bind fun _ _ => (ho.readNth rfl).bind fun _ _ => trivial
  · exact (ho.readNth rfl).map fun _ _ => trivial
  · exact (ho.readNth rfl).bind fun _ _ => (ho.readNth rfl).bind fun _ _ =>
      (ho.readOption rfl).bind fun _ _ => trivial
  · exact (ho.readNth rfl).bind fun _ _ => (ho.readOption rfl).bind fun _ _ => trivial
  · refine (ho.readNth rfl).bind fun value _ => (ho.readFirst rfl rfl).bind fun block hread => ?_
    obtain ⟨_, _, hblock⟩ := hread
    refine (Node.checked_yields ?_).any
    exact hblock
  · exact (ho.readNth rfl).bind fun _ _ => (ho.readNth rfl).bind fun _ _ => trivial
  · exact (ho.readNth rfl).bind fun _ _ => (ho.readNth rfl).bind fun _ _ => trivial
  · exact ho.forStmt
  · exact ho.forEachStmt
  · trivial
  · trivial
  · exact (ho.readOption rfl).map fun _ _ => trivial
  · exact (ho.readNth rfl).map fun _ _ => trivial
  · exact (ho.readNth rfl).bind fun _ _ => (ho.readFirst rfl rfl).bind fun _ _ => trivial
  · exact ho.tryStmt
  · exact ho.tryResourcesStmt
  · exact (ho.readNth rfl).map fun _ _ => trivial

end Opened.Readable

end JavaSource
