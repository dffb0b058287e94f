import JavaSource.Reading.Reader

/-!
# Trees read from the outside

What a tree is read as, told from its parts: `Tree.readNth_opened`, `Tree.token_opened` and
`Tree.operator_opened` say what is found among them.

A chain is read from its innermost link outwards, whatever its length.  It comes to the same to
read the left side of its outermost link and to extend that (`Tree.read_of_isChain`).
-/

namespace JavaSource

theorem Part.tree_ofTree (t : Tree) : (Part.ofTree t).tree = t := by
  cases t <;> rfl

theorem Part.isPhrase_ofTree (t : Tree) : (Part.ofTree t).isPhrase = t.phrase?.isSome := by
  rw [isPhrase, tree_ofTree]

theorem Part.isA_comp_ofTree (kind : Phrase) :
    Part.isA kind ∘ Part.ofTree = fun t => t.phrase? == some kind := by
  funext t
  rw [Function.comp_apply, Part.isA, Part.tree_ofTree]

theorem Part.ofTrees_eq_map (ts : List Tree) : Part.ofTrees ts = ts.map Part.ofTree := by
  induction ts with
  | nil => rfl
  | cons t ts ih => rw [Part.ofTrees, ih, List.map_cons]

namespace Tree

/-- A tree with what its parts can be read as. -/
def opened (t : Tree) : Opened := (Part.ofTree t).opened

variable {t : Tree}

theorem tree_opened (t : Tree) : t.opened.tree = t := by
  cases t <;> rfl

theorem parts_opened (t : Tree) : t.opened.parts = t.parts.map Part.ofTree := by
  cases t with
  | leaf token => rfl
  | node kind ts start stop => exact Part.ofTrees_eq_map ts

theorem read_eq (t : Tree) {c : Category} (goal : Goal c) : t.read goal = t.opened.read goal := by
  cases t <;> rfl

theorem phrases_opened (t : Tree) : t.opened.phrases = t.phrases.map Part.ofTree := by
  rw [Opened.phrases, parts_opened, List.filter_map, phrases]
  exact congrArg _ (List.filter_congr fun p _ => Part.isPhrase_ofTree p)

theorem readNth_opened {i : Nat} {p : Tree} {c : Category} {goal : Goal c}
    (h : t.phrases[i]? = some p) : t.opened.readNth i goal = p.read goal := by
  rw [Opened.readNth, Opened.nth, phrases_opened, List.getElem?_map, h]
  rfl

theorem token_opened {token : Token} (h : t.tokens.head? = some token) :
    t.opened.token = .ok token := by
  rw [Opened.token, tree_opened, h]

theorem operator_opened {α : Type} {place : OperatorPlace} {ofText? : String → Option α}
    (token : Token) {op : α} (h : t.tokens.head? = some token)
    (hop : ofText? token.text = some op) : t.opened.operator place ofText? = .ok op := by
  simp only [Opened.operator, token_opened h, bind, Except.bind, hop]
  rfl

theorem first?_opened (t : Tree) (kind : Phrase) :
    t.opened.first? kind = (t.parts.find? (·.phrase? == some kind)).map Part.ofTree := by
  rw [Opened.first?, parts_opened, List.find?_map, Part.isA_comp_ofTree]

theorem readFirst_opened {kind : Phrase} {p : Tree} {c : Category} {goal : Goal c}
    (h : t.parts.find? (·.phrase? == some kind) = some p) :
    t.opened.readFirst kind goal = p.read goal := by
  rw [Opened.readFirst, Opened.first, first?_opened, h]
  rfl

/-- Where there are no modifiers, none are read. -/
theorem modifiers_opened (h : ∀ p ∈ t.parts, (p.phrase? == some .modifiers) = false) :
    t.opened.modifiers = .ok .nil := by
  have hnone : t.parts.find? (·.phrase? == some .modifiers) = none :=
    List.find?_eq_none.mpr fun p hp => by rw [h p hp]; exact Bool.false_ne_true
  rw [Opened.modifiers, Opened.readList, first?_opened, hnone]
  rfl

/-- All phrases, read one by one. -/
theorem readAll_phrases (t : Tree) {c : Category} (goal : Goal c) :
    Part.readAll goal t.opened.phrases = Node.ofList <$> t.phrases.mapM fun p => p.read goal := by
  rw [Part.readAll, phrases_opened, List.mapM_map]
  rfl

/-- The phrases of a kind. -/
theorem phrasesOf_opened (t : Tree) (kind : Phrase) :
    t.opened.phrasesOf kind = (t.parts.filter (·.phrase? == some kind)).map Part.ofTree := by
  rw [Opened.phrasesOf, parts_opened, List.filter_map, Part.isA_comp_ofTree]

/-- The phrases of other kinds. -/
theorem phrasesBut_opened (t : Tree) (kind : Phrase) :
    t.opened.phrasesBut kind =
      (t.phrases.filter fun p => !(p.phrase? == some kind)).map Part.ofTree := by
  rw [Opened.phrasesBut, phrases_opened, List.filter_map]
  exact congrArg _ (List.filter_congr fun p _ => by
    rw [Function.comp_apply, Part.isA, Part.tree_ofTree])

/-- The phrases of a kind, read one by one. -/
theorem readAll_opened (t : Tree) (kind : Phrase) {c : Category} (goal : Goal c) :
    t.opened.readAll kind goal =
      Node.ofList <$> (t.parts.filter (·.phrase? == some kind)).mapM fun p => p.read goal := by
  rw [Opened.readAll, Part.readAll, phrasesOf_opened, List.mapM_map]
  rfl

/-- Nothing is read where there is no phrase of a kind. -/
theorem readAll_none {kind : Phrase} {c : Category} {goal : Goal c}
    (h : t.parts.filter (·.phrase? == some kind) = []) :
    t.opened.readAll kind goal = .ok .nil := by
  rw [readAll_opened, h]
  rfl

/-- Expressions, read one by one. -/
theorem read_exprs (t : Tree) :
    t.read .exprs = Node.ofList <$> t.phrases.mapM fun p => p.read .expr :=
  (read_eq t .exprs).trans (t.readAll_phrases .expr)

end Tree

/-! ### Chains -/

/-- A chain, extended link by link from where it starts. -/
def Part.extended (found : Except NodeError (List Opened × Part)) : Reading .expr := do
  let (links, start) ← found
  links.foldlM (fun left link => link.extend left) (← start.read .expr)

/-- The first phrase among some parts, read as the left side of a link. -/
def Opened.left (link : Opened) : List Tree → Reading .expr
  | []      => link.lacks "at least 1 child rules"
  | t :: ts => if t.phrase?.isSome then t.read .expr else link.left ts

theorem Opened.expr_of_isChain {o : Opened} {kind : Phrase} (hkind : o.tree.phrase? = some kind)
    (h : isChain kind = true) : o.expr = o.chain := by
  unfold expr
  rw [hkind]
  cases kind <;> first
    | (cases h; done)
    | rfl

mutual

theorem Part.extended_chainStart : (t : Tree) → (links : List Opened) →
    Part.extended ((Part.ofTree t).chainStart links) = do
      links.foldlM (fun left link => link.extend left) (← t.read .expr)
  | .leaf _, _ => rfl
  | .node kind ts start stop, links => by
    let o : Opened := ⟨.node kind ts start stop, Part.ofTrees ts⟩
    rw [Part.ofTree, Part.chainStart]
    split
    · rename_i hchain
      have hread : (Tree.node kind ts start stop).read .expr =
          Part.extended (Part.firstStart [o] o (Part.ofTrees ts)) :=
        Opened.expr_of_isChain (o := o) rfl hchain
      rw [hread, Part.extended_firstStart ts, Part.extended_firstStart ts]
      cases o.left ts with
      | error e => rfl
      | ok left =>
        simp only [bind, Except.bind, List.foldlM_cons, List.foldlM_nil]
        cases o.extend left <;> rfl
    · rfl

theorem Part.extended_firstStart : (ts : List Tree) → (links : List Opened) → (link : Opened) →
    Part.extended (Part.firstStart links link (Part.ofTrees ts)) = do
      links.foldlM (fun left link => link.extend left) (← link.left ts)
  | [], _, _ => rfl
  | t :: ts, links, link => by
    rw [Part.ofTrees, Part.firstStart, Part.isPhrase_ofTree, Opened.left]
    split
    · exact Part.extended_chainStart t links
    · exact Part.extended_firstStart ts links link

end

/-- **A chain is its left side, extended.** -/
theorem Tree.read_of_isChain {t : Tree} (h : t.phrase?.any Opened.isChain = true) :
    t.read .expr = t.opened.left t.parts >>= t.opened.extend := by
  cases t with
  | leaf token => cases h
  | node kind ts start stop =>
    let o := (Tree.node kind ts start stop).opened
    have hread : (Tree.node kind ts start stop).read .expr =
        Part.extended (Part.firstStart [o] o (Part.ofTrees ts)) :=
      Opened.expr_of_isChain (o := o) rfl h
    rw [hread, Part.extended_firstStart, parts]
    cases o.left ts with
    | error e => rfl
    | ok left =>
      simp only [bind, Except.bind, List.foldlM_cons, List.foldlM_nil]
      change _ = o.extend left
      cases o.extend left <;> rfl

end JavaSource
