import JavaSource.Proofs.Statements.Matched
import JavaSource.Proofs.Statements.Meaning
import JavaSource.Proofs.Statements.Printed
import JavaSource.Proofs.Types.Meaning
import JavaSource.Proofs.Types.Printed
import JavaSource.Proofs.Types.Scanned

/-!
# Variables of a type

The declaration `T x;` as it is written, scanned and parsed.  It is told from an expression by a
trial: a type that a name stands behind (`Faces.startsVariable_type`).

That the type starts with a name that is one everywhere (`TypeTree.StartsPlain`) keeps the first
symbol from being taken for a modifier, for `yield` or for `record`.
-/

namespace JavaSource

open Grammar (Symbol Rule Scanned Faces Entered Entry Stand Move Source kindAhead EndsType)

/-- The name of a part of a class type. -/
def CoitTree.name : CoitTree → LegalName
  | .plain name | .generic name _ => name

/-- The name that a class type starts with. -/
def CoitTrees.front : CoitTrees → LegalName
  | .last part | .dot part _ => part.name

/-- A type starts with a word or with a name that is one everywhere. -/
def BaseTree.StartsPlain : BaseTree → Prop
  | .word _      => True
  | .named parts => parts.front.IsPlain

def TypeTree.StartsPlain : TypeTree → Prop
  | .mk base _ => base.StartsPlain

/-- The node of a variable of a type. -/
def TypeTree.variable (t : TypeTree) (x : LegalName) (spans : Spans) : Stmt :=
  .localVariableStmt (.localVariables (spans []) .nil (t.node (spans.below 0))
    (.cons (.variableDeclarator (spans [1])
      (.variableDeclaratorId (spans [2]) (x.identifier (spans.below 3)) .nil) .absent) .nil))

/-- The symbols of its declaration. -/
def TypeTree.variableSymbols (t : TypeTree) (x : LegalName) : List Symbol :=
  t.symbols false ++ [x.symbol, TokenKind.semi.symbol]

/-- The parse tree of its declaration. -/
def TypeTree.variableTree (t : TypeTree) (x : LegalName) : Tree :=
  Phrase.localVariableDeclarationStatement.over [Phrase.localVariableDeclaration.over
    [t.tree, Phrase.variableDeclarators.over [Phrase.variableDeclarator.over [x.variableTree]]],
    TokenKind.semi.leaf]

/-! ### What a declaration starts with -/

/-- What a type starts with: a word of its own, or a name that is one everywhere. -/
def StartsType (rest : List Symbol) : Prop :=
  (kindAhead rest 0).isPrimitiveType = true ∨
    ∃ n : LegalName, ∃ rest', rest = n.symbol :: rest' ∧ n.IsPlain

theorem CoitTrees.symbols_front (parts : CoitTrees) (touches : Bool) :
    ∃ others, parts.symbols touches = parts.front.symbol :: others := by
  cases parts with
  | last part => cases part <;> exact ⟨_, rfl⟩
  | dot first others => cases first <;> exact ⟨_, rfl⟩

theorem TypeTree.startsType {t : TypeTree} (h : t.StartsPlain) (touches : Bool)
    (rest : List Symbol) : StartsType (t.symbols touches ++ rest) := by
  cases t with
  | mk base dims =>
    cases base with
    | word word => exact .inl (by cases word <;> rfl)
    | named parts =>
      obtain ⟨others, hsymbols⟩ := parts.symbols_front (dims == 0 && touches)
      refine .inr ⟨parts.front, others ++ dimSymbols dims ++ rest, ?_, h⟩
      rw [TypeTree.symbols, BaseTree.symbols, hsymbols]
      rfl

namespace StartsType

variable {ss rest : List Symbol} {parts : List Tree} {s : Stand}

theorem ne_nil (h : StartsType rest) : rest ≠ [] := by
  rintro rfl
  rcases h with hkind | ⟨n, rest', hrest, -⟩
  · cases hkind
  · cases hrest

/-- It is no word of another meaning. -/
theorem isWord_eq (h : StartsType rest) (hs : Faces ss parts rest s) {word : String}
    (hword : word ∈ contextualWords) : ((Source.ofSymbols ss).view s).isAtWord word = false := by
  change (((Source.ofSymbols ss).view s).at_ 0).isWord word = false
  rw [hs.at_eq]
  rcases h with hkind | ⟨n, rest', rfl, hplain⟩
  · refine (Bool.and_eq_false_iff ..).mpr (.inl (beq_eq_false_iff_ne.mpr fun heq => ?_))
    have hkind : (rest[0]?.getD Symbol.final).kind.isPrimitiveType = true := hkind
    rw [heq] at hkind
    cases hkind
  · exact beq_eq_false_iff_ne.mpr (hplain.ne hword)

theorem startsModifier (h : StartsType rest) (hs : Faces ss parts rest s) :
    ((Source.ofSymbols ss).view s).startsModifier = false := by
  refine Grammar.Ahead.startsModifier_of_kind ?_ ?_
  · exact (Bool.and_eq_false_iff ..).mpr (.inl (h.isWord_eq hs (by decide)))
  · rw [hs.kind_eq]
    rcases h with hkind | ⟨n, rest', rfl, -⟩
    · revert hkind
      generalize kindAhead rest 0 = kind
      cases kind <;> intro hkind <;> first | rfl | cases hkind
    · rfl

theorem startsTypeDeclaration (h : StartsType rest) (hs : Faces ss parts rest s) :
    ((Source.ofSymbols ss).view s).startsTypeDeclaration = false := by
  have hrecord : ((Source.ofSymbols ss).view s).startsRecord = false := by
    rw [Grammar.Ahead.startsRecord, h.isWord_eq hs (by decide), Bool.false_and, Bool.false_and]
  unfold Grammar.Ahead.startsTypeDeclaration
  rw [hrecord, hs.kind_eq]
  rcases h with hkind | ⟨n, rest', rfl, -⟩
  · revert hkind
    generalize kindAhead rest 0 = kind
    cases kind <;> intro hkind <;> first | rfl | cases hkind
  · rfl

theorem startsYield (h : StartsType rest) (hs : Faces ss parts rest s) :
    ((Source.ofSymbols ss).view s).startsYield = false :=
  (Bool.and_eq_false_iff ..).mpr (.inl (h.isWord_eq hs (by decide)))

theorem mayStartType (h : StartsType rest) (hs : Faces ss parts rest s) :
    ((Source.ofSymbols ss).view s).mayStartType = true := by
  unfold Grammar.Ahead.mayStartType
  rw [hs.kind_eq]
  rcases h with hkind | ⟨n, rest', rfl, -⟩
  · revert hkind
    generalize kindAhead rest 0 = kind
    cases kind <;> intro hkind <;> first | rfl | cases hkind
  · rfl

/-- No modifier stands in front of it. -/
theorem matches_modifiers (h : StartsType rest) (hscan : Scanned ss) :
    Rule.modifiers.Matches ss [] [] rest :=
  Grammar.matches_modifiers hscan h.ne_nil (h.startsModifier ·)

end StartsType

/-! ### Matching -/

variable {ss rest : List Symbol} {t : TypeTree} {x : LegalName}

namespace TypeTree

theorem length_symbols_pos (t : TypeTree) (touches : Bool) : 0 < (t.symbols touches).length := by
  cases t with
  | mk base dims =>
    obtain ⟨y, others, hsymbols, -⟩ := base.symbols_eq (dims == 0 && touches)
    rw [symbols, hsymbols]
    exact Nat.succ_pos _

/-- A type as it is tried before a declaration. -/
theorem matches_modifiedType (hplain : t.StartsPlain) (hscan : Scanned ss) (hne : rest ≠ [])
    (hrest : EndsType rest) : Rule.modifiedType.Matches ss (t.symbols false) [t.tree] rest :=
  .of_production hscan hne fun i s he h => by
    have hstarts := startsType hplain false rest
    refine h.readNone (hstarts.matches_modifiers hscan)
      (he.same h hstarts.ne_nil (by decide)) fun h => ?_
    exact h.readLast (t.matches_type hscan hne hrest) (he.same h hstarts.ne_nil (by decide))

end TypeTree

/-- A type that a name stands behind starts a variable. -/
theorem Grammar.Faces.startsVariable_type {r : Rule} {i : Nat} {parts : List Tree} {s : Stand}
    {β : Type} {f : Bool → Move β} {Q : β → Stand → Prop} (hplain : t.StartsPlain)
    (hscan : Scanned ss) (he : Entered ss (r, i) (t.symbols false ++ (x.symbol :: rest)))
    (hr : Grammar.Probe.modifiedType.rule.rank < r.rank)
    (h : Faces ss parts (t.symbols false ++ (x.symbol :: rest)) s)
    (k : (f true).Gets (.ofSymbols ss) (r, i) Q s) :
    (Grammar.Production.startsVariable >>= f).Gets (.ofSymbols ss) (r, i) Q s := by
  have hstarts := TypeTree.startsType hplain false (x.symbol :: rest)
  have htype : Grammar.Probe.modifiedType.rule.Matches ss (t.symbols false) [t.tree]
      (x.symbol :: rest) := TypeTree.matches_modifiedType hplain hscan (List.cons_ne_nil _ _) rfl
  refine .bind (.ahead (.bind (.ahead ?_)))
  rw [hstarts.mayStartType h]
  refine h.attempt htype (he.same h hstarts.ne_nil hr) (.pure ?_)
  have hname : ((Source.ofSymbols ss).view s).kindAt (t.symbols false).length = .identifier := by
    rw [h.kindAt_eq, kindAhead, List.getElem?_append_right (Nat.le_refl _), Nat.sub_self]
    rfl
  rw [Option.any_some, hname]
  exact .pure k

namespace TypeTree

/-- A name without an initial value. -/
theorem matches_variableDeclarators (hscan : Scanned ss) :
    Rule.variableDeclarators.Matches ss [x.symbol]
      [Phrase.variableDeclarators.over [Phrase.variableDeclarator.over [x.variableTree]]]
      (TokenKind.semi.symbol :: rest) := by
  have hne : TokenKind.semi.symbol :: rest ≠ [] := List.cons_ne_nil _ _
  have hdeclarator : Rule.variableDeclarator.Matches ss [x.symbol]
      [Phrase.variableDeclarator.over [x.variableTree]] (TokenKind.semi.symbol :: rest) :=
    .of_production hscan hne fun i s he h => by
      have hid := Grammar.matches_variableDeclaratorId (n := x) hscan hne rfl
      refine h.read hid (he.same h (List.cons_ne_nil _ _) (by decide)) fun h => ?_
      exact .bind (h.eatNone rfl (.pure (h.closeLast rfl)))
  refine .of_production hscan hne fun i s he h => ?_
  refine .bind (h.read hdeclarator (he.same h (List.cons_ne_nil _ _) (by decide)) fun h => ?_)
  exact .loop (.stop (h.eatNone rfl (.pure ⟨rfl, h.closeLast rfl⟩)))

theorem matches_localVariableDeclaration (hplain : t.StartsPlain) (hscan : Scanned ss) :
    Rule.localVariableDeclaration.Matches ss (t.symbols false ++ [x.symbol])
      [Phrase.localVariableDeclaration.over [t.tree, Phrase.variableDeclarators.over
        [Phrase.variableDeclarator.over [x.variableTree]]]] (TokenKind.semi.symbol :: rest) :=
  .of_production hscan (List.cons_ne_nil _ _) fun i s he h => by
    have hstarts := startsType hplain false (x.symbol :: TokenKind.semi.symbol :: rest)
    have hpos := t.length_symbols_pos false
    rw [List.append_assoc] at he h
    have h : Faces ss [] (t.symbols false ++ (x.symbol :: TokenKind.semi.symbol :: rest)) s := h
    refine h.readNone (hstarts.matches_modifiers hscan)
      (he.same h hstarts.ne_nil (by decide)) fun h => ?_
    have hends : EndsType (x.symbol :: TokenKind.semi.symbol :: rest) := rfl
    have htype := @matches_type ss _ false hscan (List.cons_ne_nil _ _) hends t
    refine h.read htype (he.same h hstarts.ne_nil (by decide)) fun {s'} h => ?_
    have h : Faces ss [t.tree] ([x.symbol] ++ (TokenKind.semi.symbol :: rest)) s' := h
    refine h.read (matches_variableDeclarators hscan) (he.fewer h ?_) fun h => h.closeLast rfl
    rw [List.length_append, List.length_append, List.length_append]
    exact Nat.lt_add_of_pos_left hpos

/-- **The declaration is read as a statement of a block.** -/
theorem matches_variable (hplain : t.StartsPlain) (hscan : Scanned ss) (hne : rest ≠ []) :
    Rule.blockStatement.Matches ss (t.variableSymbols x) [t.variableTree x] rest :=
  .of_production hscan hne fun i s he h => by
    have hassoc : t.variableSymbols x ++ rest =
        t.symbols false ++ (x.symbol :: TokenKind.semi.symbol :: rest) := List.append_assoc ..
    have hstarts := startsType hplain false (x.symbol :: TokenKind.semi.symbol :: rest)
    rw [hassoc] at he h
    refine .ahead ?_
    rw [hstarts.startsYield h, h.isAt_eq, t.isAt_symbols rfl]
    refine .bind (.ahead ?_)
    rw [hstarts.startsTypeDeclaration h, hstarts.startsModifier h]
    refine .pure (h.startsVariable_type hplain hscan he (by decide) ?_)
    have h : Faces ss [] ((t.symbols false ++ [x.symbol]) ++ (TokenKind.semi.symbol :: rest)) s := by
      rwa [List.append_assoc]
    refine h.read (matches_localVariableDeclaration hplain hscan) ?_ fun h => ?_
    · exact he.same (by rwa [List.append_assoc] at h) hstarts.ne_nil (by decide)
    · exact h.expect rfl rfl fun h => h.closeLast rfl

/-- It is read alone as well. -/
theorem matches_statementStart (hplain : t.StartsPlain)
    (hscan : Scanned (t.variableSymbols x ++ [Symbol.final])) :
    Rule.statementStart.Matches (t.variableSymbols x ++ [Symbol.final]) (t.variableSymbols x)
      [Phrase.statementStart.over [t.variableTree x]] [Symbol.final] :=
  .of_production hscan (List.cons_ne_nil _ _) fun i s he h => by
    have hread := matches_variable (x := x) hplain hscan (List.cons_ne_nil Symbol.final [])
    refine h.read hread (he.same h (by simp) (by decide)) fun h => .bind (.isAt ?_)
    rw [h.isAt_eq]
    exact .pure (h.closeLast rfl)

/-! ### Printing -/

/-- The document of a type, in front of a blank. -/
theorem docLexes (t : TypeTree) (spans : Spans) :
    (Doc.nil ++ Doc.concat (t.node spans).docs ++ " ").Lexes .any .any (t.symbols false) := by
  obtain ⟨d, hd, hflat⟩ := t.flat spans
  rw [hd]
  refine .of_flat ((Doc.Flat.nil.append hflat.concat).append (.text " ")) fun {rest ss'} _ h => ?_
  have hends : EndsAngle (' ' :: rest) := .cons rfl (by decide) (by decide) (by decide) rest
  have hlexes := t.lexes hends h.blank
  rw [Lexes.touchesNext_blank] at hlexes
  rwa [List.nil_append, List.append_assoc]

/-- **The document of the declaration lexes to its symbols.** -/
theorem lexes_variable (t : TypeTree) (x : LegalName) (spans : Spans) :
    (Doc.concat (t.variable x spans).docs).Lexes .any .any (t.variableSymbols x) := by
  have hdeclarator := (x.variableLexes (spans [2]) (spans.below 3)).append .nil
  exact (((t.docLexes _).append hdeclarator.concat).concat.append .semi).concat.of_eq (by
    simp [variableSymbols])

/-! ### Reading -/

theorem unplaced_variableTree (t : TypeTree) (x : LegalName) :
    (t.variableTree x).unplaced = t.variableTree x := by
  have hx : x.variableTree.unplaced = x.variableTree := rfl
  simp only [variableTree, Phrase.unplaced_over, List.map_cons, List.map_nil,
    TokenKind.unplaced_leaf, t.unplaced_tree, hx]

/-- The declaration is read as a variable of the type. -/
theorem read_variableTree (hclasses : t.HasClasses) (x : LegalName) :
    (t.variableTree x).read .stmt = .ok (t.variable x .nowhere) := by
  let outer := t.variableTree x
  let inner := Phrase.localVariableDeclaration.over [t.tree, Phrase.variableDeclarators.over
    [Phrase.variableDeclarator.over [x.variableTree]]]
  have houter : outer.opened.span = some noSpan := Tree.span_opened (t.unplaced_variableTree x)
  have htype : inner.opened.readFirst .type .type = .ok (t.node .nowhere) :=
    (Tree.readFirst_opened (by
      change [t.tree, _].find? _ = _
      simp [t.phrase?_tree])).trans (t.read_tree hclasses)
  have hdeclarators : inner.opened.readFirst .variableDeclarators .variableDeclarators =
      .ok (.cons (.variableDeclarator (some noSpan)
        (.variableDeclaratorId (some noSpan) (x.identifier .nowhere) .nil) .absent) .nil) :=
    Tree.readFirst_opened (p := Phrase.variableDeclarators.over
      [Phrase.variableDeclarator.over [x.variableTree]]) (by
      change [t.tree, _].find? _ = _
      simp [t.phrase?_tree])
  have hmodifiers : inner.opened.modifiers = .ok .nil := Tree.modifiers_opened (by
    simp [inner, t.phrase?_tree])
  have hinner : inner.read .localVariables = .ok (.localVariables inner.opened.span .nil
      (t.node .nowhere) (.cons (.variableDeclarator (some noSpan)
        (.variableDeclaratorId (some noSpan) (x.identifier .nowhere) .nil) .absent) .nil)) := by
    rw [Tree.read_eq]
    change inner.opened.localVariables = _
    rw [Opened.localVariables, htype, hdeclarators, hmodifiers]
    rfl
  rw [Tree.read_eq]
  change (do
    let locals ← inner.read .localVariables
    return Node.localVariableStmt (locals.localVariablesAt outer.opened.span)) = _
  rw [hinner, houter]
  rfl

end TypeTree

end JavaSource
