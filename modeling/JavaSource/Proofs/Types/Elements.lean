import JavaSource.Proofs.Parsing
import JavaSource.Proofs.Sameness
import JavaSource.Proofs.Types.Declarations

/-!
# Elements of annotation types

An element `T x()[];` may have dimensions in two places: with its type, and behind its parentheses.
The declaration of an annotation type with one element (`ElementTree`) is parsed to what it means
(`ElementTree.parse_text`).  Dimensions behind the parentheses mean an array of the type in front,
also where that is an array already.  So it matters where they are written, unless all of them
stand in one place (`BaseTree.parse_element_dims`).
-/

namespace JavaSource

open Grammar (Symbol Rule Scanned Faces Entered Entry Stand Move Source kindAhead EndsType)

/-- An annotation type with one element, `@interface A { T x()[]; }`. -/
structure ElementTree where
  /-- The name of the annotation type. -/
  owner : LegalName
  type : TypeTree
  id : LegalName
  /-- How many dimensions stand behind the parentheses. -/
  dims : Nat

namespace ElementTree

variable (t : ElementTree)

/-! ### What it means -/

/-- An array of a type, or the type if there are no dimensions. -/
def arrayOf (ty : TypeNode) : Nat → TypeNode
  | 0        => ty
  | dims + 1 => .arrayType (some noSpan) .nil ty (dimNodes .nowhere (dims + 1))

/-- The node of the element. -/
def element : Decl :=
  .elementDecl (some noSpan) .nil (arrayOf (t.type.node .nowhere) t.dims)
    (t.id.identifier .nowhere) .absent

/-- The node of the annotation type. -/
def node : Decl :=
  .annotationDecl (some noSpan) .nil (t.owner.identifier .nowhere) (.cons t.element .nil)

/-! ### Characters, symbols and phrases -/

/-- The element as it is written. -/
def elementChars : List Char :=
  t.type.chars ++ ' ' :: (t.id.chars ++ '(' :: ')' :: (dimChars t.dims ++ [';']))

/-- The declaration as it is written. -/
def text : String :=
  .ofList ('@' :: ("interface".toList ++ ' ' :: (t.owner.chars ++ ' ' :: '\x7b' :: ' ' ::
    (t.elementChars ++ [' ', '\x7d']))))

/-- The symbols of the element. -/
def elementSymbols : List Symbol :=
  t.type.symbols false ++ (t.id.symbol :: TokenKind.lparen.symbol :: TokenKind.rparen.symbol ::
    (dimSymbols t.dims ++ [TokenKind.semi.symbol]))

/-- The symbols of the body. -/
def bodySymbols : List Symbol :=
  TokenKind.lbrace.symbol :: (t.elementSymbols ++ [TokenKind.rbrace.symbol])

/-- The symbols of the declaration. -/
def symbols : List Symbol :=
  TokenKind.atSign.symbol :: TokenKind.interfaceKw.symbol :: t.owner.symbol :: t.bodySymbols

/-- The parse tree of the element, without its modifiers. -/
def bareTree : Tree :=
  Phrase.annotationMethodDeclaration.over (t.type.tree :: t.id.leaf :: TokenKind.lparen.leaf ::
    TokenKind.rparen.leaf :: (dimTrees t.dims ++ [TokenKind.semi.leaf]))

/-- The parse tree of the body. -/
def bodyTree : Tree :=
  Phrase.classBody.over [TokenKind.lbrace.leaf, Phrase.memberDeclaration.over [t.bareTree],
    TokenKind.rbrace.leaf]

/-- The parse tree of the declaration. -/
def tree : Tree :=
  Phrase.memberDeclaration.over [Phrase.annotationTypeDeclaration.over [TokenKind.atSign.leaf,
    TokenKind.interfaceKw.leaf, t.owner.leaf, t.bodyTree]]

/-! ### Scanning -/

theorem lexes_element {rest : List Char} {ss : List Symbol} (h : Lexes rest ss) :
    Lexes (t.elementChars ++ rest) (t.elementSymbols ++ ss) := by
  have hsemi : Lexes (';' :: rest) (TokenKind.semi.symbol :: ss) := h.single rfl
  have hclose : Lexes (')' :: (dimChars t.dims ++ ';' :: rest)) (TokenKind.rparen.symbol :: _) :=
    (hsemi.dims t.dims).single rfl
  have hopen : Lexes ('(' :: _) (TokenKind.lparen.symbol :: _) := hclose.single rfl
  have hid := hopen.name t.id (.cons rfl (by decide) _)
  have htype := t.type.lexes (.cons rfl (by decide) (by decide) (by decide) _) hid.blank
  rw [Lexes.touchesNext_blank] at htype
  simpa [elementChars, elementSymbols] using htype

/-- **The text of the declaration lexes to its symbols.** -/
theorem lexes : Lexes t.text.toList t.symbols := by
  have hend : Lexes [' ', '\x7d'] [TokenKind.rbrace.symbol] :=
    (Lexes.nil.single rfl).blank
  have hbody : Lexes ('\x7b' :: ' ' :: (t.elementChars ++ [' ', '\x7d'])) t.bodySymbols :=
    (t.lexes_element hend).blank.single rfl
  have hname := hbody.blank.name t.owner (.cons rfl (by decide) _)
  have hword : Lexes ("interface".toList ++ ' ' :: _) (TokenKind.interfaceKw.symbol :: _) :=
    hname.blank.keyword (c := 'i') (w := "nterface".toList) rfl (.cons rfl (by decide) _)
  have hsign : Lexes ('@' :: _) (TokenKind.atSign.symbol :: _) := hword.single rfl
  have htext : t.text.toList = _ := String.toList_ofList
  rw [htext]
  exact hsign

end ElementTree

/-! ### Matching -/

section Matching

variable {ss rest : List Symbol} {t : TypeTree} {x : LegalName} {parts : List Tree} {s : Stand}

/-- What stands behind the first name of a type that a name follows. -/
theorem CoitTrees.kindAhead_one (cs : CoitTrees) (dims : Nat) (touches : Bool) :
    kindAhead (cs.symbols touches ++ dimSymbols dims ++ x.symbol :: rest) 1 ∈
      [TokenKind.lt, .dot, .lbrack, .identifier] := by
  cases cs with
  | last part =>
    cases part with
    | plain name => cases dims <;> exact List.contains_iff_mem.mp rfl
    | generic name args => exact List.contains_iff_mem.mp rfl
  | dot first others => cases first <;> exact List.contains_iff_mem.mp rfl

/-- A member that starts with a type and a name is a field, a method or an element. -/
theorem Grammar.Faces.memberBody {setting : Grammar.Setting} {e : Entry}
    {Q : Unit → Stand → Prop} (hplain : t.StartsPlain) (hsetting : (setting == .outermost) = false)
    (h : Faces ss parts (t.symbols false ++ x.symbol :: rest) s)
    (k : (Grammar.Production.typedMember setting).Gets (.ofSymbols ss) e Q s) :
    (Grammar.Production.memberBody setting).Gets (.ofSymbols ss) e Q s := by
  have hstarts := TypeTree.startsType hplain false (x.symbol :: rest)
  have hno {kind : TokenKind} (hkind : (kind.isPrimitiveType || kind == .identifier) = false) :
      ((Source.ofSymbols ss).view s).isAt kind = false :=
    (h.isAt_eq kind).trans (t.isAt_symbols hkind)
  have hrecord : ((Source.ofSymbols ss).view s).startsRecord = false := by
    rw [Grammar.Ahead.startsRecord, hstarts.isWord_eq h (by decide), Bool.false_and, Bool.false_and]
  refine .ahead ?_
  rw [hno rfl, hno rfl, hno rfl, hno rfl, hrecord, hsetting, h.kind_eq, h.kindAt_eq]
  cases t with
  | mk base dims =>
    cases base with
    | word word => cases word <;> exact k
    | named cs =>
      have hbehind := @CoitTrees.kindAhead_one rest x cs dims (dims == 0 && false)
      have hparen := Grammar.test_of_mem hbehind (· == .lparen) rfl
      have hbrace := Grammar.test_of_mem hbehind (· == .lbrace) rfl
      obtain ⟨name, others, hsymbols⟩ := cs.symbols_eq (dims == 0 && false)
      have hkind : kindAhead (cs.symbols (dims == 0 && false) ++ dimSymbols dims ++
          x.symbol :: rest) 0 = .identifier := by
        rw [hsymbols]
        rfl
      change Move.Gets _ _ (if _ then _ else _) _ _
      rw [TypeTree.symbols, BaseTree.symbols, hkind, hparen, hbrace]
      exact k

/-- What stands behind what a probe has found. -/
theorem Grammar.Faces.at_skip {front : List Symbol} (h : Faces ss parts (front ++ rest) s)
    (n : Nat) :
    (((Source.ofSymbols ss).view s).skip front.length).at_ n = rest[n]?.getD .final := by
  have hat := h.at_eq (front.length + n)
  rw [List.getElem?_append_right (Nat.le_add_right _ _), Nat.add_sub_cancel_left] at hat
  rw [← hat, Grammar.Ahead.at_, Grammar.Ahead.at_, ← Nat.add_assoc]
  rfl

theorem Grammar.Faces.kindAt_skip {front : List Symbol} (h : Faces ss parts (front ++ rest) s)
    (n : Nat) : (((Source.ofSymbols ss).view s).skip front.length).kindAt n = kindAhead rest n := by
  rw [Grammar.Ahead.kindAt, h.at_skip, kindAhead]

variable {t : ElementTree}

/-- What starts with no semicolon, no brace and no `static` is a member of a body. -/
theorem Grammar.matches_member {setting : Grammar.Setting} {front : List Symbol} {tree : Tree}
    (hscan : Scanned ss) (hne : rest ≠ []) (hfront : front ++ rest ≠ [])
    (hsemi : (kindAhead (front ++ rest) 0 == .semi) = false)
    (hbrace : (kindAhead (front ++ rest) 0 == .lbrace) = false)
    (hstatic : (kindAhead (front ++ rest) 0 == .staticKw) = false)
    (hmember : (Rule.memberDeclaration setting).Matches ss front [tree] rest) :
    (Rule.classBodyDeclaration setting).Matches ss front [tree] rest :=
  .of_production hscan hne fun i s he h => .ahead <| by
    rw [h.isAt_eq, h.isAt_eq, h.isAt_eq, hsemi, hbrace, hstatic]
    exact h.readLast hmember (he.same h hfront (Nat.le_of_ble_eq_true rfl))

namespace ElementTree

/-- An element of an annotation type. -/
theorem matches_memberBody (hplain : t.type.StartsPlain) (hscan : Scanned ss) (hne : rest ≠ []) :
    (Rule.memberBody .element).Matches ss t.elementSymbols [t.bareTree] rest :=
  .of_production hscan hne fun i s he h => by
    have hassoc : t.elementSymbols ++ rest = t.type.symbols false ++ (t.id.symbol ::
        TokenKind.lparen.symbol :: TokenKind.rparen.symbol ::
          (dimSymbols t.dims ++ (TokenKind.semi.symbol :: rest))) := by
      simp [elementSymbols]
    rw [hassoc] at he h
    have hstarts := TypeTree.startsType hplain false (t.id.symbol :: TokenKind.lparen.symbol ::
      TokenKind.rparen.symbol :: (dimSymbols t.dims ++ (TokenKind.semi.symbol :: rest)))
    have hends : EndsType (t.id.symbol :: TokenKind.lparen.symbol :: TokenKind.rparen.symbol ::
      (dimSymbols t.dims ++ (TokenKind.semi.symbol :: rest))) := rfl
    have htype := @TypeTree.matches_type ss _ false hscan (List.cons_ne_nil _ _) hends t.type
    have hallows := he.same h hstarts.ne_nil (r := .type) (by decide)
    refine h.memberBody hplain rfl (.ahead (h.attempt htype hallows ?_))
    -- The name and the parentheses behind the type tell it from a field.
    have hkind : (((Source.ofSymbols ss).view s).skip (t.type.symbols false).length).kind =
      .identifier := h.kindAt_skip 0
    have hopen : (((Source.ofSymbols ss).view s).skip (t.type.symbols false).length).kindAt 1 =
      .lparen := h.kindAt_skip 1
    have hclose : (((Source.ofSymbols ss).view s).skip (t.type.symbols false).length).kindAt 2 =
      .rparen := h.kindAt_skip 2
    dsimp only
    rw [hkind, hopen, hclose]
    refine h.read htype hallows fun {s'} h => ?_
    have h : Faces ss [t.type.tree] (t.id.symbol :: TokenKind.lparen.symbol ::
      TokenKind.rparen.symbol :: (dimSymbols t.dims ++ (TokenKind.semi.symbol :: rest))) s' := h
    refine h.expect rfl rfl fun h => h.expect rfl rfl fun h => h.expect rfl rfl fun h => ?_
    have hsemi : EndsType (TokenKind.semi.symbol :: rest) := rfl
    have hdims := h.dims hscan he (List.cons_ne_nil _ _) hsemi t.dims (by grind)
    refine .bind (hdims.mono fun _ _ h => .bind (h.eatNone rfl (.pure ?_)))
    exact h.expect rfl rfl fun h => h.closeLast (by
      simp [TokenKind.leaf, LegalName.leaf])

/-- What it starts with is no modifier, no block and no semicolon. -/
theorem startsType (hplain : t.type.StartsPlain) (rest : List Symbol) :
    StartsType (t.elementSymbols ++ rest) := by
  rw [elementSymbols, List.append_assoc]
  exact TypeTree.startsType hplain false _

theorem length_elementSymbols_pos (t : ElementTree) : 0 < t.elementSymbols.length := by
  rw [elementSymbols, List.length_append]
  exact Nat.add_pos_left (t.type.length_symbols_pos false) _

theorem isAt_symbols (t : ElementTree) (rest : List Symbol) {kind : TokenKind}
    (hkind : (kind.isPrimitiveType || kind == .identifier) = false) :
    (kindAhead (t.elementSymbols ++ rest) 0 == kind) = false := by
  rw [elementSymbols, List.append_assoc]
  exact t.type.isAt_symbols hkind

/-- Modifiers, none, and the element. -/
theorem matches_memberDeclaration (hplain : t.type.StartsPlain) (hscan : Scanned ss)
    (hne : rest ≠ []) : (Rule.memberDeclaration .element).Matches ss t.elementSymbols
      [Phrase.memberDeclaration.over [t.bareTree]] rest :=
  .of_production hscan hne fun i s he h => by
    have hstarts := startsType hplain rest
    refine h.readNone (hstarts.matches_modifiers hscan)
      (he.same h hstarts.ne_nil (by decide)) fun h => ?_
    exact h.read (matches_memberBody hplain hscan hne) (he.same h hstarts.ne_nil (by decide))
      fun h => h.closeLast rfl

/-- A part of the body. -/
theorem matches_classBodyDeclaration (hplain : t.type.StartsPlain) (hscan : Scanned ss)
    (hne : rest ≠ []) : (Rule.classBodyDeclaration .element).Matches ss t.elementSymbols
      [Phrase.memberDeclaration.over [t.bareTree]] rest :=
  Grammar.matches_member hscan hne (startsType hplain rest).ne_nil (t.isAt_symbols rest rfl)
    (t.isAt_symbols rest rfl) (t.isAt_symbols rest rfl)
    (matches_memberDeclaration hplain hscan hne)

/-- The body. -/
theorem matches_classBody (hplain : t.type.StartsPlain) (hscan : Scanned ss) (hne : rest ≠ []) :
    (Rule.classBody .element).Matches ss t.bodySymbols [t.bodyTree] rest :=
  .of_production hscan hne fun i s he h => by
    have hassoc : t.bodySymbols ++ rest = TokenKind.lbrace.symbol ::
        (t.elementSymbols ++ (TokenKind.rbrace.symbol :: rest)) := by simp [bodySymbols]
    rw [hassoc] at he h
    have hbrace : TokenKind.rbrace.symbol :: rest ≠ [] := List.cons_ne_nil _ _
    refine .nest (h.expect rfl rfl fun {s'} h => .loopThen (.go (.ahead ?_)))
    have hbody : Grammar.Production.isInBody ((Source.ofSymbols ss).view s') = true := by
      rw [Grammar.Production.isInBody, h.isAt_eq, t.isAt_symbols _ rfl, h.isAt_eq,
        t.isAt_symbols _ rfl]
      rfl
    rw [hbody]
    refine h.read (matches_classBodyDeclaration hplain hscan hbrace)
      (he.fewer h (Nat.lt_succ_self _)) fun {s''} h' => .pure ⟨rfl, ?_, .stop (.ahead ?_)⟩
    · have hpos := t.length_elementSymbols_pos
      exact h.read_lt_read h' (by grind)
    · have hend : Grammar.Production.isInBody ((Source.ofSymbols ss).view s'') = false := by
        rw [Grammar.Production.isInBody, h'.isAt_eq]
        rfl
      rw [hend]
      exact .pure ⟨rfl, h'.expect rfl rfl fun h => h.closeLast rfl⟩

/-- The annotation type. -/
theorem matches_memberBody_alone (hplain : t.type.StartsPlain) (hscan : Scanned ss)
    (hne : rest ≠ []) : (Rule.memberBody .alone).Matches ss t.symbols
      [Phrase.annotationTypeDeclaration.over [TokenKind.atSign.leaf, TokenKind.interfaceKw.leaf,
        t.owner.leaf, t.bodyTree]] rest :=
  .of_production hscan hne fun i s he h => by
    have hassoc : t.symbols ++ rest = TokenKind.atSign.symbol :: TokenKind.interfaceKw.symbol ::
        t.owner.symbol :: (t.bodySymbols ++ rest) := by simp [symbols]
    rw [hassoc] at he h
    refine .ahead ?_
    rw [h.isAt_eq, h.isAt_eq, h.isAt_eq, h.isAt_eq, h.kindAt_eq]
    refine h.expect rfl rfl fun h => h.expect rfl rfl fun h => h.expect rfl rfl fun h => ?_
    refine h.read (matches_classBody hplain hscan hne) (he.fewer h (by grind)) fun h => ?_
    exact h.closeLast rfl

/-- No modifier and no annotation starts with it. -/
theorem unannotated (h : Faces ss parts (t.symbols ++ rest) s) :
    Grammar.Ahead.startsAnnotation ((Source.ofSymbols ss).view s) = false := by
  rw [Grammar.Ahead.startsAnnotation, h.isAt_eq, h.kindAt_eq]
  rfl

theorem startsModifier (h : Faces ss parts (t.symbols ++ rest) s) :
    ((Source.ofSymbols ss).view s).startsModifier = false := by
  rw [Grammar.Ahead.startsModifier, unannotated h, Grammar.Ahead.isAtModifierWord, h.kind_eq,
    Grammar.Ahead.isSealed, Grammar.Ahead.isAtWord, h.at_eq]
  rfl

theorem isAtModule (h : Faces ss parts (t.symbols ++ rest) s) :
    Grammar.Production.isAtModule ((Source.ofSymbols ss).view s) = false := by
  rw [Grammar.Production.isAtModule, h.at_eq]
  rfl

/-- Modifiers, none, and the annotation type. -/
theorem matches_memberDeclaration_alone (hplain : t.type.StartsPlain) (hscan : Scanned ss)
    (hne : rest ≠ []) : (Rule.memberDeclaration .alone).Matches ss t.symbols [t.tree] rest :=
  .of_production hscan hne fun i s he h => by
    have hcons : t.symbols ++ rest ≠ [] := List.cons_ne_nil _ _
    refine h.readNone (Grammar.matches_modifiers hscan hcons startsModifier)
      (he.same h hcons (by decide)) fun h => ?_
    exact h.read (matches_memberBody_alone hplain hscan hne) (he.same h hcons (by decide))
      fun h => h.closeLast rfl

theorem matches_classBodyDeclaration_alone (hplain : t.type.StartsPlain) (hscan : Scanned ss)
    (hne : rest ≠ []) : (Rule.classBodyDeclaration .alone).Matches ss t.symbols [t.tree] rest :=
  Grammar.matches_member hscan hne (List.cons_ne_nil _ _) rfl rfl rfl
    (matches_memberDeclaration_alone hplain hscan hne)

/-- No annotations are read in front of it. -/
theorem matches_annotations (hscan : Scanned ss) :
    Rule.annotations.Matches ss [] [] (t.symbols ++ rest) :=
  .of_production hscan (List.cons_ne_nil _ _) fun i s he h => by
    refine .loop (.stop (.ahead ?_))
    rw [unannotated h]
    exact .pure ⟨rfl, h⟩

/-- **The declaration is read alone.** -/
theorem matches_declarationStart (hplain : t.type.StartsPlain)
    (hscan : Scanned (t.symbols ++ [Symbol.final])) :
    Rule.declarationStart.Matches (t.symbols ++ [Symbol.final]) t.symbols
      [Phrase.declarationStart.over [t.tree]] [Symbol.final] :=
  .of_production hscan (List.cons_ne_nil _ _) fun i s he h => by
    have hcons : t.symbols ++ [Symbol.final] ≠ [] := List.cons_ne_nil _ _
    -- `@` may start the annotations of a package or of a module, but not in front of `interface`.
    refine .bind (.bind (.ahead ?_))
    rw [h.isAt_eq, unannotated h]
    refine .pure (.isAt ?_)
    rw [h.isAt_eq]
    refine .bind (.ahead ?_)
    rw [h.isAt_eq]
    have h' : Faces (t.symbols ++ [Symbol.final]) [] ([] ++ (t.symbols ++ [Symbol.final])) s := h
    refine h'.attempt (matches_annotations hscan) (he.same h hcons (by decide)) (.pure ?_)
    change Move.Gets _ _ (if Grammar.Production.isAtModule ((Source.ofSymbols
      (t.symbols ++ [Symbol.final])).view s) = true then _ else _) _ _
    rw [isAtModule h]
    have hread := matches_classBodyDeclaration_alone hplain hscan (List.cons_ne_nil Symbol.final [])
    refine (h.readLast hread (he.same h hcons (by decide))).mono fun _ s' h => .bind (.isAt ?_)
    rw [h.isAt_eq]
    exact .pure (h.closeLast rfl)

end ElementTree

end Matching

/-! ### Reading -/

/-- A member without modifiers. -/
theorem Tree.read_member {kind : Phrase} {ts : List Tree} {d : Decl}
    (hkind : (kind == .modifiers) = false) (hunplaced : (kind.over ts).unplaced = kind.over ts)
    (hread : (kind.over ts).read .member = .ok d) :
    (Phrase.memberDeclaration.over [kind.over ts]).read .decl = .ok (d.declAt (some noSpan)) := by
  let outer := Phrase.memberDeclaration.over [kind.over ts]
  have houter : outer.opened.span = some noSpan := Tree.span_opened (by
    rw [Phrase.unplaced_over, List.map_cons, List.map_nil, hunplaced])
  have hinner : outer.opened.phrasesBut .modifiers = [Part.ofTree (kind.over ts)] := by
    rw [Tree.phrasesBut_opened]
    change (List.filter _ [kind.over ts]).map _ = _
    rw [List.filter_cons_of_pos]
    · rfl
    · exact congrArg (!·) hkind
  have hmodifiers : outer.opened.modifiers = .ok .nil :=
    Tree.modifiers_opened (List.forall_mem_singleton.mpr hkind)
  rw [Tree.read_eq]
  change outer.opened.memberDecl = _
  rw [Opened.memberDecl, hinner, hmodifiers, houter]
  change (do
    let decl ← (kind.over ts).read .member
    return decl.declAt (some noSpan)) = _
  rw [hread]
  rfl

namespace ElementTree

variable {t : ElementTree}

theorem unplaced_bareTree : t.bareTree.unplaced = t.bareTree := by
  simp only [bareTree, Phrase.unplaced_over, List.map_cons, List.map_append, List.map_nil,
    TokenKind.unplaced_leaf, LegalName.unplaced_leaf, t.type.unplaced_tree, unplaced_dimTrees]

theorem unplaced_tree : t.tree.unplaced = t.tree := by
  simp only [tree, bodyTree, Phrase.unplaced_over, List.map_cons, List.map_nil,
    TokenKind.unplaced_leaf, LegalName.unplaced_leaf, unplaced_bareTree]

theorem typeAnnotations_arrayOf (type : TypeTree) (dims : Nat) :
    (arrayOf (type.node .nowhere) dims).typeAnnotations = .nil := by
  cases dims with
  | zero =>
    cases type with
    | mk base front => cases front <;> cases base <;> rfl
  | succ dims => rfl

theorem span_node (type : TypeTree) : (type.node .nowhere).span = some noSpan := by
  cases type with
  | mk base dims => cases dims <;> cases base <;> rfl

theorem checked_arrayType (type : TypeTree) (dims : Nat) :
    (Node.arrayType (type.node .nowhere).span .nil (type.node .nowhere)
      (dimNodes .nowhere (dims + 1))).checked = .ok (arrayOf (type.node .nowhere) (dims + 1)) := by
  rw [span_node]
  rfl

theorem check_element (type : TypeTree) (dims : Nat) (id : LegalName) :
    (Node.elementDecl none .nil (arrayOf (type.node .nowhere) dims)
      (id.identifier .nowhere) .absent).check = .ok () := by
  have hflaw : Node.flaw? (.elementDecl none .nil (arrayOf (type.node .nowhere) dims)
      (id.identifier .nowhere) .absent) = none :=
    if_pos (by rw [typeAnnotations_arrayOf]; rfl)
  rw [Node.check, hflaw]

/-- The dimensions of an element are those behind its parentheses. -/
theorem dims_opened (t : ElementTree) :
    t.bareTree.opened.dims = .ok (dimNodes .nowhere t.dims) := by
  obtain ⟨nodes, hread, hnodes⟩ := read_dimTrees t.dims
  have htype : (t.type.tree.phrase? == some .dim) = false := by
    rw [t.type.phrase?_tree]
    rfl
  have hfilter : t.bareTree.parts.filter (·.phrase? == some .dim) =
      (dimTrees t.dims).filter (·.phrase? == some .dim) := by
    change (t.type.tree :: t.id.leaf :: TokenKind.lparen.leaf :: TokenKind.rparen.leaf ::
      (dimTrees t.dims ++ [TokenKind.semi.leaf])).filter _ = _
    simp [htype]
  rw [Opened.dims, Tree.readAll_opened, hfilter, hread, ← hnodes]
  rfl

/-- **Dimensions behind the parentheses are read as an array of the type in front.** -/
theorem read_bareTree (hclasses : t.type.HasClasses) : t.bareTree.read .member = .ok t.element := by
  let outer := t.bareTree
  have hspan : outer.opened.span = some noSpan := Tree.span_opened unplaced_bareTree
  have htype : outer.opened.readFirst .type .type = .ok (t.type.node .nowhere) :=
    (Tree.readFirst_opened (by
      change (t.type.tree :: _).find? _ = _
      simp [t.type.phrase?_tree])).trans (t.type.read_tree hclasses)
  have hdims : outer.opened.dims = .ok (dimNodes .nowhere t.dims) := t.dims_opened
  have hid : outer.opened.identifier = .ok (t.id.identifier .nowhere) := by
    cases t with
    | mk annotation type id dims => cases type with
      | mk base front => rfl
  have hvalue : outer.opened.readFirst? .elementValue .elementValue = .ok .absent := by
    have hnone : outer.parts.find? (·.phrase? == some .elementValue) = none := by
      change (t.type.tree :: t.id.leaf :: TokenKind.lparen.leaf :: TokenKind.rparen.leaf ::
        (dimTrees t.dims ++ [TokenKind.semi.leaf])).find? _ = _
      simp [t.type.phrase?_tree]
      intro p hp
      simp [phrase?_dimTrees _ p hp]
    rw [Opened.readFirst?, Tree.first?_opened, hnone]
    rfl
  rw [Tree.read_eq]
  change outer.opened.elementDecl = _
  rw [Opened.elementDecl, htype, hdims, hid, hvalue, hspan]
  obtain ⟨owner, type, id, dims⟩ := t
  cases dims with
  | zero =>
    change ((Node.elementDecl none .nil (arrayOf (type.node .nowhere) 0)
      (id.identifier .nowhere) .absent).check >>= fun _ => _) = _
    rw [check_element]
    rfl
  | succ dims =>
    change ((Node.arrayType (type.node .nowhere).span .nil (type.node .nowhere)
      (dimNodes .nowhere (dims + 1))).checked >>= fun ty =>
        (Node.elementDecl none .nil ty (id.identifier .nowhere) .absent).check >>= fun _ =>
          .ok (Node.elementDecl (some noSpan) .nil ty (id.identifier .nowhere) .absent)) = _
    rw [checked_arrayType]
    change ((Node.elementDecl none .nil (arrayOf (type.node .nowhere) (dims + 1))
      (id.identifier .nowhere) .absent).check >>= fun _ => _) = _
    rw [check_element]
    rfl

/-- The body is read as the element. -/
theorem read_bodyTree (hclasses : t.type.HasClasses) :
    t.bodyTree.read .decls = .ok (.cons t.element .nil) := by
  have hmember : (Phrase.memberDeclaration.over [t.bareTree]).read .decl = .ok t.element :=
    Tree.read_member rfl unplaced_bareTree (read_bareTree hclasses)
  rw [Tree.read_eq]
  change Part.readAll .decl t.bodyTree.opened.phrases = _
  rw [Tree.readAll_phrases]
  change Node.ofList <$> [Phrase.memberDeclaration.over [t.bareTree]].mapM _ = _
  rw [List.mapM_cons, hmember]
  rfl

/-- **The parse tree of the declaration is read as its node.** -/
theorem read_tree (hclasses : t.type.HasClasses) : t.tree.read .decl = .ok t.node := by
  let inner := Phrase.annotationTypeDeclaration.over [TokenKind.atSign.leaf,
    TokenKind.interfaceKw.leaf, t.owner.leaf, t.bodyTree]
  have hunplaced : inner.unplaced = inner := by
    simp only [inner, bodyTree, Phrase.unplaced_over, List.map_cons, List.map_nil,
      TokenKind.unplaced_leaf, LegalName.unplaced_leaf, unplaced_bareTree]
  have hspan : inner.opened.span = some noSpan := Tree.span_opened hunplaced
  have hid : inner.opened.identifier = .ok (t.owner.identifier .nowhere) := rfl
  have hbody : inner.opened.classBody = .ok (.cons t.element .nil) :=
    (Tree.readFirst_opened rfl).trans (read_bodyTree hclasses)
  have hmember : inner.read .member = .ok t.node := by
    rw [Tree.read_eq]
    change inner.opened.annotationDecl = _
    rw [Opened.annotationDecl, hid, hbody, hspan]
    rfl
  exact Tree.read_member rfl hunplaced hmember

theorem readWhole_over (hclasses : t.type.HasClasses) :
    (Phrase.declarationStart.over [t.tree]).readWhole = .ok ⟨.decl, t.node⟩ := by
  change (Phrase.declarationStart.over [t.tree]).readOnly Tree.readDeclared = _
  rw [Tree.readOnly]
  change t.tree.readAny .decl = _
  rw [Tree.readAny, read_tree hclasses]
  rfl

/-! ### Parsing -/

/-- **The declaration is parsed to what it means.** -/
theorem parse_text (t : ElementTree) (hclasses : t.type.HasClasses)
    (hplain : t.type.StartsPlain) {limit : Nat}
    (hlimit : (parseTreeWithin .decl limit t.text).isOk) :
    ∃ d, parse .decl limit t.text = .ok d ∧ d.Alike ⟨.decl, t.node⟩ := by
  have htakes : Mode.decl.start.Takes _ 0 _ _ :=
    matches_declarationStart hplain t.lexes.scanned 0 rfl
  have hunplaced : (Phrase.declarationStart.over [t.tree]).unplaced =
      Phrase.declarationStart.over [t.tree] := by
    rw [Phrase.unplaced_over, List.map_cons, unplaced_tree, List.map_nil]
  rw [← hunplaced] at htakes
  exact parse_of_takes t.lexes htakes (readWhole_over hclasses) hlimit

end ElementTree

/-! ### Where dimensions are written -/

/-- An element whose type has some dimensions in front of the name, and some behind. -/
def BaseTree.element (base : BaseTree) (owner id : LegalName) (front behind : Nat) :
    ElementTree := ⟨owner, .mk base front, id, behind⟩

namespace BaseTree

variable {base : BaseTree} (owner id : LegalName) (front behind : Nat)

/-- What has no dimensions is no array. -/
theorem kindName_node (base : BaseTree) (spans : Spans) :
    (base.node spans).kindName ≠ "ArrayType" := by
  cases base with
  | word word => cases word <;> exact beq_eq_false_iff_ne.mp rfl
  | named parts => exact beq_eq_false_iff_ne.mp rfl

/-- All in one place, they mean the same there and in front. -/
theorem node_of_onePlace (h : front = 0 ∨ behind = 0) :
    (base.element owner id front behind).node =
      (base.element owner id (front + behind) 0).node := by
  rcases h with rfl | rfl
  · rw [Nat.zero_add]
    cases behind <;> rfl
  · rfl

/-- In two places, they mean an array of arrays. -/
theorem not_same_of_twoPlaces (hfront : front ≠ 0) (hbehind : behind ≠ 0) :
    AnyNode.same ⟨.decl, (base.element owner id front behind).node⟩
      ⟨.decl, (base.element owner id (front + behind) 0).node⟩ ≠ true := by
  obtain ⟨front, rfl⟩ := Nat.exists_eq_succ_of_ne_zero hfront
  obtain ⟨behind, rfl⟩ := Nat.exists_eq_succ_of_ne_zero hbehind
  intro hsame
  -- From the declaration to its element, to the type, and to what that is an array of.
  obtain ⟨hdecl, -⟩ := View.sameViews_cons.mp hsame
  obtain ⟨-, -, -, hparts⟩ := View.same_iff.mp hdecl
  obtain ⟨-, hbody⟩ := View.sameViews_cons.mp hparts
  obtain ⟨helement, -⟩ := View.sameViews_cons.mp hbody
  obtain ⟨-, -, -, hparts⟩ := View.same_iff.mp helement
  obtain ⟨htype, -⟩ := View.sameViews_cons.mp hparts
  obtain ⟨-, -, -, hparts⟩ := View.same_iff.mp htype
  cases base with
  | word word =>
    obtain ⟨helem, -⟩ := View.sameViews_cons.mp hparts
    obtain ⟨-, hkind, -⟩ := View.same_iff.mp helem
    exact kindName_node (.word word) _ hkind.symm
  | named cs =>
    obtain ⟨helem, -⟩ := View.sameViews_cons.mp hparts
    obtain ⟨-, hkind, -⟩ := View.same_iff.mp helem
    exact kindName_node (.named cs) _ hkind.symm

/-- **It matters where dimensions are written, unless all of them are in one place.**  Both
declarations are parsed: the one with some dimensions in front of the name and some behind the
parentheses, and the one with all of them in front.  They are the same just if no dimensions stand
in front or none behind; else the first one has an array of arrays. -/
theorem parse_element_dims (hclasses : base.HasClasses) (hplain : base.StartsPlain)
    {limit limit' : Nat}
    (hlimit : (parseTreeWithin .decl limit (base.element owner id front behind).text).isOk)
    (hlimit' : (parseTreeWithin .decl limit'
      (base.element owner id (front + behind) 0).text).isOk) :
    ∃ d d', parse .decl limit (base.element owner id front behind).text = .ok d ∧
      parse .decl limit' (base.element owner id (front + behind) 0).text = .ok d' ∧
      (d.same d' = true ↔ front = 0 ∨ behind = 0) := by
  obtain ⟨d, hparse, hd⟩ :=
    (base.element owner id front behind).parse_text hclasses hplain hlimit
  obtain ⟨d', hparse', hd'⟩ :=
    (base.element owner id (front + behind) 0).parse_text hclasses hplain hlimit'
  refine ⟨d, d', hparse, hparse', ?_⟩
  rw [AnyNode.same_congr hd.same hd'.same]
  constructor
  · intro hsame
    by_contra hno
    obtain ⟨hfront, hbehind⟩ := not_or.mp hno
    exact not_same_of_twoPlaces owner id front behind hfront hbehind hsame
  · intro hplace
    rw [node_of_onePlace owner id front behind hplace]
    exact AnyNode.same_trans (AnyNode.same_symm hd'.same) hd'.same

/-- `int[] value()[]` has another type than `int[][] value()`. -/
theorem parse_element_dims_value :
    ∃ d d', parse .decl 30 "@interface A \x7b int[] value()[]; \x7d" = .ok d ∧
      parse .decl 30 "@interface A \x7b int[][] value(); \x7d" = .ok d' ∧ d.same d' = false := by
  let owner : LegalName := .letter 'A' rfl (by decide)
  let id : LegalName :=
    ⟨'v', ['a', 'l', 'u', 'e'], rfl, List.all_eq_true.mp (by decide), by decide⟩
  obtain ⟨d, d', hparse, hparse', hsame⟩ := @parse_element_dims (.word .int) owner id 1 1
    trivial trivial 30 30 (by decide +kernel) (by decide +kernel)
  refine ⟨d, d', hparse, hparse', Bool.eq_false_iff.mpr fun h => ?_⟩
  rcases hsame.mp h with hfront | hbehind
  · cases hfront
  · cases hbehind

end BaseTree

end JavaSource
