import JavaSource.Proofs.Operators
import JavaSource.Proofs.Positions.Values
import JavaSource.Proofs.Positions.Written
import JavaSource.Proofs.Reading.Readable
import JavaSource.Proofs.Sameness
import JavaSource.Proofs.Types.Elements

/-!
# Values of annotations

A class with an annotation that has one element, as in `@A(e) class B {}`.  The value of the element
is an expression, or an array of one, and the element has a name or none (`ElementPlace`).  What is
taken as a conditional is read there (`ElementPlace.parse_node`).
-/

namespace JavaSource

open Grammar (Symbol Rule Scanned Ends Faces Entered Entry Stand Move Source kindAhead HeadsValue)

/-- Where an expression stands in the annotation of a class. -/
structure ElementPlace where
  /-- The name of the annotation. -/
  annotation : LegalName
  /-- The name of the element, if it has one. -/
  id? : Option LegalName
  /-- Whether the value is an array. -/
  isListed : Bool
  /-- The name of the class. -/
  owner : LegalName

namespace ElementPlace

variable (p : ElementPlace)

/-! ### Nodes -/

/-- The value of the element. -/
def value (e : Expr) : Node .elementValue :=
  if p.isListed then .elementValueArray none (.cons (.exprValue e) .nil) else .exprValue e

/-- The element. -/
def element (e : Expr) : Node .annotationElement :=
  match p.id? with
  | some id => .elementValuePair none (.identifier none id.text) (p.value e)
  | none    => .valueElement (p.value e)

/-- The annotation. -/
def use (e : Expr) : Node .annotationUse :=
  .annotationUse none (.qualifiedName none (.cons (.identifier none p.annotation.text) .nil))
    (.cons (p.element e) .nil)

/-- The class. -/
def node (e : Expr) : Decl :=
  .classDecl none (.cons (.annotationModifier (p.use e)) .nil) (.identifier none p.owner.text)
    .absent .absent .nil .nil .nil

/-! ### Symbols and phrases -/

/-- The symbols of the value. -/
def valueSymbols (ss : List Symbol) : List Symbol :=
  if p.isListed then TokenKind.lbrace.symbol :: (ss ++ [TokenKind.rbrace.symbol]) else ss

/-- The symbols of the element. -/
def elementSymbols (ss : List Symbol) : List Symbol :=
  match p.id? with
  | some id => id.symbol :: TokenKind.assign.symbol :: p.valueSymbols ss
  | none    => p.valueSymbols ss

/-- The symbols of the annotation. -/
def useSymbols (ss : List Symbol) : List Symbol :=
  TokenKind.atSign.symbol :: p.annotation.symbol :: TokenKind.lparen.symbol ::
    (p.elementSymbols ss ++ [TokenKind.rparen.symbol])

/-- The symbols of the class behind the annotation. -/
def bareSymbols : List Symbol :=
  [TokenKind.classKw.symbol, p.owner.symbol, TokenKind.lbrace.symbol, TokenKind.rbrace.symbol]

/-- The symbols of the class. -/
def symbols (ss : List Symbol) : List Symbol := p.useSymbols ss ++ p.bareSymbols

/-- The parse tree of the value. -/
def valueTree (t : Tree) : Tree :=
  Phrase.elementValue.over [if p.isListed then Phrase.elementValueArrayInitializer.over
    [TokenKind.lbrace.leaf, Phrase.elementValue.over [t], TokenKind.rbrace.leaf] else t]

/-- The parse tree of the element. -/
def elementTree (t : Tree) : Tree :=
  match p.id? with
  | some id => Phrase.elementValuePair.over [id.leaf, TokenKind.assign.leaf, p.valueTree t]
  | none    => p.valueTree t

/-- The parse tree of the annotation. -/
def useTree (t : Tree) : Tree :=
  Phrase.annotationUse.over [TokenKind.atSign.leaf,
    Phrase.qualifiedName.over [p.annotation.leaf], TokenKind.lparen.leaf, p.elementTree t,
    TokenKind.rparen.leaf]

/-- The parse tree of the class behind the annotation. -/
def bareTree : Tree :=
  Phrase.classDeclaration.over [TokenKind.classKw.leaf, p.owner.leaf,
    Phrase.classBody.over [TokenKind.lbrace.leaf, TokenKind.rbrace.leaf]]

/-- The parse tree of the class. -/
def tree (t : Tree) : Tree :=
  Phrase.memberDeclaration.over [Phrase.modifiers.over [p.useTree t], p.bareTree]

end ElementPlace

/-! ### Printing -/

section Printing

variable {e : Expr} {ss : List Symbol} {indent depth : Nat} {p : ElementPlace}
  (hwritten : (Doc.concat e.docs).LexesAt indent depth (Edge.any.Holds ·) (StartsOff ss) ss)

namespace Doc.Lexes

variable {q r : Edge}

theorem lparen : (Doc.text "(").Lexes q .any [TokenKind.lparen.symbol] :=
  .text rfl rfl fun _ h => h.single rfl

theorem spacedAssign : (Doc.text " = ").Lexes q .any [TokenKind.assign.symbol] :=
  .text rfl rfl fun {rest ss'} _ h => by
    have hassign : JavaSource.Lexes ('=' :: ' ' :: rest) (TokenKind.assign.symbol :: ss') :=
      h.blank.sign rfl (by decide) rfl rfl (by decide) (by decide)
    exact hassign.blank

theorem atSign : (Doc.text "@").Lexes .any .any [TokenKind.atSign.symbol] :=
  .words fun _ h => h.single rfl

theorem classHead : (Doc.text "class ").Lexes .any .any [TokenKind.classKw.symbol] :=
  .words fun _ h => h.blank.keyword (c := 'c') (w := "lass".toList) rfl (.cons rfl (by decide) _)

end Doc.Lexes

/-- The document of an empty class with an annotation. -/
theorem Node.docs_annotated (use : Node .annotationUse) (id : Node .identifier) :
    Node.docs (.classDecl none (.cons (.annotationModifier use) .nil) id .absent .absent .nil .nil
      .nil) = [Doc.concat [Doc.concat use.docs ++ Doc.text " "] ++ "class " ++ Doc.concat id.docs ++
        Doc.nil ++ Doc.nil ++ Doc.nil ++ Doc.nil ++ " " ++ Doc.braces []] := rfl

namespace ElementPlace

include hwritten

/-- The document of the value. -/
theorem lexes_value : (Doc.concat (p.value e).docs).LexesAt indent depth (Edge.any.Holds ·)
    (·.head? = some ')') (p.valueSymbols ss) := by
  rw [value, valueSymbols]
  cases p.isListed with
  | false => exact hwritten.behind_mono fun rest hrest => ⟨_, hrest, ⟨by decide, nofun⟩⟩
  | true =>
    have hclose : (Doc.text "\x7d").LexesAt indent depth (StartsOff ss) (Edge.any.Holds ·)
        [TokenKind.rbrace.symbol] :=
      .text rfl (.cons ⟨by decide, nofun⟩) fun _ h => h.single rfl
    have hlist := ((Doc.Lexes.lbrace (p := .any)).here.append hwritten).append hclose
    exact hlist.concat.behind_mono fun _ _ => trivial

/-- The document of the element. -/
theorem lexes_element : (Doc.concat (p.element e).docs).LexesAt indent depth (Edge.any.Holds ·)
    (·.head? = some ')') (p.elementSymbols ss) := by
  have hvalue := lexes_value (p := p) hwritten
  rw [element, elementSymbols]
  cases p.id? with
  | none => exact hvalue
  | some id =>
    have hid : (Doc.text id.text).Lexes .any .word [id.symbol] := id.docLexes
    have hname := hid.concat.append .spacedAssign
    exact (hname.here.append hvalue).concat

/-- The document of the annotation. -/
theorem lexes_use : (Doc.concat (p.use e).docs).LexesAt indent depth (Edge.any.Holds ·)
    (Edge.any.Holds ·) (p.useSymbols ss) := by
  have hname : (Doc.concat [Doc.text p.annotation.text]).Lexes .any .word _ :=
    p.annotation.docLexes.concat
  have hclose : (Doc.text ")").LexesAt indent depth (·.head? = some ')') (Edge.any.Holds ·)
      [TokenKind.rparen.symbol] :=
    .text rfl (fun _ => rfl) fun _ h => h.single rfl
  have helements := ((Doc.Lexes.lparen (q := .word)).here.append
    (lexes_element (p := p) hwritten)).append hclose
  have hhead := Doc.Lexes.atSign.append hname.concat
  exact (hhead.here.append helements).concat.of_eq (by simp [useSymbols])

/-- **The document of the class lexes to its symbols.** -/
theorem lexes_node : (Doc.concat (p.node e).docs).LexesAt indent depth (Edge.any.Holds ·)
    (Edge.any.Holds ·) (p.symbols ss) := by
  have huse := ((lexes_use (p := p) hwritten).append Doc.Lexes.blank.here).concat
  have howner : (Doc.concat [Doc.text p.owner.text]).Lexes .any .word _ := p.owner.docLexes.concat
  have hhead := (((((huse.append Doc.Lexes.classHead.here).append howner.here).append .nil).append
    .nil).append .nil).append .nil
  have hbody := (hhead.append Doc.Lexes.blank.here).append Doc.Lexes.emptyBraces.here
  rw [node, Node.docs_annotated]
  exact hbody.concat.of_eq (by simp [symbols, bareSymbols])

end ElementPlace

end Printing

/-! ### Matching -/

section Matching

variable {ss source rest : List Symbol} {t : Tree} {p : ElementPlace}

namespace ElementPlace

variable {parts : List Tree} {s : Stand}

theorem length_lt (rest : List Symbol) : rest.length < (p.useSymbols ss ++ rest).length := by
  simp only [useSymbols, List.length_append, List.length_cons]
  omega

/-- The annotation stands at the start. -/
theorem annotated (h : Faces source parts (p.useSymbols ss ++ rest) s) :
    Grammar.Ahead.startsAnnotation ((Source.ofSymbols source).view s) = true := by
  rw [Grammar.Ahead.startsAnnotation, h.isAt_eq, h.kindAt_eq]
  rfl

/-- Neither another one nor a modifier stands behind it. -/
theorem unannotated (h : Faces source parts (p.bareSymbols ++ rest) s) :
    Grammar.Ahead.startsAnnotation ((Source.ofSymbols source).view s) = false := by
  rw [Grammar.Ahead.startsAnnotation, h.isAt_eq]
  rfl

theorem unmodified (h : Faces source parts (p.bareSymbols ++ rest) s) :
    ((Source.ofSymbols source).view s).isAtModifierWord = false := by
  rw [Grammar.Ahead.isAtModifierWord, h.kind_eq, Grammar.Ahead.isSealed, Grammar.Ahead.isAtWord,
    h.at_eq]
  rfl

end ElementPlace

variable (hscan : Scanned source)

include hscan

/-- A name without dots. -/
theorem Grammar.matches_qualifiedName (n : LegalName) (hne : rest ≠ [])
    (hdot : (kindAhead rest 0 == .dot) = false) : Rule.qualifiedName.Matches source [n.symbol]
      [Phrase.qualifiedName.over [n.leaf]] rest :=
  .of_production hscan hne fun i s he h => by
    rw [List.singleton_append] at he h
    refine h.expect rfl rfl fun h => .loopThen (.stop (.ahead ?_))
    rw [h.isAt_eq, hdot]
    exact .pure ⟨rfl, h.closeLast rfl⟩

/-- An empty body. -/
theorem Grammar.matches_emptyBody (hne : rest ≠ []) : (Rule.classBody .member).Matches source
    [TokenKind.lbrace.symbol, TokenKind.rbrace.symbol]
    [Phrase.classBody.over [TokenKind.lbrace.leaf, TokenKind.rbrace.leaf]] rest :=
  .of_production hscan hne fun i s he h => by
    refine .nest (h.expect rfl rfl fun h => .loopThen (.stop (.ahead ?_)))
    rw [Grammar.Production.isInBody, h.isAt_eq]
    exact .pure ⟨rfl, h.expect rfl rfl fun h => h.closeLast rfl⟩

namespace ElementPlace

variable (hheads : HeadsValue ss)
  (hvalue : ∀ {rest}, Ends rest → Rule.ternary.Matches source ss [t] rest)

include hheads hvalue

/-- An expression as a value. -/
theorem matches_expression (hends : Ends rest) :
    Rule.elementValue.Matches source ss [Phrase.elementValue.over [t]] rest :=
  .of_production hscan hends.ne_nil fun i s he h => .bind <| .ahead <| by
    have hstarts := hheads.starts
    have hread : (Move.read .ternary).Gets (.ofSymbols source) (.elementValue, i)
        (fun _ s' => (Move.close .elementValue).Gets (.ofSymbols source) (.elementValue, i)
          (fun _ => Faces source [Phrase.elementValue.over [t]] rest) s') s :=
      (h.readLast (hvalue hends) (he.same h (by simp [hheads.ne_nil]) (by decide))).mono
        fun _ _ h => h.closeLast rfl
    rw [h.kind_eq, Grammar.kindAhead_append hheads.ne_nil]
    split
    · rename_i hkind
      rw [hkind] at hstarts
      cases hstarts
    · rename_i hkind
      rw [hkind] at hstarts
      cases hstarts
    · exact hread

/-- The value. -/
theorem matches_value (hends : Ends rest) :
    Rule.elementValue.Matches source (p.valueSymbols ss) [p.valueTree t] rest := by
  rw [valueSymbols, valueTree]
  cases p.isListed with
  | false => exact matches_expression hscan hheads hvalue hends
  | true =>
    refine .of_production hscan hends.ne_nil fun i s he h => .bind (.ahead ?_)
    have hassoc : TokenKind.lbrace.symbol :: (ss ++ [TokenKind.rbrace.symbol]) ++ rest =
        TokenKind.lbrace.symbol :: (ss ++ (TokenKind.rbrace.symbol :: rest)) := by simp
    have hbrace : Ends (TokenKind.rbrace.symbol :: rest) := rfl
    have hone := matches_expression hscan hheads hvalue hbrace
    rw [if_pos rfl, hassoc] at he h
    rw [h.kind_eq]
    refine h.take rfl fun {s'} h => .loopThen (.stop (.ahead ?_))
    have hnone : ((Source.ofSymbols source).view s').isAt .rbrace = false := by
      rw [h.isAt_eq, Grammar.kindAhead_append hheads.ne_nil]
      refine beq_eq_false_iff_ne.mpr fun hkind => ?_
      have hstarts := hheads.starts
      rw [hkind] at hstarts
      cases hstarts
    beta_reduce
    rw [hnone]
    refine h.read hone (he.fewer h (Nat.lt_succ_self _)) fun h => .isAt ?_
    rw [h.isAt_eq]
    refine .pure ⟨rfl, h.expect rfl rfl fun h => ?_⟩
    exact (h.closeLast rfl).mono fun _ _ h => h.closeLast rfl

/-- The element, named or not, in front of the parenthesis. -/
theorem gets_elements {e : Entry} {total : List Symbol} {parts : List Tree} {s : Stand}
    (he : Entered source e total)
    (h : Faces source parts (p.elementSymbols ss ++ (TokenKind.rparen.symbol :: rest)) s)
    (hlt : (p.elementSymbols ss ++ (TokenKind.rparen.symbol :: rest)).length < total.length) :
    Grammar.Production.annotationElements.Gets (.ofSymbols source) e
      (fun _ => Faces source (p.elementTree t :: parts) (TokenKind.rparen.symbol :: rest)) s := by
  have hends : Ends (TokenKind.rparen.symbol :: rest) := rfl
  have hone := matches_value (p := p) hscan hheads hvalue hends
  refine .ahead ?_
  rw [elementSymbols] at h hlt
  rw [elementTree]
  cases hid : p.id? with
  | some id =>
    rw [hid] at h hlt
    have hpair : Rule.elementValuePair.Matches source
        (id.symbol :: TokenKind.assign.symbol :: p.valueSymbols ss)
        [Phrase.elementValuePair.over [id.leaf, TokenKind.assign.leaf, p.valueTree t]]
        (TokenKind.rparen.symbol :: rest) :=
      .of_production hscan hends.ne_nil fun i s he h => by
        refine h.expect rfl rfl fun h => h.expect rfl rfl fun h => ?_
        exact h.read hone (he.fewer h (by simp)) fun h => h.closeLast rfl
    rw [h.isAt_eq, h.kindAt_eq]
    refine h.read hpair (he.fewer h hlt) fun h => .loop (.stop (h.eatNone rfl (.pure ⟨rfl, h⟩)))
  | none =>
    rw [hid] at h hlt
    have hahead : (kindAhead (p.valueSymbols ss ++ TokenKind.rparen.symbol :: rest) 0 ==
          .identifier && kindAhead (p.valueSymbols ss ++ TokenKind.rparen.symbol :: rest) 1 ==
          .assign) = false ∧
        (kindAhead (p.valueSymbols ss ++ TokenKind.rparen.symbol :: rest) 0 == .rparen) =
          false := by
      rw [valueSymbols]
      cases p.isListed with
      | false => exact hheads.ahead rest
      | true => exact ⟨rfl, rfl⟩
    rw [h.isAt_eq, h.kindAt_eq, h.isAt_eq, hahead.1, hahead.2]
    exact h.readLast hone (he.fewer h hlt)

/-- **The annotation.** -/
theorem matches_use (hne : rest ≠ []) :
    Rule.annotationUse.Matches source (p.useSymbols ss) [p.useTree t] rest :=
  .of_production hscan hne fun i s he h => by
    have hassoc : p.useSymbols ss ++ rest = TokenKind.atSign.symbol :: ([p.annotation.symbol] ++
        (TokenKind.lparen.symbol :: (p.elementSymbols ss ++
          (TokenKind.rparen.symbol :: rest)))) := by
      simp [useSymbols]
    rw [hassoc] at he h
    have hname : Rule.qualifiedName.Matches source [p.annotation.symbol]
        [Phrase.qualifiedName.over [p.annotation.leaf]] (TokenKind.lparen.symbol ::
          (p.elementSymbols ss ++ (TokenKind.rparen.symbol :: rest))) :=
      Grammar.matches_qualifiedName hscan p.annotation (List.cons_ne_nil _ _) rfl
    refine h.expect rfl rfl fun h => h.read hname (he.fewer h (Nat.lt_succ_self _)) fun h => ?_
    refine .provided (by rw [h.isAt_eq]; rfl) (h.take rfl fun h => .bind ?_)
    refine (gets_elements hscan hheads hvalue he h (by grind)).mono fun _ _ h => ?_
    exact (h.expectLast rfl rfl).mono fun _ _ h => h.closeLast rfl

/-- Annotations in front of the class. -/
theorem matches_annotations : Rule.annotations.Matches source (p.useSymbols ss) [p.useTree t]
    (p.bareSymbols ++ rest) :=
  .of_production hscan (List.cons_ne_nil _ _) fun i s he h => by
    have hne : p.bareSymbols ++ rest ≠ [] := List.cons_ne_nil _ _
    refine .loop (.go (.ahead ?_))
    rw [annotated h]
    refine h.read (matches_use hscan hheads hvalue hne) (he.same h (List.cons_ne_nil _ _)
      (by decide)) fun h' => .pure ⟨rfl, h.read_lt_read h' (length_lt _), ?_⟩
    refine .stop (.ahead ?_)
    rw [unannotated h']
    exact .pure ⟨rfl, h'⟩

/-- Modifiers in front of the class. -/
theorem matches_modifiers : Rule.modifiers.Matches source (p.useSymbols ss)
    [Phrase.modifiers.over [p.useTree t]] (p.bareSymbols ++ rest) :=
  .of_production hscan (List.cons_ne_nil _ _) fun i s he h => .ahead <| by
    have hne : p.bareSymbols ++ rest ≠ [] := List.cons_ne_nil _ _
    have hword := Grammar.Ahead.isAtModifierWord_of_annotation (annotated h)
    rw [Grammar.Ahead.startsModifier, hword, annotated h]
    refine .loopThen (.go (.ahead ?_))
    rw [hword, annotated h]
    refine h.read (matches_use hscan hheads hvalue hne) (he.same h (List.cons_ne_nil _ _)
      (by decide)) fun {s'} h' => .pure ⟨rfl, h.read_lt_read h' (length_lt _), ?_⟩
    refine .stop (.ahead ?_)
    rw [unmodified h', unannotated h']
    exact .pure ⟨rfl, h'.closeLast rfl⟩

omit hheads hvalue in
/-- The class behind the annotation. -/
theorem matches_bare (hne : rest ≠ []) : (Rule.memberBody .alone).Matches source p.bareSymbols
    [p.bareTree] rest :=
  .of_production hscan hne fun i s he h => .ahead <| by
    have hbody := Grammar.matches_emptyBody hscan hne
    have h : Faces source [] (TokenKind.classKw.symbol :: p.owner.symbol ::
      ([TokenKind.lbrace.symbol, TokenKind.rbrace.symbol] ++ rest)) s := h
    rw [h.isAt_eq]
    refine h.expect rfl rfl fun h => h.expect rfl rfl fun {s'} h => ?_
    refine .bind (.isAt ?_)
    rw [h.isAt_eq]
    refine .pure (.bind (h.eatNone rfl (.pure (.bind (h.eatNone rfl (.pure ?_))))))
    refine .notProvided ?_ (h.read hbody (he.fewer h (by simp [bareSymbols])) fun h =>
      h.closeLast rfl)
    change (((Source.ofSymbols source).view s').at_ 0).isWord "permits" = false
    rw [h.at_eq]
    rfl

/-- The class with its annotation. -/
theorem matches_memberDeclaration (hne : rest ≠ []) :
    (Rule.memberDeclaration .alone).Matches source (p.symbols ss) [p.tree t] rest :=
  .of_production hscan hne fun i s he h => by
    rw [symbols, List.append_assoc] at he h
    have hmodifiers : Rule.modifiers.Matches source (p.useSymbols ss)
        [Phrase.modifiers.over [p.useTree t]] (p.bareSymbols ++ rest) :=
      matches_modifiers hscan hheads hvalue
    refine h.read hmodifiers (he.same h (List.cons_ne_nil _ _) (by decide)) fun h => ?_
    refine h.read (matches_bare hscan hne) (he.fewer h (length_lt _)) fun h => ?_
    exact h.closeLast rfl

/-- **The class is read alone.** -/
theorem matches_declarationStart :
    Rule.declarationStart.Matches source (p.symbols ss) [Phrase.declarationStart.over [p.tree t]]
      [Symbol.final] :=
  .of_production hscan (List.cons_ne_nil _ _) fun i s he h => by
    have hend : [Symbol.final] ≠ [] := List.cons_ne_nil _ _
    have hmember := matches_memberDeclaration (p := p) hscan hheads hvalue hend
    have hdeclaration : (Rule.classBodyDeclaration .alone).Matches source (p.symbols ss) [p.tree t]
        [Symbol.final] :=
      Grammar.matches_member hscan hend (List.cons_ne_nil _ _) rfl rfl rfl hmember
    have hannotations : Rule.annotations.Matches source (p.useSymbols ss) [p.useTree t]
        (p.bareSymbols ++ [Symbol.final]) := matches_annotations hscan hheads hvalue
    have hcons : p.symbols ss ++ [Symbol.final] ≠ [] := List.cons_ne_nil _ _
    have hassoc : p.symbols ss ++ [Symbol.final] =
        p.useSymbols ss ++ (p.bareSymbols ++ [Symbol.final]) := List.append_assoc ..
    have h' : Faces source [] (p.useSymbols ss ++ (p.bareSymbols ++ [Symbol.final])) s := hassoc ▸ h
    have hallows := he.same h hcons (r := .annotations) (by decide)
    -- Behind the annotation stands neither a package nor a module.
    refine .bind (.bind (.ahead ?_))
    rw [h.isAt_eq, annotated h']
    refine h'.attempt hannotations hallows (.pure ?_)
    have hpackage :
        ((Source.ofSymbols source).view s).kindAt (p.useSymbols ss).length = .classKw := by
      rw [h'.kindAt_eq, kindAhead, List.getElem?_append_right (Nat.le_refl _), Nat.sub_self]
      rfl
    rw [Option.any_some, hpackage]
    refine .isAt ?_
    rw [h.isAt_eq]
    refine .bind (.ahead ?_)
    rw [h.isAt_eq]
    refine h'.attempt hannotations hallows (.pure ?_)
    have hmodule : Grammar.Production.isAtModule
        (((Source.ofSymbols source).view s).skip (p.useSymbols ss).length) = false := by
      rw [Grammar.Production.isAtModule, h'.at_skip]
      rfl
    rw [Option.any_some, hmodule]
    refine (h.readLast hdeclaration (he.same h hcons (by decide))).mono fun _ s' h => ?_
    refine .bind (.isAt ?_)
    rw [h.isAt_eq]
    exact .pure (h.closeLast rfl)

end ElementPlace

end Matching

/-! ### Reading -/

theorem Tree.nth_opened {outer t : Tree} {i : Nat} (h : outer.phrases[i]? = some t) :
    outer.opened.nth i = .ok (Part.ofTree t) := by
  rw [Opened.nth, phrases_opened, List.getElem?_map, h]
  rfl

/-- Without a list of types, none are read behind a word. -/
theorem Opened.typesBehind_eq_nil {o : Opened} (h : ∀ part ∈ o.parts, part.isA .typeList = false)
    (isMarker : Token → Bool) : o.typesBehind isMarker = .ok .nil := by
  rw [typesBehind]
  split
  · rw [h _ (Readable.mem_of_behind? ‹_›)]
    rfl
  · rfl

namespace ElementPlace

section

variable {t : Tree} {v e : Expr} {p : ElementPlace} (ht : t.phrase?.isSome = true)
  (hread : t.read .expr = .ok v) (halike : v.Alike e)

include ht hread

/-- An expression is read as a value. -/
theorem read_expression :
    (Phrase.elementValue.over [t]).read .elementValue = .ok (.exprValue v) := by
  have hnth : (Phrase.elementValue.over [t]).opened.nth 0 = .ok (Part.ofTree t) :=
    Tree.nth_opened (by simp [ht])
  have hexpr : (Part.ofTree t).read .expr = .ok v := hread
  rw [Tree.read_eq]
  change (Phrase.elementValue.over [t]).opened.elementValue = _
  rw [Opened.elementValue, hnth]
  dsimp only [bind, Except.bind]
  rw [Part.tree_ofTree]
  split
  · exact absurd ‹_› (Tree.phrase?_of_expr hread (by decide))
  · exact absurd ‹_› (Tree.phrase?_of_expr hread (by decide))
  · rw [hexpr]
    rfl

include halike

/-- The value is read as one that is alike. -/
theorem read_value : ∃ n, (p.valueTree t).read .elementValue = .ok n ∧ n.Alike (p.value e) := by
  rw [valueTree, value]
  cases p.isListed with
  | false => exact ⟨_, read_expression ht hread, .exprValue halike⟩
  | true =>
    let list := Phrase.elementValueArrayInitializer.over
      [TokenKind.lbrace.leaf, Phrase.elementValue.over [t], TokenKind.rbrace.leaf]
    have hnth : (Phrase.elementValue.over [list]).opened.nth 0 = .ok (Part.ofTree list) := rfl
    have hlist : list.read .elementValueArray =
        .ok (.elementValueArray list.opened.span (.cons (.exprValue v) .nil)) := by
      rw [Tree.read_eq]
      change Node.elementValueArray _ <$> list.opened.readAll .elementValue .elementValue = _
      rw [Tree.readAll_opened]
      change Node.elementValueArray _ <$>
        (Node.ofList <$> [Phrase.elementValue.over [t]].mapM _) = _
      rw [List.mapM_cons, read_expression ht hread]
      rfl
    have hvalue : (Phrase.elementValue.over [list]).read .elementValue =
        .ok (.elementValueArray list.opened.span (.cons (.exprValue v) .nil)) := by
      rw [Tree.read_eq]
      change (Phrase.elementValue.over [list]).opened.elementValue = _
      rw [Opened.elementValue, hnth]
      exact hlist
    exact ⟨_, hvalue, .elementValueArray (.cons (.exprValue halike) .nil)⟩

/-- The element is read as one that is alike. -/
theorem read_element :
    ∃ n, (p.elementTree t).read .annotationElement = .ok n ∧ n.Alike (p.element e) := by
  obtain ⟨n, hn, hn'⟩ := read_value (p := p) ht hread halike
  rw [elementTree, element]
  cases p.id? with
  | none =>
    refine ⟨.valueElement n, ?_, .valueElement hn'⟩
    rw [Tree.read_eq]
    change Node.valueElement <$> (p.valueTree t).opened.elementValue = _
    have hvalue : (p.valueTree t).opened.elementValue = .ok n := by
      rw [Tree.read_eq] at hn
      exact hn
    rw [hvalue]
    rfl
  | some id =>
    let pair := Phrase.elementValuePair.over [id.leaf, TokenKind.assign.leaf, p.valueTree t]
    have hfirst : pair.opened.readFirst .elementValue .elementValue = .ok n :=
      (Tree.readFirst_opened rfl).trans hn
    have hpair : pair.read .annotationElement =
        .ok (.elementValuePair pair.opened.span
          (.identifier (some id.symbol.token.span) id.text) n) := by
      rw [Tree.read_eq]
      change (do
        let id ← pair.opened.identifier
        return Node.elementValuePair pair.opened.span id
          (← pair.opened.readFirst .elementValue .elementValue) : Reading .annotationElement) = _
      rw [hfirst]
      rfl
    exact ⟨_, hpair, .elementValuePair .identifier hn'⟩

/-- The annotation is read as one that is alike. -/
theorem read_use : ∃ n, (p.useTree t).read .annotationUse = .ok n ∧ n.Alike (p.use e) := by
  obtain ⟨n, hn, hn'⟩ := read_element (p := p) ht hread halike
  let outer := p.useTree t
  have hname : outer.opened.readFirst .qualifiedName .qualifiedName =
      .ok (.qualifiedName (some noSpan) (.cons (p.annotation.identifier .nowhere) .nil)) := rfl
  have hparts : outer.opened.parts.filter
      (fun part => part.isA .elementValuePair || part.isA .elementValue) =
        [Part.ofTree (p.elementTree t)] := by
    rw [Tree.parts_opened]
    cases hid : p.id? with
    | none => simp [outer, useTree, elementTree, hid, valueTree]; rfl
    | some id => simp [outer, useTree, elementTree, hid]; rfl
  have helements : Part.readAll .annotationElement [Part.ofTree (p.elementTree t)] =
      .ok (.cons n .nil) := by
    change Node.ofList <$> [Part.ofTree (p.elementTree t)].mapM _ = _
    rw [List.mapM_cons]
    change Node.ofList <$> ((p.elementTree t).read .annotationElement >>= _) = _
    rw [hn]
    rfl
  refine ⟨.annotationUse outer.opened.span (.qualifiedName (some noSpan)
    (.cons (p.annotation.identifier .nowhere) .nil)) (.cons n .nil), ?_,
    .annotationUse (.qualifiedName (.cons .identifier .nil)) (.cons hn' .nil)⟩
  rw [Tree.read_eq]
  change outer.opened.annotationUse = _
  rw [Opened.annotationUse, hname, hparts]
  dsimp only [bind, Except.bind]
  rw [helements]
  rfl

/-- The modifiers are the annotation. -/
theorem read_modifiers : ∃ n, (p.tree t).opened.modifiers =
    .ok (.cons (.annotationModifier n) .nil) ∧ n.Alike (p.use e) := by
  obtain ⟨n, hn, hn'⟩ := read_use (p := p) ht hread halike
  let list := Phrase.modifiers.over [p.useTree t]
  have hone : list.opened.modifierOf (Part.ofTree (p.useTree t)) =
      .ok (.annotationModifier n) := by
    change Node.annotationModifier <$> (p.useTree t).read .annotationUse = _
    rw [hn]
    rfl
  have hlist : list.read .modifiers = .ok (.cons (.annotationModifier n) .nil) := by
    rw [Tree.read_eq]
    change Node.ofList <$> [Part.ofTree (p.useTree t)].mapM list.opened.modifierOf = _
    rw [List.mapM_cons, hone]
    rfl
  refine ⟨n, ?_, hn'⟩
  rw [Opened.modifiers, Opened.readList, Tree.first?_opened]
  exact hlist

omit ht hread halike in
/-- The class behind the annotation. -/
theorem read_bare : p.bareTree.read .member = .ok (.classDecl (some noSpan) .nil
    (p.owner.identifier .nowhere) .absent .absent .nil .nil .nil) := by
  -- The name may be the word that types stand behind, but none do.
  have hnone : ∀ part ∈ p.bareTree.opened.parts, part.isA .typeList = false := by
    simp only [bareTree, Tree.parts_opened, Phrase.parts_over, List.map_cons, List.map_nil,
      List.forall_mem_cons]
    exact ⟨rfl, rfl, rfl, List.forall_mem_nil _⟩
  rw [Tree.read_eq]
  change p.bareTree.opened.classDecl = _
  rw [Opened.classDecl, Opened.typesBehind_eq_nil hnone, Opened.typesBehind_eq_nil hnone]
  rfl

/-- **The class is read as one that is alike.** -/
theorem read_tree : ∃ n, (p.tree t).read .decl = .ok n ∧ n.Alike (p.node e) := by
  obtain ⟨n, hn, hn'⟩ := read_modifiers (p := p) ht hread halike
  let outer := p.tree t
  have hinner : outer.opened.phrasesBut .modifiers = [Part.ofTree p.bareTree] := rfl
  refine ⟨.classDecl outer.opened.span (.cons (.annotationModifier n) .nil)
    (p.owner.identifier .nowhere) .absent .absent .nil .nil .nil, ?_,
    .classDecl (.cons (.annotationModifier hn') .nil) .identifier .absent .absent .nil .nil .nil⟩
  rw [Tree.read_eq]
  change outer.opened.memberDecl = _
  rw [Opened.memberDecl, hinner, hn]
  change (p.bareTree.read .member >>= _) = _
  rw [read_bare]
  rfl

end

/-! ### Parsing -/

theorem unplaced_tree (p : ElementPlace) (t : Tree) : (p.tree t).unplaced = p.tree t.unplaced := by
  have hvalue : (p.valueTree t).unplaced = p.valueTree t.unplaced := by
    rw [valueTree, valueTree, Phrase.unplaced_over]
    cases p.isListed with
    | false => rfl
    | true =>
      rw [if_pos rfl, if_pos rfl, List.map_cons, Phrase.unplaced_over, List.map_cons, List.map_cons,
        Phrase.unplaced_over]
      rfl
  have helement : (p.elementTree t).unplaced = p.elementTree t.unplaced := by
    rw [elementTree, elementTree]
    cases p.id? with
    | none => exact hvalue
    | some id =>
      rw [Phrase.unplaced_over, List.map_cons, List.map_cons, List.map_cons, hvalue]
      rfl
  have huse : (p.useTree t).unplaced = p.useTree t.unplaced := by
    simp only [useTree, Phrase.unplaced_over, List.map_cons, List.map_nil, helement,
      TokenKind.unplaced_leaf, LegalName.unplaced_leaf]
  simp only [tree, bareTree, Phrase.unplaced_over, List.map_cons, List.map_nil, huse,
    TokenKind.unplaced_leaf, LegalName.unplaced_leaf]

section

variable {text : String} {ss : List Symbol} {t : Tree} {v e : Expr} {indent : Nat}
  {p : ElementPlace}

/-- **A conditional is printed as a value, and parsed to it**, if it is printed and parsed alone. -/
theorem parse_node (hprint : e.print indent = .ok text) (hstated : LexesStated text ss)
    (htakes : Rule.ternary.Takes (.ofSymbols (ss ++ [Symbol.final])) 0 [t.unplaced] ss.length)
    (ht : t.phrase?.isSome = true) (hread : t.read .expr = .ok v) (halike : v.Alike e) :
    ∃ source, (p.node e).print indent = .ok source ∧
      ∀ limit, (parseTreeWithin .decl limit source).isOk →
        ∃ n, parse .decl limit source = .ok n ∧ n.Alike ⟨.decl, p.node e⟩ := by
  have hwritten : (Doc.concat e.docs).LexesAt indent 0 (Edge.any.Holds ·) (StartsOff ss) ss :=
    .of_write hprint hstated
  obtain ⟨source, hsource, hlexes⟩ := (lexes_node (p := p) hwritten).render trivial
  refine ⟨source, hsource, fun limit hlimit => ?_⟩
  have hscan := hlexes.scanned
  have hheads := Grammar.headsValue_of_ternary hstated.1.scanned htakes
  have hvalue {rest} (hends : Ends rest) :
      Rule.ternary.Matches (p.symbols ss ++ [Symbol.final]) ss [t.unplaced] rest :=
    .of_takes_all hstated.1.scanned hscan hends (by decide) rfl htakes
  have hstart : Mode.decl.start.Takes _ 0 _ _ :=
    matches_declarationStart (p := p) hscan hheads hvalue 0 rfl
  rw [Nat.zero_add, ← unplaced_tree] at hstart
  obtain ⟨n, hn, hn'⟩ := read_tree (p := p) ht hread halike
  have hunplaced : (Phrase.declarationStart.over [p.tree t]).unplaced =
      Phrase.declarationStart.over [(p.tree t).unplaced] := by
    rw [Phrase.unplaced_over]
    rfl
  rw [← hunplaced] at hstart
  have hwhole : (Phrase.declarationStart.over [p.tree t]).readWhole = .ok ⟨.decl, n⟩ := by
    change (p.tree t).readAny .decl = _
    rw [Tree.readAny, hn]
    rfl
  obtain ⟨_, hm, ⟨hm'⟩⟩ := parse_of_takes hlexes hstart hwhole hlimit
  exact ⟨_, hm, .mk (hm'.trans hn')⟩

end

end ElementPlace

end JavaSource
