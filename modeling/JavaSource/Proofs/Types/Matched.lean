import JavaSource.Proofs.Matching
import JavaSource.Proofs.Types.Tree

/-!
# Type trees in any source

A type tree is read of its symbols in any source, wherever they stand in front of something that
does not go on with a type (`TypeTree.matches_type`).
-/

namespace JavaSource.Grammar

open Production

variable {ss rest : List Symbol} {parts : List Tree} {s : Stand} {e : Entry} {n : LegalName}
variable {α β : Type}

/-! ### What does not start here -/

theorem test_of_mem {kinds : List TokenKind} {kind : TokenKind} (h : kind ∈ kinds)
    (test : TokenKind → Bool) (htest : kinds.any test = false) : test kind = false :=
  Bool.eq_false_iff.mpr fun hkind => List.any_eq_false.mp htest kind h hkind

theorem Ahead.startsModifier_of_kind {a : Ahead} (hsealed : a.isSealed = false)
    (hkind : (isModifierWord a.kind || a.kind == .atSign) = false) : a.startsModifier = false := by
  obtain ⟨hmodifier, hat⟩ := (Bool.or_eq_false_iff ..).mp hkind
  have hmark : a.startsAnnotation = false := (Bool.and_eq_false_iff ..).mpr (.inl hat)
  rw [startsModifier, isAtModifierWord, hmodifier, hsealed, hmark]
  rfl

/-- Whether what stands behind a name keeps it from being a modifier, even if it is `sealed`. -/
def IsNoModifier (n : LegalName) (rest : List Symbol) : Prop :=
  n.text ≠ "sealed" ∨ kindAhead rest 0 ∈ [TokenKind.colon, .lparen]

theorem Faces.isSealed_name (h : Faces ss parts (n.symbol :: rest) s) (hn : IsNoModifier n rest) :
    ((Source.ofSymbols ss).view s).isSealed = false := by
  refine (Bool.and_eq_false_iff ..).mpr ?_
  rcases hn with hn | hkind
  · left
    change (((Source.ofSymbols ss).view s).at_ 0).isWord "sealed" = false
    rw [h.at_eq]
    exact beq_eq_false_iff_ne.mpr hn
  · right
    have hbehind : ((Source.ofSymbols ss).view s).kindAt 1 ∈ [TokenKind.colon, .lparen] := by
      rw [h.kindAt_eq]
      exact hkind
    have hword (word : String) : (((Source.ofSymbols ss).view s).at_ 1).isWord word = false :=
      (Bool.and_eq_false_iff ..).mpr (.inl (test_of_mem hbehind (· == .identifier) rfl))
    rw [hword, hword, Bool.or_false, Bool.or_false]
    exact test_of_mem hbehind (fun kind => Ahead.isModifierWord kind || kind == .classKw
      || kind == .interfaceKw || kind == .enumKw || kind == .atSign) rfl

theorem Faces.startsModifier_name (h : Faces ss parts (n.symbol :: rest) s)
    (hn : IsNoModifier n rest) : ((Source.ofSymbols ss).view s).startsModifier = false := by
  refine Ahead.startsModifier_of_kind (h.isSealed_name hn) ?_
  rw [h.kind_eq]
  rfl

/-- Where no modifier starts, none is read. -/
theorem matches_modifiers (hscan : Scanned ss) (hrest : rest ≠ [])
    (hstart : ∀ {s}, Faces ss [] rest s → ((Source.ofSymbols ss).view s).startsModifier = false) :
    Rule.modifiers.Matches ss [] [] rest :=
  .of_production hscan hrest fun i s he h => by
    refine .ahead ?_
    rw [hstart h]
    exact .pure h

/-- Where no annotation starts, none is read. -/
theorem matches_annotations (hscan : Scanned ss) (hrest : rest ≠ [])
    (hkind : (kindAhead rest 0 == .atSign) = false) : Rule.annotations.Matches ss [] [] rest :=
  .of_production hscan hrest fun i s he h => by
    refine .loop (.stop (.ahead ?_))
    have hmark : Ahead.startsAnnotation ((Source.ofSymbols ss).view s) = false :=
      (Bool.and_eq_false_iff ..).mpr (.inl (by rw [h.isAt_eq]; exact hkind))
    rw [hmark]
    exact .pure ⟨rfl, h⟩

/-! ### Dimensions -/

/-- What does not go on with a type stands there. -/
def EndsType (rest : List Symbol) : Prop :=
  [TokenKind.lt, .dot, .lbrack, .atSign].contains (kindAhead rest 0) = false

theorem EndsType.ne (h : EndsType rest) {kind : TokenKind}
    (hkind : kind ∈ [TokenKind.lt, .dot, .lbrack, .atSign]) : (kindAhead rest 0 == kind) = false :=
  beq_eq_false_iff_ne.mpr fun heq => by
    subst heq
    exact (Bool.eq_false_iff.mp h) (List.contains_iff_mem.mpr hkind)

/-- No dimensions are read there. -/
theorem Faces.noDims (h : Faces ss parts rest s) (hrest : EndsType rest) :
    Production.dims.Gets (.ofSymbols ss) e (fun _ => Faces ss parts rest) s := by
  refine .loop (.stop (.ahead ?_))
  have hdim : ((Source.ofSymbols ss).view s).startsDim = false :=
    (Bool.and_eq_false_iff ..).mpr (.inl (by rw [h.isAt_eq]; exact hrest.ne (by decide)))
  rw [hdim, h.isAt_eq, hrest.ne (by decide)]
  exact .pure ⟨rfl, h⟩

theorem matches_dim (hscan : Scanned ss) (hne : rest ≠ []) :
    Rule.dim.Matches ss [TokenKind.lbrack.symbol, TokenKind.rbrack.symbol]
      [Phrase.dim.over [TokenKind.lbrack.leaf, TokenKind.rbrack.leaf]] rest :=
  .of_production hscan hne fun i s he h => by
    have hnone := matches_annotations hscan
      (List.cons_ne_nil TokenKind.lbrack.symbol (TokenKind.rbrack.symbol :: rest)) rfl
    refine h.readNone hnone (he.same h (List.cons_ne_nil _ _) (by decide)) fun {s'} h => ?_
    have h : Faces ss [] (TokenKind.lbrack.symbol :: TokenKind.rbrack.symbol :: rest) s' := h
    exact h.expect rfl rfl fun h => h.expect rfl rfl fun h => h.closeLast rfl

/-- Dimensions are read one by one. -/
theorem Faces.dims {total : List Symbol} (hscan : Scanned ss) (he : Entered ss e total)
    (hne : rest ≠ []) (hrest : EndsType rest) (dims : Nat) {parts : List Tree} {s : Stand}
    (h : Faces ss parts (dimSymbols dims ++ rest) s)
    (hlt : (dimSymbols dims ++ rest).length < total.length) :
    Production.dims.Gets (.ofSymbols ss) e
      (fun _ => Faces ss ((dimTrees dims).reverse ++ parts) rest) s := by
  induction dims generalizing parts s with
  | zero => exact h.noDims hrest
  | succ dims ih =>
    have hassoc : dimSymbols (dims + 1) ++ rest =
        [TokenKind.lbrack.symbol, TokenKind.rbrack.symbol] ++ (dimSymbols dims ++ rest) := rfl
    rw [hassoc] at h hlt
    have hdim : ((Source.ofSymbols ss).view s).startsDim = true := by
      rw [Ahead.startsDim, h.isAt_eq, h.kindAt_eq]
      rfl
    refine .again (.ahead ?_)
    rw [hdim]
    refine h.read (matches_dim hscan (List.append_ne_nil_of_right_ne_nil _ hne))
      (he.fewer h hlt) fun h' => .pure ⟨rfl, ?_, ?_⟩
    · exact h.read_lt_read h' (by grind)
    · refine (ih h' (by grind)).mono fun _ _ h => ?_
      simpa [dimTrees] using h

end JavaSource.Grammar

namespace JavaSource

open Grammar (Symbol Rule Scanned Faces Entered Entry Stand Move Source kindAhead EndsType)

variable {ss rest : List Symbol} {touches : Bool}

/-- The rule of class types reads the symbols of one. -/
def BaseTree.Matched (ss : List Symbol) (touches : Bool) (rest : List Symbol) : BaseTree → Prop
  | .word _ => True
  | .named parts =>
    Rule.classType.Matches ss (parts.symbols touches) [Phrase.classType.over parts.trees] rest

/-- What a class type starts with. -/
theorem CoitTrees.symbols_eq (parts : CoitTrees) (touches : Bool) :
    ∃ (name : LegalName) (others : List Symbol), parts.symbols touches = name.symbol :: others := by
  cases parts with
  | last part => cases part <;> exact ⟨_, _, rfl⟩
  | dot first others => cases first <;> exact ⟨_, _, rfl⟩

/-- What a type starts with. -/
theorem BaseTree.symbols_eq (base : BaseTree) (touches : Bool) :
    ∃ (x : Symbol) (others : List Symbol), base.symbols touches = x :: others ∧
      (x.kind.isPrimitiveType || x.kind == .identifier) = true := by
  cases base with
  | word word => exact ⟨_, _, rfl, by cases word <;> rfl⟩
  | named parts =>
    obtain ⟨name, others, hsymbols⟩ := parts.symbols_eq touches
    exact ⟨name.symbol, others, hsymbols, rfl⟩

/-- Types start with nothing else. -/
theorem TypeTree.isAt_symbols (t : TypeTree) {kind : TokenKind}
    (hkind : (kind.isPrimitiveType || kind == .identifier) = false) :
    (kindAhead (t.symbols touches ++ rest) 0 == kind) = false := by
  cases t with
  | mk base dims =>
    obtain ⟨x, others, hsymbols, hx⟩ := base.symbols_eq (dims == 0 && touches)
    have htotal : (TypeTree.mk base dims).symbols touches ++ rest =
        x :: (others ++ dimSymbols dims ++ rest) := by
      rw [TypeTree.symbols, hsymbols]
      rfl
    rw [htotal]
    refine beq_eq_false_iff_ne.mpr fun (heq : x.kind = kind) => ?_
    rw [heq, hkind] at hx
    cases hx

/-- Type arguments start with a type or a question mark. -/
theorem ArgTree.isAt_symbols (arg : ArgTree) {kind : TokenKind}
    (hkind : (kind.isPrimitiveType || kind == .identifier || kind == .question) = false) :
    (kindAhead (arg.symbols touches ++ rest) 0 == kind) = false := by
  obtain ⟨htype, hquestion⟩ := (Bool.or_eq_false_iff ..).mp hkind
  have hquestion : (TokenKind.question == kind) = false :=
    beq_eq_false_iff_ne.mpr fun heq => absurd hquestion (by rw [← heq]; decide)
  cases arg with
  | type type => exact type.isAt_symbols htype
  | wildcard => exact hquestion
  | bounded bound type => cases bound <;> exact hquestion

namespace Grammar.Faces

variable {base : BaseTree} {dims : Nat} {parts : List Tree} {s : Stand} {e : Entry}

/-- A primitive type or a class type. -/
theorem baseType {β : Type} {f : Unit → Move β} {Q : β → Stand → Prop}
    (hbase : base.Matched ss touches rest) (hallows : e.Allows .classType s.read)
    (h : Faces ss parts (base.symbols touches ++ rest) s)
    (k : ∀ {s'}, Faces ss (base.tree :: parts) rest s' → (f ()).Gets (.ofSymbols ss) e Q s') :
    (Grammar.Production.baseType >>= f).Gets (.ofSymbols ss) e Q s := by
  refine .bind (.ahead ?_)
  rw [h.kind_eq, h.isAt_eq]
  cases base with
  | word word =>
    have h : Faces ss parts (word.kind.symbol :: rest) s := h
    have hprimitive : (kindAhead (word.kind.symbol :: rest) 0).isPrimitiveType = true := by
      cases word <;> rfl
    change (if (kindAhead (word.kind.symbol :: rest) 0).isPrimitiveType = true then _ else _ :
      Move Unit).Gets ..
    rw [if_pos hprimitive]
    exact (h.takeLast (by cases word <;> rfl)).mono fun _ _ h => k h
  | named parts =>
    obtain ⟨name, others, hsymbols⟩ := parts.symbols_eq touches
    have hread := (h.readLast hbase hallows).mono fun _ _ h => k h
    change (if (kindAhead (parts.symbols touches ++ rest) 0).isPrimitiveType = true then _ else
      if (kindAhead (parts.symbols touches ++ rest) 0 == .identifier) = true then _ else _ :
      Move Unit).Gets ..
    rw [hsymbols]
    exact hread

/-- Annotations, none, and a type with its dimensions. -/
theorem typeBody {r : Rule} {i : Nat} (hscan : Scanned ss)
    (he : Entered ss (r, i) ((TypeTree.mk base dims).symbols touches ++ rest))
    (hne : rest ≠ []) (hrest : EndsType rest)
    (hannotations : Rule.annotations.rank < r.rank) (hclass : Rule.classType.rank < r.rank)
    (hbase : base.Matched ss (dims == 0 && touches) (dimSymbols dims ++ rest))
    (h : Faces ss [] ((TypeTree.mk base dims).symbols touches ++ rest) s) :
    (Grammar.Production.typeBody true).Gets (.ofSymbols ss) (r, i)
      (fun _ => Faces ss [(TypeTree.mk base dims).tree] rest) s := by
  obtain ⟨x, others, hsymbols, hx⟩ := base.symbols_eq (dims == 0 && touches)
  have htotal : (TypeTree.mk base dims).symbols touches ++ rest =
      base.symbols (dims == 0 && touches) ++ (dimSymbols dims ++ rest) := List.append_assoc ..
  rw [htotal] at he h
  have hne' : base.symbols (dims == 0 && touches) ++ (dimSymbols dims ++ rest) ≠ [] := by
    rw [hsymbols]
    exact List.cons_ne_nil _ _
  have hnone : Rule.annotations.Matches ss [] [] _ := Grammar.matches_annotations hscan hne' (by
    rw [hsymbols]
    change (x.kind == .atSign) = false
    revert hx
    cases x.kind <;> first | exact fun _ => rfl | exact fun hx => absurd hx (by decide))
  refine h.readNone hnone (he.same h hne' hannotations) fun h => ?_
  refine h.baseType hbase (he.same h hne' hclass) fun h => ?_
  have hdims := h.dims hscan he hne hrest dims (by
    rw [hsymbols]
    simp only [List.length_append, List.length_cons]
    omega)
  refine .provided rfl (hdims.mono fun _ _ h => h.closeLast ?_)
  rw [List.reverse_append, List.reverse_reverse]
  rfl

end Grammar.Faces

/-- Neither type arguments nor more parts follow. -/
def EndsClass (rest : List Symbol) : Prop :=
  (kindAhead rest 0 == .lt) = false ∧ (kindAhead rest 0 == .dot) = false

theorem EndsClass.dims (hrest : EndsType rest) (dims : Nat) :
    EndsClass (dimSymbols dims ++ rest) := by
  cases dims with
  | zero => exact ⟨hrest.ne (by decide), hrest.ne (by decide)⟩
  | succ dims => exact ⟨rfl, rfl⟩

/-! ### Parts of a class type -/

namespace CoitTrees

/-- Each part is read in front of those behind it. -/
def Matched (ss : List Symbol) (touches : Bool) (rest : List Symbol) : CoitTrees → Prop
  | .last part => Rule.coit.Matches ss (part.symbols touches) [part.tree] rest
  | .dot first others => Rule.coit.Matches ss (first.symbols false) [first.tree]
      (TokenKind.dot.symbol :: (others.symbols touches ++ rest)) ∧ others.Matched ss touches rest

/-- The loop reads the parts behind the first one. -/
theorem cycles {total : List Symbol} {e : Entry} {Q : Stand → Prop}
    (hrest : (kindAhead rest 0 == .dot) = false) (he : Entered ss e total) (parts : CoitTrees)
    (hmatched : parts.Matched ss touches rest) {held : List Tree} {s : Stand}
    (h : Faces ss held (TokenKind.dot.symbol :: (parts.symbols touches ++ rest)) s)
    (hlt : (parts.symbols touches ++ rest).length < total.length)
    (k : ∀ {s'}, Faces ss ((TokenKind.dot.leaf :: parts.trees).reverse ++ held) rest s' → Q s') :
    (do let a : Grammar.Ahead ← Move.ahead
        if a.isAt TokenKind.dot && (a.kindAt 1 == TokenKind.identifier ||
            a.kindAt 1 == TokenKind.atSign) then
          Move.take
          Move.read .coit
          return true
        else return false).Cycles (.ofSymbols ss) e Q s := by
  obtain ⟨name, symbols, hsymbols⟩ := parts.symbols_eq touches
  have hname : kindAhead (TokenKind.dot.symbol :: (parts.symbols touches ++ rest)) 1 =
      .identifier := by
    rw [hsymbols]
    rfl
  refine .go (.ahead ?_)
  rw [h.isAt_eq, h.kindAt_eq, hname]
  refine h.take rfl fun {s₁} h₁ => ?_
  have h₁ : Faces ss (TokenKind.dot.leaf :: held) (parts.symbols touches ++ rest) s₁ := h₁
  cases parts with
  | last part =>
    refine h₁.read hmatched (he.fewer h₁ hlt) fun h₂ => .pure ⟨rfl, h.read_lt_read h₂ ?_, ?_⟩
    · grind
    · refine .stop (.ahead ?_)
      rw [h₂.isAt_eq, hrest]
      exact .pure ⟨rfl, k h₂⟩
  | dot first others =>
    have hassoc : (dot first others).symbols touches ++ rest = first.symbols false ++
        (TokenKind.dot.symbol :: (others.symbols touches ++ rest)) := by
      simp [CoitTrees.symbols]
    rw [hassoc] at h₁ h hlt
    refine h₁.read hmatched.1 (he.fewer h₁ hlt) fun h₂ => .pure ⟨rfl, h.read_lt_read h₂ ?_, ?_⟩
    · grind
    · refine cycles hrest he others hmatched.2 h₂ (by grind) fun h => k ?_
      simpa [trees] using h

/-- The parts make a class type. -/
theorem matches_classType (hscan : Scanned ss) (hne : rest ≠ [])
    (hrest : (kindAhead rest 0 == .dot) = false) (parts : CoitTrees)
    (hmatched : parts.Matched ss touches rest) :
    Rule.classType.Matches ss (parts.symbols touches) [Phrase.classType.over parts.trees] rest := by
  refine .of_production hscan hne fun i s he h => ?_
  have hne' : parts.symbols touches ++ rest ≠ [] := List.append_ne_nil_of_right_ne_nil _ hne
  cases parts with
  | last part =>
    refine h.read hmatched (he.same h hne' (by decide)) fun h => .loopThen (.stop (.ahead ?_))
    rw [h.isAt_eq, hrest]
    exact .pure ⟨rfl, h.closeLast rfl⟩
  | dot first others =>
    obtain ⟨name, symbols, hsymbols⟩ := (CoitTrees.last first).symbols_eq false
    have hfirst : first.symbols false = name.symbol :: symbols := hsymbols
    have hassoc : (dot first others).symbols touches ++ rest = first.symbols false ++
        (TokenKind.dot.symbol :: (others.symbols touches ++ rest)) := by
      simp [CoitTrees.symbols]
    rw [hassoc] at h he hne'
    refine h.read hmatched.1 (he.same h hne' (by decide)) fun h => .loopThen ?_
    refine cycles hrest he others hmatched.2 h ?_ fun h => h.closeLast ?_
    · rw [hfirst]
      grind
    · simp [trees]

end CoitTrees

/-! ### Type arguments -/

namespace ArgTrees

/-- Each type argument is read in front of those behind it. -/
def Matched (ss rest : List Symbol) : ArgTrees → Prop
  | .nil => True
  | .cons first others => Rule.typeArgument.Matches ss (first.symbols others.isNil) [first.tree]
      (others.symbols [TokenKind.comma.symbol] ++ rest) ∧ others.Matched ss rest

/-- What stands behind a type argument. -/
theorem kind_behind (others : ArgTrees) (touches : Bool) (rest : List Symbol) :
    kindAhead (others.symbols [TokenKind.comma.symbol] ++ gtSymbol touches :: rest) 0 ∈
      [TokenKind.comma, .gt] := by
  cases others with
  | nil => exact .tail _ (.head _)
  | cons first others => exact .head _

/-- The loop reads the type arguments behind the first one. -/
theorem cycles {total : List Symbol} {e : Entry} {Q : Stand → Prop}
    (hrest : (kindAhead rest 0 == .comma) = false) (he : Entered ss e total) (args : ArgTrees)
    (hmatched : args.Matched ss rest) {parts : List Tree} {s : Stand}
    (h : Faces ss parts (args.symbols [TokenKind.comma.symbol] ++ rest) s)
    (hlt : (args.symbols [TokenKind.comma.symbol] ++ rest).length < total.length)
    (k : ∀ {s'}, Faces ss ((args.trees [TokenKind.comma.leaf]).reverse ++ parts) rest s' → Q s') :
    (do if ← Move.eat .comma then
          Move.read .typeArgument
          return true
        else return false).Cycles (.ofSymbols ss) e Q s := by
  cases args with
  | nil => exact .stop (h.eatNone hrest (.pure ⟨rfl, k h⟩))
  | cons first others =>
    have hassoc : (cons first others).symbols [TokenKind.comma.symbol] ++ rest =
        TokenKind.comma.symbol :: (first.symbols others.isNil ++
          (others.symbols [TokenKind.comma.symbol] ++ rest)) := by
      simp [symbols]
    rw [hassoc] at h hlt
    simp only [List.length_cons, List.length_append] at hlt
    refine .go (h.eat rfl rfl fun h' => ?_)
    refine h'.read hmatched.1 (he.fewer h' (by grind)) fun h'' => .pure ⟨rfl, ?_, ?_⟩
    · exact h.read_lt_read h'' (by grind)
    · refine cycles hrest he others hmatched.2 h'' (by grind) fun h => k ?_
      simpa [trees, TokenKind.leaf] using h

/-- The type arguments and what stands around them. -/
theorem matches_typeArguments (hscan : Scanned ss) (hne : rest ≠ []) (args : ArgTrees)
    (hmatched : args.Matched ss (gtSymbol touches :: rest)) :
    Rule.typeArguments.Matches ss
      (TokenKind.lt.symbol :: args.symbols [] ++ [gtSymbol touches])
      [Phrase.typeArguments.over (TokenKind.lt.leaf :: args.trees [] ++ [TokenKind.gt.leaf])]
      rest := by
  refine .of_production hscan hne fun i s he h => ?_
  have hassoc : TokenKind.lt.symbol :: args.symbols [] ++ [gtSymbol touches] ++ rest =
      TokenKind.lt.symbol :: (args.symbols [] ++ (gtSymbol touches :: rest)) := by simp
  rw [hassoc] at h he
  refine h.expect rfl rfl fun {s₁} h₁ => ?_
  cases args with
  | nil =>
    have h₁ : Faces ss [TokenKind.lt.leaf] (gtSymbol touches :: rest) s₁ := h₁
    refine .notProvided (by rw [h₁.isAt_eq]; rfl) ?_
    exact h₁.expect rfl rfl fun h => h.closeLast rfl
  | cons first others =>
    have hfirst : (cons first others).symbols [] ++ (gtSymbol touches :: rest) =
        first.symbols others.isNil ++ (others.symbols [TokenKind.comma.symbol] ++
          (gtSymbol touches :: rest)) := by
      simp [symbols]
    rw [hfirst] at h₁ he
    refine .provided (by rw [h₁.isAt_eq, first.isAt_symbols rfl]; rfl) ?_
    refine h₁.read hmatched.1 (he.fewer h₁ (by simp)) fun h₂ => .loop ?_
    refine others.cycles rfl he hmatched.2 h₂ (by grind) fun h => ?_
    exact h.expect rfl rfl fun h => h.closeLast (by simp [trees, gtSymbol, TokenKind.leaf]; rfl)

end ArgTrees

/-! ### All types -/

mutual

/-- **A type is read of its symbols in any source.** -/
theorem TypeTree.matches_type {rest : List Symbol} {touches : Bool} (hscan : Scanned ss)
    (hne : rest ≠ []) (hrest : EndsType rest) (t : TypeTree) :
    Rule.type.Matches ss (t.symbols touches) [t.tree] rest := by
  cases t with
  | mk base dims =>
    have hbase : base.Matched ss (dims == 0 && touches) (dimSymbols dims ++ rest) :=
      base.matched hscan (List.append_ne_nil_of_right_ne_nil _ hne) (.dims hrest dims)
    exact .of_production hscan hne fun i s he h =>
      .nest (h.typeBody hscan he hne hrest (by decide) (by decide) hbase)

theorem BaseTree.matched {rest : List Symbol} {touches : Bool} (hscan : Scanned ss)
    (hne : rest ≠ []) (hrest : EndsClass rest) (base : BaseTree) :
    base.Matched ss touches rest := by
  cases base with
  | word word => trivial
  | named parts =>
    exact parts.matches_classType hscan hne hrest.2 (parts.matched hscan hne hrest.1)

theorem CoitTrees.matched {rest : List Symbol} {touches : Bool} (hscan : Scanned ss)
    (hne : rest ≠ []) (hrest : (kindAhead rest 0 == .lt) = false) (parts : CoitTrees) :
    parts.Matched ss touches rest := by
  cases parts with
  | last part => exact part.matches_coit hscan hne hrest
  | dot first others =>
    exact ⟨first.matches_coit hscan (List.cons_ne_nil _ _) rfl, others.matched hscan hne hrest⟩

theorem CoitTree.matches_coit {rest : List Symbol} {touches : Bool} (hscan : Scanned ss)
    (hne : rest ≠ []) (hrest : (kindAhead rest 0 == .lt) = false) (part : CoitTree) :
    Rule.coit.Matches ss (part.symbols touches) [part.tree] rest := by
  refine .of_production hscan hne fun i s he h => ?_
  cases part with
  | plain name =>
    have hnone := Grammar.matches_annotations hscan (List.cons_ne_nil name.symbol rest) rfl
    refine h.readNone hnone (he.same h (List.cons_ne_nil _ _) (by decide)) fun {s'} h => ?_
    have h : Faces ss [] (name.symbol :: rest) s' := h
    refine h.expect rfl rfl fun h => .bind (.isAt ?_)
    rw [h.isAt_eq, hrest]
    exact .pure (h.closeLast rfl)
  | generic name args =>
    have hargs : args.Matched ss (gtSymbol touches :: rest) :=
      args.matched hscan
    have hread : Rule.typeArguments.Matches ss _ _ rest :=
      args.matches_typeArguments hscan hne hargs
    have hassoc : (CoitTree.generic name args).symbols touches ++ rest = name.symbol ::
        ((TokenKind.lt.symbol :: args.symbols [] ++ [gtSymbol touches]) ++ rest) := rfl
    rw [hassoc] at h he
    refine h.readNone (Grammar.matches_annotations hscan (List.cons_ne_nil _ _) rfl)
      (he.same h (List.cons_ne_nil _ _) (by decide)) fun h => ?_
    refine h.expect rfl rfl fun h => .bind (.isAt ?_)
    rw [h.isAt_eq]
    refine (h.readLast hread (he.fewer h (by simp))).mono fun _ _ h => h.closeLast rfl

theorem ArgTrees.matched {rest : List Symbol} {touches : Bool} (hscan : Scanned ss)
    (args : ArgTrees) : args.Matched ss (gtSymbol touches :: rest) := by
  cases args with
  | nil => trivial
  | cons first others =>
    exact ⟨first.matches_typeArgument hscan (others.kind_behind touches rest),
      others.matched hscan⟩

theorem ArgTree.matches_typeArgument {rest : List Symbol} {touches : Bool} (hscan : Scanned ss)
    (hrest : kindAhead rest 0 ∈ [TokenKind.comma, .gt]) (arg : ArgTree) :
    Rule.typeArgument.Matches ss (arg.symbols touches) [arg.tree] rest := by
  have hne : rest ≠ [] := by
    rintro rfl
    exact absurd hrest (by decide)
  have hends : EndsType rest := Grammar.test_of_mem hrest
    (fun kind => [TokenKind.lt, .dot, .lbrack, .atSign].contains kind) rfl
  have hne' : arg.symbols touches ++ rest ≠ [] := List.append_ne_nil_of_right_ne_nil _ hne
  refine .of_production hscan hne fun i s he h => ?_
  refine h.readNone (Grammar.matches_annotations hscan hne' (arg.isAt_symbols rfl))
    (he.same h hne' (by decide)) fun {s'} h => ?_
  cases arg with
  | type type =>
    refine h.eatNone (type.isAt_symbols rfl) ?_
    cases type with
    | mk base dims =>
      have hbase : base.Matched ss (dims == 0 && touches) (dimSymbols dims ++ rest) :=
        base.matched hscan (List.append_ne_nil_of_right_ne_nil _ hne) (.dims hends dims)
      exact .nest (h.typeBody hscan he hne hends (by decide) (by decide) hbase)
  | wildcard =>
    have h : Faces ss [] (TokenKind.question.symbol :: rest) s' := h
    refine h.eat rfl rfl fun h => .notProvided ?_ (h.closeLast rfl)
    rw [h.isAt_eq, h.isAt_eq]
    exact Grammar.test_of_mem hrest (fun kind => kind == .extendsKw || kind == .superKw) rfl
  | bounded bound type =>
    have htype : Rule.type.Matches ss (type.symbols touches) [type.tree] rest :=
      type.matches_type hscan hne hends
    have h : Faces ss [] (TokenKind.question.symbol :: bound.kind.symbol ::
      (type.symbols touches ++ rest)) s' := h
    refine h.eat rfl rfl fun h => .provided (by rw [h.isAt_eq, h.isAt_eq]; cases bound <;> rfl) ?_
    refine h.take (by cases bound <;> rfl) fun h => ?_
    refine (h.readLast htype (he.fewer h ?_)).mono fun _ _ h => h.closeLast rfl
    simp only [ArgTree.symbols, Bound.symbols, List.length_append, List.length_cons]
    omega

end

end JavaSource
