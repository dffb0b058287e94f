import JavaSource.Proofs.Makes
import JavaSource.Proofs.Operators.Parentheses
import JavaSource.Proofs.Operators.Parsed
import JavaSource.Proofs.Operators.Printed
import JavaSource.Proofs.Rules

/-!
# Operators

Expressions made of names, calls by name, operators, member and array accesses
(`Node.Operational`) are the meanings of operator trees.  They are printed with the parentheses
that they need and with no others (`Node.Operational.print_faithful`): the text is parsed to the
expression, and without a pair of its parentheses it is not.

The second half is by counting.  A text has at least as many opening parentheses as its tokens,
these as many as the parse tree, and that one as many as the grouped tree
(`Tree.Regular.counted`), which has as many as the printed text.
-/

namespace JavaSource

open Text (Span isNameStart isNamePart)

/-! ### Parentheses of a text -/

namespace Lexer

variable {c : Char} {kind : TokenKind}

/-- A token written as one character takes that character from the text. -/
theorem next_count_le (hkind : kind.text? = some (String.singleton c)) {lexer behind : Lexer}
    {t : Token} (h : lexer.next = (.ok t, behind)) (ht : t.kind ≠ .eof) :
    behind.rest.count c + (if t.kind == kind then 1 else 0) ≤ lexer.rest.count c := by
  unfold next at h
  split at h
  · cases h
  · rename_i n _
    dsimp only at h
    split at h
    · cases h
      exact absurd rfl ht
    · rename_i first others hrest
      split at h
      · cases h
      · rename_i k hk
        cases h
        have hle : (first :: others).count c ≤ lexer.rest.count c :=
          hrest ▸ (List.drop_sublist n lexer.rest).count_le c
        refine Nat.le_trans ?_ hle
        dsimp only
        split
        · obtain rfl := beq_iff_eq.mp ‹_›
          obtain ⟨hstart, hlength⟩ := (lexeme_spells hk).2 _ hkind
          rw [String.toList_singleton] at hstart hlength
          obtain rfl := (List.cons_prefix_cons.mp hstart).1
          rw [← hlength, List.count_cons_self]
          exact Nat.le_refl _
        · exact Nat.le_trans ((List.drop_sublist _ others).count_le c) List.count_le_count_cons

/-- So do all tokens. -/
theorem tokens_count_le (hkind : kind.text? = some (String.singleton c)) (lexer : Lexer)
    {ts : List Token} (h : lexer.tokens = .ok ts) :
    ts.dropLast.countP (·.kind == kind) ≤ lexer.rest.count c := by
  fun_induction tokens lexer generalizing ts with
  | case1 => cases h
  | case2 =>
    cases h
    exact Nat.zero_le _
  | case3 => cases h
  | case4 lexer t behind hnext ht us hus ih =>
    cases h
    have hcount := next_count_le hkind hnext ht
    have hle := ih hus
    cases us with
    | nil => exact Nat.zero_le _
    | cons u us =>
      rw [List.dropLast_cons_cons, List.countP_cons]
      omega

end Lexer

/-- The leaves of a kind are as many as the tokens that they are split into, at most. -/
theorem countP_le_split (kind : TokenKind) (hkind : kind ≠ .rshift ∧ kind ≠ .urshift)
    (leaves : List Token) :
    leaves.countP (·.kind == kind) ≤ (leaves.flatMap Token.split).countP (·.kind == kind) := by
  induction leaves with
  | nil => exact Nat.le_refl 0
  | cons t leaves ih =>
    rw [List.countP_cons, List.flatMap_cons, List.countP_append]
    split
    · obtain rfl := beq_iff_eq.mp ‹_›
      rw [Token.split_eq_self hkind.1 hkind.2, List.countP_singleton, beq_self_eq_true, if_pos rfl]
      omega
    · omega

/-- A parse tree has no more opening parentheses than its source. -/
theorem opens_le_of_parseTree {mode : Mode} {limit : Nat} {source : String} {tree : Tree}
    (h : parseTree mode limit source = .ok tree) : tree.opens ≤ source.toList.count '(' := by
  obtain ⟨tokens, htokens, -, -, hleaves⟩ := parseTree_regular h
  calc tree.opens
    _ ≤ (tree.leaves.flatMap Token.split).countP (·.kind == .lparen) :=
      countP_le_split .lparen ⟨nofun, nofun⟩ tree.leaves
    _ = tokens.dropLast.countP (·.kind == .lparen) := by rw [hleaves]
    _ ≤ source.toList.count '(' := Lexer.tokens_count_le rfl _ htokens

/-- An expression that is parsed to an operator tree has the parentheses of the grouped tree. -/
theorem OpTree.opens_le_of_parse {t : OpTree} {limit : Nat} {source : String} {n : AnyNode}
    {spans : Spans} (h : parse .expr limit source = .ok n)
    (halike : n.Alike ⟨.expr, t.node spans⟩) : t.grouped.opens ≤ source.toList.count '(' := by
  cases htree : parseTree .expr limit source with
  | error fault =>
    rw [parse, htree] at h
    cases h
  | ok tree =>
    refine Nat.le_trans ?_ (opens_le_of_parseTree htree)
    obtain ⟨-, -, hregular, hphrase, -⟩ := parseTree_regular htree
    cases hregular with
    | leaf => cases hphrase
    | @node kind parts start stop holds hparts =>
      obtain rfl := Option.some.inj hphrase
      obtain ⟨p, rfl, hp⟩ := holds
      rw [parse, htree] at h
      change ((Tree.node .expressionStart [p] start stop).readOnly (·.readAny .expr)).mapError
        Failure.node = _ at h
      have hhead : (Tree.node .expressionStart [p] start stop).phrases.head? = some p := by
        simp [Tree.phrases_node, Tree.isSome_of_fits hp]
      rw [Tree.readOnly, hhead] at h
      dsimp only at h
      rw [Tree.readAny] at h
      cases hread : p.read .expr with
      | error e =>
        rw [hread] at h
        cases h
      | ok x =>
        rw [hread] at h
        cases h
        cases halike with
        | mk halike =>
          have hle := (hparts p (List.mem_singleton_self p)).counted.opens_le hp hread halike
          rw [Tree.opens_node]
          simpa using hle

/-! ### Parentheses of what is printed -/

/-- A name has no parentheses. -/
theorem LegalName.count_chars (n : LegalName) : n.chars.count '(' = 0 := by
  refine List.count_eq_zero.mpr fun hmem => ?_
  have hpart : isNamePart '(' = true := by
    rcases List.mem_cons.mp hmem with hfirst | hothers
    · exact hfirst ▸ Lexer.isNamePart_of_isNameStart n.starts
    · exact n.continues _ hothers
  exact absurd hpart (by decide)

mutual

/-- The opening parentheses of an expression as it is written. -/
theorem OpTree.count_chars : (t : OpTree) → t.chars.count '(' = t.opens
  | .head h => h.count_chars
  | .paren inner => by
    simp [OpTree.chars, OpTree.opens, inner.count_chars]
  | .binary op left right => by
    have hop : op.text.toList.count '(' = 0 := by cases op <;> decide
    simp [OpTree.chars, OpTree.opens, left.count_chars, right.count_chars, hop]
  | .unary op operand => by
    have hop : op.text.toList.count '(' = 0 := by cases op <;> decide
    simp only [OpTree.chars, OpTree.opens, List.count_append, operand.count_chars, hop]
    split <;> simp
  | .post op operand => by
    have hop : op.text.toList.count '(' = 0 := by cases op <;> decide
    simp [OpTree.chars, OpTree.opens, operand.count_chars, hop]
  | .conditional test body orelse => by
    simp [OpTree.chars, OpTree.opens, test.count_chars, body.count_chars, orelse.count_chars,
      Nat.add_assoc]
  | .assignment op target value => by
    have hop : (op.elim ['='] (·.text.toList)).count '(' = 0 := by
      cases op with
      | none => decide
      | some op => cases op <;> decide
    simp [OpTree.chars, OpTree.opens, target.count_chars, value.count_chars, hop]
  | .index receiver inner => by
    simp [OpTree.chars, OpTree.opens, receiver.count_chars, inner.count_chars]
  | .member receiver selected => by
    simp [OpTree.chars, OpTree.opens, receiver.count_chars, selected.count_chars]

theorem OpHead.count_chars : (h : OpHead) → h.chars.count '(' = h.opens
  | .name n => n.count_chars
  | .call n args => by
    simp [OpHead.chars, OpHead.opens, n.count_chars, args.count_chars List.count_nil]

theorem OpTrees.count_chars {lead : List Char} (hlead : lead.count '(' = 0) :
    (ts : OpTrees) → (ts.chars lead).count '(' = ts.opens
  | .nil => List.count_nil
  | .cons first others => by
    have hcomma : [',', ' '].count '(' = 0 := by decide
    simp [OpTrees.chars, OpTrees.opens, first.count_chars, others.count_chars hcomma, hlead]

end

/-! ### Expressions of operators -/

mutual

/-- An expression made of names, calls by name, operators, member and array accesses. -/
inductive Node.Operational : Expr → Prop where
  | head (head : Head e) : Operational e
  | binary (op : BinaryOp) (left : Operational a) (right : Operational b) :
    Operational (.binary s a (.binaryOperator op) b)
  | unary (op : UnaryOp) (operand : Operational a) : Operational (.unary s (.unaryOperator op) a)
  | post (op : PostOp) (operand : Operational a) : Operational (.post s a (.postOperator op))
  | conditional (test : Operational a) (body : Operational b) (orelse : Operational d) :
    Operational (.conditional s a b d)
  | assignment (target : Operational a) (value : Operational b) :
    Operational (.assignment s a .absent b)
  | compound (op : AssignOp) (target : Operational a) (value : Operational b) :
    Operational (.assignment s a (.present (.assignOperator op)) b)
  | index (receiver : Operational a) (inner : Operational b) : Operational (.index s a b)
  | member (receiver : Operational a) (selected : Head b) : Operational (.member s a b)

/-- A name, or a call by name. -/
inductive Node.Head : Expr → Prop where
  | name (n : LegalName) : Head (.name s (.identifier s' n.text))
  | call (n : LegalName) (args : Arguments as) :
    Head (.call s (.name s' (.identifier s'' n.text)) as)

/-- The arguments of a call. -/
inductive Node.Arguments : Nodes .expr → Prop where
  | nil : Arguments .nil
  | cons (first : Operational a) (others : Arguments as) : Arguments (.cons a as)

end

/-- A name of one letter, as an expression. -/
def Node.letter (c : Char) : Expr := .name none (.identifier none (String.ofList [c]))

theorem Node.Operational.letter (c : Char) (hstarts : isNameStart c = true)
    (hfree : TokenKind.keyword? (String.ofList [c]) = none) : (Node.letter c).Operational :=
  .head (.name (.letter c hstarts hfree))

/-- The spans of a node, from its own and those below its parts. -/
def Spans.over (span : Option Span) (parts : List Spans) : Spans
  | []           => span
  | part :: path => (parts[part]?.getD fun _ => none) path

mutual

/-- Such an expression is what an operator tree means. -/
theorem Node.Operational.exists_node {e : Expr} : e.Operational →
    ∃ (t : OpTree) (spans : Spans), t.node spans = e
  | .head h => by
    obtain ⟨t, spans, ht⟩ := h.exists_node
    exact ⟨.head t, spans, ht⟩
  | .binary op left right => by
    obtain ⟨l, lefts, rfl⟩ := left.exists_node
    obtain ⟨r, rights, rfl⟩ := right.exists_node
    exact ⟨.binary op l r, .over _ [lefts, rights], rfl⟩
  | .unary op operand => by
    obtain ⟨t, spans, rfl⟩ := operand.exists_node
    exact ⟨.unary op t, .over _ [spans], rfl⟩
  | .post op operand => by
    obtain ⟨t, spans, rfl⟩ := operand.exists_node
    exact ⟨.post op t, .over _ [spans], rfl⟩
  | .conditional test body orelse => by
    obtain ⟨t, tests, rfl⟩ := test.exists_node
    obtain ⟨b, bodies, rfl⟩ := body.exists_node
    obtain ⟨o, orelses, rfl⟩ := orelse.exists_node
    exact ⟨.conditional t b o, .over _ [tests, bodies, orelses], rfl⟩
  | .assignment target value => by
    obtain ⟨t, targets, rfl⟩ := target.exists_node
    obtain ⟨v, values, rfl⟩ := value.exists_node
    exact ⟨.assignment none t v, .over _ [targets, values], rfl⟩
  | .compound op target value => by
    obtain ⟨t, targets, rfl⟩ := target.exists_node
    obtain ⟨v, values, rfl⟩ := value.exists_node
    exact ⟨.assignment (some op) t v, .over _ [targets, values], rfl⟩
  | .index receiver inner => by
    obtain ⟨r, receivers, rfl⟩ := receiver.exists_node
    obtain ⟨i, inners, rfl⟩ := inner.exists_node
    exact ⟨.index r i, .over _ [receivers, inners], rfl⟩
  | .member receiver selected => by
    obtain ⟨r, receivers, rfl⟩ := receiver.exists_node
    obtain ⟨m, members, rfl⟩ := selected.exists_node
    exact ⟨.member r m, .over _ [receivers, members], rfl⟩

theorem Node.Head.exists_node {e : Expr} : e.Head →
    ∃ (h : OpHead) (spans : Spans), h.node spans = e
  | .name n => ⟨.name n, .over _ [fun _ => _], rfl⟩
  | .call n args => by
    obtain ⟨ts, spans, rfl⟩ := args.exists_node
    exact ⟨.call n ts, .over _ [.over _ [fun _ => _], spans], rfl⟩

theorem Node.Arguments.exists_node {as : Nodes .expr} : as.Arguments →
    ∃ (ts : OpTrees) (spans : Spans), ts.node spans = as
  | .nil => ⟨.nil, fun _ => none, rfl⟩
  | .cons first others => by
    obtain ⟨t, firsts, rfl⟩ := first.exists_node
    obtain ⟨ts, rest, rfl⟩ := others.exists_node
    exact ⟨.cons t ts, .over none [firsts, rest], rfl⟩

end

/-- What an operator tree is printed as is parsed to it. -/
theorem OpTree.parse_grouped (t : OpTree) (spans : Spans) (indent : Nat) :
    (t.node spans).print indent = .ok (String.ofList t.grouped.chars) ∧
      ∀ limit, (parseTreeWithin .expr limit (String.ofList t.grouped.chars)).isOk →
        ∃ n, parse .expr limit (String.ofList t.grouped.chars) = .ok n ∧
          n.Alike ⟨.expr, t.node spans⟩ := by
  refine ⟨t.print_node spans indent, fun limit hlimit => ?_⟩
  have hends : EndsName [] := ⟨nofun, by decide⟩
  have hlexes := t.grouped.lexes hends .nil t.layered_grouped
  rw [List.append_nil, List.append_nil] at hlexes
  obtain ⟨n, hparse, hn⟩ := OpTree.parse_of_lexes t.layered_grouped
    (String.toList_ofList.symm ▸ hlexes) hlimit
  rw [OpTree.meaning, OpTree.node_grouped] at hn
  cases hn with
  | mk hn => exact ⟨_, hparse, .mk (t.alike_node _ spans hn)⟩

/-- **An expression of operators is printed with the parentheses that it needs and no others,
whatever the indent.**  Its text is parsed to it wherever the limit is not met, as no large one is
(`isOk_parseTreeWithin`); without any pair of its parentheses it is parsed to something else, if at
all. -/
theorem Node.Operational.print_faithful {e : Expr} (h : e.Operational) (indent : Nat) :
    ∃ text, e.print indent = .ok text ∧
      (∀ limit, (parseTreeWithin .expr limit text).isOk →
        ∃ n, parse .expr limit text = .ok n ∧ n.Alike ⟨.expr, e⟩) ∧
      ∀ front inner behind, text.toList = front ++ '(' :: inner ++ ')' :: behind →
        ∀ limit n, parse .expr limit (String.ofList (front ++ inner ++ behind)) = .ok n →
          ¬ n.Alike ⟨.expr, e⟩ := by
  obtain ⟨t, spans, rfl⟩ := h.exists_node
  obtain ⟨hprint, hparse⟩ := t.parse_grouped spans indent
  refine ⟨_, hprint, hparse, fun front inner behind htext limit n hparse halike => ?_⟩
  have hle := OpTree.opens_le_of_parse hparse halike
  have hcount := t.grouped.count_chars
  rw [String.toList_ofList] at htext hle
  rw [htext] at hcount
  simp only [List.count_append, List.count_cons] at hcount hle
  simp at hcount
  omega

/-- A product whose left factor is a sum. -/
theorem Node.Operational.print_faithful_product :
    ∃ e : Expr, e.Operational ∧ e.print 4 = .ok "(a + b) * c" ∧
      (∃ n, parse .expr 20 "(a + b) * c" = .ok n ∧ n.Alike ⟨.expr, e⟩) ∧
      ∀ limit n, parse .expr limit "a + b * c" = .ok n → ¬ n.Alike ⟨.expr, e⟩ := by
  let e : Expr := .binary none (.binary none (.letter 'a') (.binaryOperator .add) (.letter 'b'))
    (.binaryOperator .mul) (.letter 'c')
  have he : e.Operational :=
    .binary .mul (.binary .add (.letter 'a' rfl (by decide)) (.letter 'b' rfl (by decide)))
      (.letter 'c' rfl (by decide))
  have hprint : e.print 4 = .ok "(a + b) * c" := by rfl
  obtain ⟨text, htext, hparse, hwithout⟩ := he.print_faithful 4
  obtain rfl : text = "(a + b) * c" := Except.ok.inj (htext.symm.trans hprint)
  refine ⟨e, he, hprint, hparse 20 (by decide +kernel), fun limit n hn => ?_⟩
  exact hwithout [] "a + b".toList " * c".toList (by decide) limit n hn

end JavaSource
