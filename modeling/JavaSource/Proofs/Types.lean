import JavaSource.Proofs.Operators
import JavaSource.Proofs.Parsing
import JavaSource.Proofs.Types.Declarations

/-!
# Types

Types without annotations (`Node.Plain`) are the meanings of type trees.  A variable of such a type
is printed as it is written, and what is printed is parsed to it
(`Node.Plain.parse_print_variable`): a `>` at the end of type arguments is never taken for part of a
shift or of an assignment, however many of them pile up.
-/

namespace JavaSource

open Node (Alike)

/-- Dimensions without annotations. -/
inductive Node.PlainDims : Nodes .dim → Prop where
  | nil : PlainDims .nil
  | cons (others : PlainDims ds) : PlainDims (.cons (.dim s .nil) ds)

mutual

/-- A type without annotations, with dimensions or without. -/
inductive Node.Plain : TypeNode → Prop where
  | base (base : PlainBase ty) : Plain ty
  | array (elem : PlainBase ty) (dims : PlainDims ds) :
    Plain (.arrayType s .nil ty (.cons (.dim s₁ .nil) ds))

/-- A primitive type, or a class type whose names are names everywhere. -/
inductive Node.PlainBase : TypeNode → Prop where
  | word (word : Primitive) : PlainBase (.wordType s .nil word.word)
  | named (parts : PlainParts ps) : PlainBase (.classType s .nil ps)

/-- The parts of a class type. -/
inductive Node.PlainParts : Nodes .coit → Prop where
  | last (part : PlainPart p) : PlainParts (.cons p .nil)
  | dot (first : PlainPart p) (others : PlainParts ps) : PlainParts (.cons p ps)

/-- A part of a class type: a name, with type arguments or without. -/
inductive Node.PlainPart : Node .coit → Prop where
  | plain (name : LegalName) (plain : name.IsPlain) :
    PlainPart (.coit s .nil (.identifier s₁ name.text) .absent)
  | generic (name : LegalName) (plain : name.IsPlain) (args : PlainArgs as) :
    PlainPart (.coit s .nil (.identifier s₁ name.text) (.present (.typeArguments s₂ as)))

/-- Type arguments, or the diamond. -/
inductive Node.PlainArgs : Nodes .type → Prop where
  | nil : PlainArgs .nil
  | cons (first : PlainArg a) (others : PlainArgs as) : PlainArgs (.cons a as)

/-- A type argument: a type, or a wildcard. -/
inductive Node.PlainArg : TypeNode → Prop where
  | type (type : Plain ty) : PlainArg ty
  | wildcard : PlainArg (.wildcardType s .nil .absent)
  | extends (type : Plain ty) :
    PlainArg (.wildcardType s .nil (.present (.wildcardBound s₁ ty true false)))
  | super (type : Plain ty) :
    PlainArg (.wildcardType s .nil (.present (.wildcardBound s₁ ty false true)))

end

/-! ### Type trees -/

theorem Node.PlainDims.exists_node {ds : Nodes .dim} : ds.PlainDims →
    ∃ (dims : Nat) (spans : Spans), dimNodes spans dims = ds
  | .nil => ⟨0, .over none [], rfl⟩
  | .cons others => by
    obtain ⟨dims, spans, rfl⟩ := others.exists_node
    exact ⟨dims + 1, .over none [.over _ [], spans], rfl⟩

theorem CoitTree.isClass_last {part : CoitTree} (h : part.name.IsPlain) :
    (CoitTrees.last part).IsClass := by
  cases part with
  | plain name => exact h.ne (by decide)
  | generic name args => trivial

mutual

/-- Such a type is what a type tree means. -/
theorem Node.Plain.exists_node {ty : TypeNode} : ty.Plain →
    ∃ (t : TypeTree) (spans : Spans), t.node spans = ty ∧ t.HasClasses ∧ t.StartsPlain
  | .base base => by
    obtain ⟨b, spans, rfl, hclasses, hstarts⟩ := base.exists_node
    exact ⟨.mk b 0, spans, rfl, hclasses, hstarts⟩
  | .array elem dims => by
    obtain ⟨b, bases, rfl, hclasses, hstarts⟩ := elem.exists_node
    obtain ⟨n, spans, rfl⟩ := dims.exists_node
    exact ⟨.mk b (n + 1), .over _ [bases, .over none [.over _ [], spans]], rfl, hclasses, hstarts⟩

theorem Node.PlainBase.exists_node {ty : TypeNode} : ty.PlainBase →
    ∃ (b : BaseTree) (spans : Spans), b.node spans = ty ∧ b.HasClasses ∧ b.StartsPlain
  | .word word => ⟨.word word, .over _ [], rfl, trivial, trivial⟩
  | .named parts => by
    obtain ⟨ps, spans, rfl, hclasses, hclass, hstarts⟩ := parts.exists_node
    exact ⟨.named ps, .over _ [spans], rfl, ⟨hclass, hclasses⟩, hstarts⟩

theorem Node.PlainParts.exists_node {ps : Nodes .coit} : ps.PlainParts →
    ∃ (parts : CoitTrees) (spans : Spans), parts.node spans = ps ∧ parts.HasClasses ∧
      parts.IsClass ∧ parts.front.IsPlain
  | .last part => by
    obtain ⟨p, spans, rfl, hclasses, hplain⟩ := part.exists_node
    exact ⟨.last p, .over none [spans], rfl, hclasses, CoitTree.isClass_last hplain, hplain⟩
  | .dot first others => by
    obtain ⟨p, firsts, rfl, hfirst, hplain⟩ := first.exists_node
    obtain ⟨ps, spans, rfl, hothers, -, -⟩ := others.exists_node
    exact ⟨.dot p ps, .over none [firsts, spans], rfl, ⟨hfirst, hothers⟩, trivial, hplain⟩

theorem Node.PlainPart.exists_node {p : Node .coit} : p.PlainPart →
    ∃ (part : CoitTree) (spans : Spans), part.node spans = p ∧ part.HasClasses ∧ part.name.IsPlain
  | .plain n plain => ⟨.plain n, .over _ [.over _ []], rfl, trivial, plain⟩
  | .generic n plain args => by
    obtain ⟨as, spans, rfl, hclasses⟩ := args.exists_node
    exact ⟨.generic n as, .over _ [.over _ [], .over _ [], spans], rfl, hclasses, plain⟩

theorem Node.PlainArgs.exists_node {as : Nodes .type} : as.PlainArgs →
    ∃ (args : ArgTrees) (spans : Spans), args.node spans = as ∧ args.HasClasses
  | .nil => ⟨.nil, .over none [], rfl, trivial⟩
  | .cons first others => by
    obtain ⟨a, firsts, rfl, hfirst⟩ := first.exists_node
    obtain ⟨as, spans, rfl, hothers⟩ := others.exists_node
    exact ⟨.cons a as, .over none [firsts, spans], rfl, hfirst, hothers⟩

theorem Node.PlainArg.exists_node {a : TypeNode} : a.PlainArg →
    ∃ (arg : ArgTree) (spans : Spans), arg.node spans = a ∧ arg.HasClasses
  | .type type => by
    obtain ⟨t, spans, rfl, hclasses, -⟩ := type.exists_node
    exact ⟨.type t, spans, rfl, hclasses⟩
  | .wildcard => ⟨.wildcard, .over _ [], rfl, trivial⟩
  | .extends type => by
    obtain ⟨t, spans, rfl, hclasses, -⟩ := type.exists_node
    exact ⟨.bounded .extends t, .over _ [.over _ [], spans], rfl, hclasses⟩
  | .super type => by
    obtain ⟨t, spans, rfl, hclasses, -⟩ := type.exists_node
    exact ⟨.bounded .super t, .over _ [.over _ [], spans], rfl, hclasses⟩

end

/-! ### Variables -/

/-- What is alike the declaration of a variable is so wherever that stands. -/
theorem TypeTree.alike_variable (t : TypeTree) (x : LegalName) (spans spans' : Spans) {n : Stmt}
    (h : n.Alike (t.variable x spans)) : n.Alike (t.variable x spans') := by
  cases h with
  | localVariableStmt hlocals =>
    cases hlocals with
    | localVariables hmodifiers htype hdeclarators =>
      cases hdeclarators with
      | cons hdeclarator hnone =>
        cases hdeclarator with
        | variableDeclarator hvariable hvalue =>
          cases hvariable with
          | variableDeclaratorId hid hdims =>
            exact .localVariableStmt (.localVariables hmodifiers (t.alike_node _ _ htype)
              (.cons (.variableDeclarator
                (.variableDeclaratorId (x.alike_identifier _ _ hid) hdims) hvalue) hnone))

/-- The parse tree of a whole source that declares a variable. -/
theorem TypeTree.readWhole_over {t : TypeTree} (hclasses : t.HasClasses) (x : LegalName) :
    (Phrase.statementStart.over [t.variableTree x]).readWhole =
      .ok ⟨.stmt, t.variable x .nowhere⟩ := by
  change (Phrase.statementStart.over [t.variableTree x]).readOnly (·.readAny .stmt) = _
  rw [Tree.readOnly]
  change (t.variableTree x).readAny .stmt = _
  rw [Tree.readAny, t.read_variableTree hclasses]
  rfl

/-- The declaration of a variable of a type. -/
def Node.declaring (ty : TypeNode) (x : LegalName) : Stmt :=
  .localVariableStmt (.localVariables none .nil ty (.cons (.variableDeclarator none
    (.variableDeclaratorId none (.identifier none x.text) .nil) .absent) .nil))

/-- **A variable of a type without annotations is printed and parsed to itself, whatever the indent
and however deeply the type is nested.**  The limit is not met where it is large
(`isOk_parseTreeWithin`). -/
theorem Node.Plain.parse_print_variable {ty : TypeNode} (h : ty.Plain) (x : LegalName)
    (indent : Nat) : ∃ text, (declaring ty x).print indent = .ok text ∧
      ∀ limit, (parseTreeWithin .stmt limit text).isOk →
        ∃ n, parse .stmt limit text = .ok n ∧ n.Alike ⟨.stmt, declaring ty x⟩ := by
  obtain ⟨t, spans, rfl, hclasses, hplain⟩ := h.exists_node
  have hnode : t.variable x (.over none [spans]) = declaring (t.node spans) x := rfl
  obtain ⟨text, htext, hlexes⟩ := (t.lexes_variable x (.over none [spans])).render trivial indent
  refine ⟨text, htext, fun limit hlimit => ?_⟩
  have htakes : Mode.stmt.start.Takes _ 0 _ _ :=
    TypeTree.matches_statementStart hplain hlexes.scanned 0 rfl
  have hunplaced : (Phrase.statementStart.over [t.variableTree x]).unplaced =
      Phrase.statementStart.over [t.variableTree x] := by
    rw [Phrase.unplaced_over, List.map_cons, t.unplaced_variableTree, List.map_nil]
  rw [← hunplaced] at htakes
  obtain ⟨n, hparse, hn⟩ := parse_of_takes hlexes htakes (TypeTree.readWhole_over hclasses x) hlimit
  cases hn with
  | mk hn => exact ⟨_, hparse, .mk (hnode ▸ t.alike_variable x _ _ hn)⟩

/-- Type arguments nested so that three `>` touch. -/
theorem Node.Plain.parse_print_variable_nested : ∃ (ty : TypeNode) (x : LegalName), ty.Plain ∧
    (declaring ty x).print 4 = .ok "A.B<C<? super D<int[]>>>[][] x;" ∧
    ∃ n, parse .stmt 30 "A.B<C<? super D<int[]>>>[][] x;" = .ok n ∧
      n.Alike ⟨.stmt, declaring ty x⟩ := by
  let x := LegalName.letter 'x' rfl (by decide)
  let coit (c : Char) (a : TypeNode) : Node .coit := .coit none .nil
    (.identifier none (String.ofList [c])) (.present (.typeArguments none (.cons a .nil)))
  let ints : TypeNode := .arrayType none .nil (.wordType none .nil .int) (.cons (.dim none .nil) .nil)
  let wild : TypeNode := .wildcardType none .nil (.present (.wildcardBound none
    (.classType none .nil (.cons (coit 'D' ints) .nil)) false true))
  let ty : TypeNode := .arrayType none .nil
    (.classType none .nil (.cons (.coit none .nil (.identifier none (String.ofList ['A'])) .absent)
      (.cons (coit 'B' (.classType none .nil (.cons (coit 'C' wild) .nil))) .nil)))
    (.cons (.dim none .nil) (.cons (.dim none .nil) .nil))
  have hints : ints.Plain := .array (.word .int) .nil
  have hwild : wild.PlainArg := .super (.base (.named (.last
    (.generic (.letter 'D' rfl (by decide)) (by decide) (.cons (.type hints) .nil)))))
  have hinner : PlainArg (.classType none .nil (.cons (coit 'C' wild) .nil)) :=
    .type (.base (.named (.last
      (.generic (.letter 'C' rfl (by decide)) (by decide) (.cons hwild .nil)))))
  have hty : ty.Plain := .array (.named (.dot (.plain (.letter 'A' rfl (by decide)) (by decide))
    (.last (.generic (.letter 'B' rfl (by decide)) (by decide) (.cons hinner .nil))))) (.cons .nil)
  have hprint : (declaring ty x).print 4 = .ok "A.B<C<? super D<int[]>>>[][] x;" := by rfl
  obtain ⟨text, htext, hparse⟩ := hty.parse_print_variable x 4
  obtain rfl := Except.ok.inj (htext.symm.trans hprint)
  exact ⟨ty, x, hty, hprint, hparse 30 (by decide +kernel)⟩

end JavaSource
