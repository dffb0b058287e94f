import JavaSource.Printing.Context
import JavaSource.Proofs.Operators
import JavaSource.Proofs.Preorder
import JavaSource.Proofs.Statements.Tree

/-!
# Structured statements

A statement ends open if an `else` behind it would be taken for one of its own (`Node.EndsOpen`),
and a branch dangles if it ends open with an `else` behind it (`AnyNode.Dangles`).  `Node.braced`
puts braces around the branches that dangle and around nothing else.

Structured statements (`Node.Structured`) are the meanings of statement trees.  Braces keep their
branches (`Node.Structured.branches_braced`): each `if` has an `else` if it had one.
-/

namespace JavaSource

open Text (Span)

/-- An `if` without `else` ends a statement. -/
inductive Node.EndsOpen : Stmt → Prop where
  | ifThen : EndsOpen (.ifStmt s e b .absent)
  | ifElse (orelse : EndsOpen o) : EndsOpen (.ifStmt s e b (.present o))
  | whileLoop (body : EndsOpen b) : EndsOpen (.whileStmt s e b)
  | forLoop (body : EndsOpen b) : EndsOpen (.forStmt s init test es b)
  | forEach (body : EndsOpen b) : EndsOpen (.forEachStmt s ms ty i e b)
  | labeled (body : EndsOpen b) : EndsOpen (.labeledStmt s i b)

theorem Node.EndsOpen.endsInOpenIf {s : Stmt} (h : s.EndsOpen) : s.endsInOpenIf = true := by
  induction h with
  | ifThen => rfl
  | ifElse _ ih | whileLoop _ ih | forLoop _ ih | forEach _ ih | labeled _ ih => exact ih

theorem Node.endsOpen_of_endsInOpenIf : (s : Stmt) → s.endsInOpenIf = true → s.EndsOpen
  | .ifStmt _ _ _ .absent, _ => .ifThen
  | .ifStmt _ _ _ (.present orelse), h => .ifElse (endsOpen_of_endsInOpenIf orelse h)
  | .whileStmt _ _ body, h => .whileLoop (endsOpen_of_endsInOpenIf body h)
  | .forStmt _ _ _ _ body, h => .forLoop (endsOpen_of_endsInOpenIf body h)
  | .forEachStmt _ _ _ _ _ body, h => .forEach (endsOpen_of_endsInOpenIf body h)
  | .labeledStmt _ _ body, h => .labeled (endsOpen_of_endsInOpenIf body h)

theorem Node.endsInOpenIf_iff {s : Stmt} : s.endsInOpenIf = true ↔ s.EndsOpen :=
  ⟨Node.endsOpen_of_endsInOpenIf s, Node.EndsOpen.endsInOpenIf⟩

instance (s : Stmt) : Decidable s.EndsOpen := decidable_of_iff _ Node.endsInOpenIf_iff

/-- A branch that ends open has an `else` behind it. -/
inductive AnyNode.Dangles : AnyNode → Prop where
  | mk (body : b.EndsOpen) : Dangles ⟨.stmt, .ifStmt s e b (.present o)⟩

/-- A statement with braces around each branch that ends open in front of an `else`. -/
def Node.braced : {c : Category} → Node c → Node c
  | _, .nil => .nil
  | _, .cons s ss => .cons s.braced ss.braced
  | _, .blockStmt body => .blockStmt body.braced
  | _, .block span body => .block span body.braced
  | _, .ifStmt span test body .absent => .ifStmt span test body.braced .absent
  | _, .ifStmt span test body (.present orelse) =>
    .ifStmt span test
      (if body.EndsOpen then .blockStmt (.block none (.cons body.braced .nil)) else body.braced)
      (.present orelse.braced)
  | _, .whileStmt span test body => .whileStmt span test body.braced
  | _, .doWhileStmt span body test => .doWhileStmt span body.braced test
  | _, .forStmt span init test update body => .forStmt span init test update body.braced
  | _, .forEachStmt span modifiers ty id iter body =>
    .forEachStmt span modifiers ty id iter body.braced
  | _, .labeledStmt span label body => .labeledStmt span label body.braced
  | _, n => n

/-! ### Branches -/

/-- The test of an `if`, and whether there is an `else`. -/
def AnyNode.branch? : AnyNode → Option (Expr × Bool)
  | ⟨_, .ifStmt _ test _ orelse⟩ => some (test, orelse.isSome)
  | _ => none

/-- The branches in a tree, from left to right. -/
def Node.branches {c : Category} (n : Node c) : List (Expr × Bool) :=
  (n.preorder true).filterMap AnyNode.branch?

/-- Lists of nodes with the same branches. -/
abbrev SameBranches (ns ns' : List AnyNode) : Prop :=
  ns.filterMap AnyNode.branch? = ns'.filterMap AnyNode.branch?

theorem SameBranches.append {ns ns' ms ms' : List AnyNode} (h : SameBranches ns ns')
    (h' : SameBranches ms ms') : SameBranches (ns ++ ms) (ns' ++ ms') := by
  rw [SameBranches, List.filterMap_append, List.filterMap_append, h, h']

/-- A node has the branches of its parts, and its own if it is one. -/
theorem SameBranches.tree {n n' : AnyNode} {parts parts' : List (List AnyNode)}
    (h : n.branch? = n'.branch?) (hparts : List.Forall₂ SameBranches parts parts') :
    SameBranches (n :: parts.flatten) (n' :: parts'.flatten) := by
  change SameBranches ([n] ++ parts.flatten) ([n'] ++ parts'.flatten)
  refine .append ?_ ?_
  · rw [SameBranches, List.filterMap_cons, List.filterMap_cons, h]
  · induction hparts with
    | nil => rfl
    | cons hpart _ ih => exact .append hpart ih

/-- Braces around a statement are no branch. -/
theorem Node.branches_block {s : Option Span} (b : Stmt) :
    (blockStmt (.block s (.cons b .nil))).branches = b.branches := by
  change (([] : List AnyNode) ++ [b.preorder true ++ []].flatten).filterMap AnyNode.branch? = _
  rw [List.nil_append, List.flatten_singleton, List.append_nil, branches]

/-! ### Structured statements -/

mutual

/-- A statement made of blocks, branches, loops over expressions of operators, labels, jumps and
calls by name. -/
inductive Node.Structured : Stmt → Prop where
  | empty : Structured (.emptyStmt s)
  | block (body : AllStructured ss) : Structured (.blockStmt (.block s ss))
  | ifThen (test : Operational e) (body : Structured b) : Structured (.ifStmt s e b .absent)
  | ifElse (test : Operational e) (body : Structured b) (orelse : Structured o) :
    Structured (.ifStmt s e b (.present o))
  | whileLoop (test : Operational e) (body : Structured b) : Structured (.whileStmt s e b)
  | doWhile (body : Structured b) (test : Operational e) : Structured (.doWhileStmt s b e)
  | forLoop (update : Arguments es) (body : Structured b) :
    Structured (.forStmt s .noInit .absent es b)
  | forTest (test : Operational e) (update : Arguments es) (body : Structured b) :
    Structured (.forStmt s .noInit (.present e) es b)
  | forEach (ty id : LegalName) (plain : ty.IsPlain) (iter : Operational e) (body : Structured b) :
    Structured (.forEachStmt s .nil
      (.classType s₁ .nil (.cons (.coit s₂ .nil (.identifier s₃ ty.text) .absent) .nil))
      (.variableDeclaratorId s₄ (.identifier s₅ id.text) .nil) e b)
  | labeled (label : LegalName) (body : Structured b) :
    Structured (.labeledStmt s (.identifier s₁ label.text) b)
  | break : Structured (.breakStmt s .absent)
  | breakTo (label : LegalName) :
    Structured (.breakStmt s (.present (.identifier s₁ label.text)))
  | continue : Structured (.continueStmt s .absent)
  | continueTo (label : LegalName) :
    Structured (.continueStmt s (.present (.identifier s₁ label.text)))
  | call (func : LegalName) (plain : func.IsPlain) (args : Arguments es) :
    Structured (.exprStmt s (.call s₁ (.name s₂ (.identifier s₃ func.text)) es))

/-- Several such statements. -/
inductive Node.AllStructured : Nodes .stmt → Prop where
  | nil : AllStructured .nil
  | cons (first : Structured a) (others : AllStructured as) : AllStructured (.cons a as)

end

mutual

/-- Such a statement is what a statement tree means. -/
theorem Node.Structured.exists_node {s : Stmt} : s.Structured →
    ∃ (t : StmtTree) (spans : Spans), t.node spans = s
  | .empty => ⟨.empty, .over _ [], rfl⟩
  | .block body => by
    obtain ⟨ts, spans, rfl⟩ := body.exists_node
    exact ⟨.block ts, .over _ [spans], rfl⟩
  | .ifThen test body => by
    obtain ⟨t, tests, rfl⟩ := test.exists_node
    obtain ⟨b, bodies, rfl⟩ := body.exists_node
    exact ⟨.ifThen t b, .over _ [tests, bodies], rfl⟩
  | .ifElse test body orelse => by
    obtain ⟨t, tests, rfl⟩ := test.exists_node
    obtain ⟨b, bodies, rfl⟩ := body.exists_node
    obtain ⟨o, orelses, rfl⟩ := orelse.exists_node
    exact ⟨.ifElse t b o, .over _ [tests, bodies, orelses], rfl⟩
  | .whileLoop test body => by
    obtain ⟨t, tests, rfl⟩ := test.exists_node
    obtain ⟨b, bodies, rfl⟩ := body.exists_node
    exact ⟨.whileLoop t b, .over _ [tests, bodies], rfl⟩
  | .doWhile body test => by
    obtain ⟨b, bodies, rfl⟩ := body.exists_node
    obtain ⟨t, tests, rfl⟩ := test.exists_node
    exact ⟨.doWhile b t, .over _ [bodies, tests], rfl⟩
  | .forLoop update body => by
    obtain ⟨us, updates, rfl⟩ := update.exists_node
    obtain ⟨b, bodies, rfl⟩ := body.exists_node
    exact ⟨.forLoop none us b, .over _ [fun _ => none, updates, bodies], rfl⟩
  | .forTest test update body => by
    obtain ⟨t, tests, rfl⟩ := test.exists_node
    obtain ⟨us, updates, rfl⟩ := update.exists_node
    obtain ⟨b, bodies, rfl⟩ := body.exists_node
    exact ⟨.forLoop (some t) us b, .over _ [tests, updates, bodies], rfl⟩
  | .forEach ty id plain iter body => by
    obtain ⟨i, iters, rfl⟩ := iter.exists_node
    obtain ⟨b, bodies, rfl⟩ := body.exists_node
    exact ⟨.forEach ty id plain i b,
      .over _ [.over _ [.over _ [.over _ []]], .over _ [.over _ []], iters, bodies], rfl⟩
  | .labeled label body => by
    obtain ⟨b, bodies, rfl⟩ := body.exists_node
    exact ⟨.labeled label b, .over _ [.over _ [], bodies], rfl⟩
  | .break => ⟨.jump .break none, .over _ [], rfl⟩
  | .breakTo label => ⟨.jump .break (some label), .over _ [.over _ []], rfl⟩
  | .continue => ⟨.jump .continue none, .over _ [], rfl⟩
  | .continueTo label => ⟨.jump .continue (some label), .over _ [.over _ []], rfl⟩
  | .call func plain args => by
    obtain ⟨ts, spans, rfl⟩ := args.exists_node
    exact ⟨.call func plain ts, .over _ [.over _ [.over _ [.over _ []], spans]], rfl⟩

theorem Node.AllStructured.exists_node {ss : Nodes .stmt} : ss.AllStructured →
    ∃ (ts : StmtTrees) (spans : Spans), ts.node spans = ss
  | .nil => ⟨.nil, .over none [], rfl⟩
  | .cons first others => by
    obtain ⟨t, firsts, rfl⟩ := first.exists_node
    obtain ⟨ts, rest, rfl⟩ := others.exists_node
    exact ⟨.cons t ts, .over none [firsts, rest], rfl⟩

end

mutual

/-- **Braces keep the branches**: an `if` has an `else` if and only if it had one. -/
theorem Node.Structured.branches_braced {s : Stmt} : s.Structured → s.braced.branches = s.branches
  | .empty | .break | .breakTo _ | .continue | .continueTo _ | .call .. => rfl
  | .block body => SameBranches.tree rfl (.cons body.branches_braced .nil)
  | .ifThen _ body =>
    SameBranches.tree rfl (.cons rfl (.cons body.branches_braced (.cons rfl .nil)))
  | .ifElse (b := b) _ body orelse => by
    refine SameBranches.tree rfl (.cons rfl (.cons ?_ (.cons orelse.branches_braced .nil)))
    split
    · exact (branches_block b.braced).trans body.branches_braced
    · exact body.branches_braced
  | .whileLoop _ body => SameBranches.tree rfl (.cons rfl (.cons body.branches_braced .nil))
  | .doWhile body _ => SameBranches.tree rfl (.cons body.branches_braced (.cons rfl .nil))
  | .forLoop _ body | .forTest _ _ body => SameBranches.tree rfl
    (.cons rfl (.cons rfl (.cons rfl (.cons body.branches_braced .nil))))
  | .forEach _ _ _ _ body => SameBranches.tree rfl
    (.cons rfl (.cons rfl (.cons rfl (.cons rfl (.cons body.branches_braced .nil)))))
  | .labeled _ body => SameBranches.tree rfl (.cons rfl (.cons body.branches_braced .nil))

theorem Node.AllStructured.branches_braced {ss : Nodes .stmt} : ss.AllStructured →
    ss.braced.branches = ss.branches
  | .nil => rfl
  | .cons first others => SameBranches.append first.branches_braced others.branches_braced

end

mutual

/-- Where no branch dangles, there are no braces to add. -/
theorem Node.Structured.braced_eq {s : Stmt} : s.Structured → s.Each (¬ ·.Dangles) → s.braced = s
  | .empty, _ | .break, _ | .breakTo _, _ | .continue, _ | .continueTo _, _ | .call .., _ => rfl
  | .block body, h => by
    obtain ⟨-, hbody, -⟩ := Each.parts h
    exact congrArg (fun ss => blockStmt (.block _ ss)) (body.braced_eq hbody)
  | .ifThen _ body, h => by
    obtain ⟨-, -, hbody, -⟩ := Each.parts h
    exact congrArg (ifStmt _ _ · _) (body.braced_eq hbody)
  | .ifElse (b := b) _ body orelse, h => by
    obtain ⟨hself, -, hbody, horelse, -⟩ := Each.parts h
    have hclosed : ¬ b.EndsOpen := fun hopen => hself (.mk hopen)
    rw [braced, if_neg hclosed, body.braced_eq hbody, orelse.braced_eq horelse]
  | .whileLoop _ body, h => by
    obtain ⟨-, -, hbody, -⟩ := Each.parts h
    exact congrArg (whileStmt _ _ ·) (body.braced_eq hbody)
  | .doWhile body _, h => by
    obtain ⟨-, hbody, -⟩ := Each.parts h
    exact congrArg (doWhileStmt _ · _) (body.braced_eq hbody)
  | .forLoop _ body, h | .forTest _ _ body, h => by
    obtain ⟨-, -, -, -, hbody, -⟩ := Each.parts h
    exact congrArg (forStmt _ _ _ _ ·) (body.braced_eq hbody)
  | .forEach _ _ _ _ body, h => by
    obtain ⟨-, -, -, -, -, hbody, -⟩ := Each.parts h
    exact congrArg (forEachStmt _ _ _ _ _ ·) (body.braced_eq hbody)
  | .labeled _ body, h => by
    obtain ⟨-, -, hbody, -⟩ := Each.parts h
    exact congrArg (labeledStmt _ _ ·) (body.braced_eq hbody)

theorem Node.AllStructured.braced_eq {ss : Nodes .stmt} : ss.AllStructured →
    ss.Each (¬ ·.Dangles) → ss.braced = ss
  | .nil, _ => rfl
  | .cons first others, h => by
    obtain ⟨hfirst, hothers⟩ := List.forall_mem_append.mp h
    rw [braced, first.braced_eq hfirst, others.braced_eq hothers]

end

end JavaSource
