import Mathlib
import JavaSource.Proofs.Layout.Alike
import JavaSource.Proofs.Makes
import JavaSource.Proofs.Operators.Grouping
import JavaSource.Proofs.Phrases
import JavaSource.Proofs.Reading.Trees

/-!
# How many parentheses an expression needs

`Tree.opens` counts the opening parentheses of a parse tree.  A regular tree that is read as an
operator tree holds at least as many as the grouped tree: an operand that holds together less
tightly than its place demands is a phrase in parentheses, since the shapes leave no other way
(`Tree.Regular.grouped_opens_le`).
-/

namespace JavaSource

open Phrase

/-! ### Counting -/

/-- The number of opening parentheses. -/
def Tree.opens (t : Tree) : Nat := t.leaves.countP (·.kind == .lparen)

namespace Tree

theorem opens_node (kind : Phrase) (ts : List Tree) (start stop : Location) :
    (node kind ts start stop).opens = (ts.map opens).sum := by
  rw [opens, leaves, leavesAll_eq_flatMap, List.countP_flatMap]
  rfl

theorem opens_leaf (t : Token) : (leaf t).opens = if t.kind == .lparen then 1 else 0 := by
  rw [opens, leaves, List.countP_singleton]

end Tree

/-! ### Operator trees without parentheses around them -/

/-- Whether an expression stands in parentheses. -/
def OpTree.isParen : OpTree → Bool
  | .paren _ => true
  | _        => false

/-- An expression with no parentheses around it that means the same. -/
theorem OpTree.exists_bare : (t : OpTree) → ∃ t' : OpTree, t'.isParen = false ∧
    (∀ spans, t'.node spans = t.node spans) ∧ t'.grouped = t.grouped
  | .paren inner => inner.exists_bare
  | .head h => ⟨.head h, rfl, fun _ => rfl, rfl⟩
  | .binary op l r => ⟨.binary op l r, rfl, fun _ => rfl, rfl⟩
  | .unary op t => ⟨.unary op t, rfl, fun _ => rfl, rfl⟩
  | .post op t => ⟨.post op t, rfl, fun _ => rfl, rfl⟩
  | .conditional a b d => ⟨.conditional a b d, rfl, fun _ => rfl, rfl⟩
  | .assignment op a b => ⟨.assignment op a b, rfl, fun _ => rfl, rfl⟩
  | .index a b => ⟨.index a b, rfl, fun _ => rfl, rfl⟩
  | .member a h => ⟨.member a h, rfl, fun _ => rfl, rfl⟩

/-! ### What is read from which phrase -/

/-- Whether an expression without parentheses around it can be read from a kind of phrase; of what
no operator tree is made of nothing is said. -/
def Node.readFrom : Expr → Phrase → Bool
  | .name .., kind        => kind == .plainName
  | .call .., kind        => kind == .methodCall
  | .binary .., kind      => Opened.isChain kind && kind != .memberAccess && kind != .arrayAccess
  | .unary .., kind       => kind == .prefixed
  | .post .., kind        => kind == .postfixed
  | .conditional .., kind => kind == .ternary
  | .assignment .., kind  => kind == .assignment
  | .member .., kind      => kind == .memberAccess
  | .index .., kind       => kind == .arrayAccess
  | _, _                  => true

namespace Opened

variable {o : Opened} {kind : Phrase}

theorem extend_readFrom (hkind : o.tree.phrase? = some kind) (hchain : isChain kind = true)
    (left : Expr) : Makes (·.readFrom kind = true) (o.extend left) := by
  unfold extend
  rw [hkind]
  refine Makes.any.bind fun right _ => ?_
  split
  · obtain rfl := Option.some.inj ‹_›
    exact .ok rfl
  · obtain rfl := Option.some.inj ‹_›
    exact .ok rfl
  · rename_i hmember hindex
    refine Makes.any.bind fun op _ => .ok ?_
    have hmember : kind ≠ .memberAccess := fun h => hmember (congrArg some h)
    have hindex : kind ≠ .arrayAccess := fun h => hindex (congrArg some h)
    rw [Node.readFrom, hchain, bne_iff_ne.mpr hmember, bne_iff_ne.mpr hindex]
    rfl

/-- Each rule for a phrase makes the expressions that are read from it. -/
theorem expr_readFrom (hkind : o.tree.phrase? = some kind) (hparen : kind ≠ .parenthesized)
    (hchain : isChain kind = false) : Makes (·.readFrom kind = true) o.expr := by
  unfold expr
  rw [hkind]
  split
  all_goals try obtain rfl := Option.some.inj ‹_›
  · exact absurd rfl hparen
  all_goals first
    | unfold lambda | unfold assignment | unfold instanceOf | unfold superAccess
    | unfold methodCall | unfold methodReference | unfold objectCreation | unfold innerCreation
    | unfold arrayCreation | unfold switchExpr | unfold genericCall | skip
  all_goals repeat' first
    | exact .ok rfl
    | exact .error _
    | exact Node.checked_makes fun _ => rfl
    | exact Makes.any.map fun _ _ => rfl
    | exact absurd ‹_› (Bool.eq_false_iff.mp hchain)
    | refine Makes.any.bind fun _ _ => ?_
    | split

end Opened

namespace Tree

variable {a b d : Tree} {token token' : Token} {start stop : Location} {kind : Phrase}

theorem phrases_node (ts : List Tree) :
    (node kind ts start stop).phrases = ts.filter (·.phrase?.isSome) := rfl

theorem phrase?_leaf : (leaf token).phrase? = none := rfl

/-- What is read of a part that is a phrase, at a place among the phrases. -/
theorem readNth_makes {t p : Tree} {i : Nat} (h : t.phrases[i]? = some p) :
    Makes (p.read .expr = .ok ·) (t.opened.readNth i .expr) := readNth_opened h ▸ Makes.self

theorem read_parenthesized (ha : a.phrase?.isSome = true) :
    (node .parenthesized [.leaf token, a, .leaf token'] start stop).read .expr = a.read .expr := by
  rw [read_eq (node ..)]
  exact readNth_opened (by simp [phrases_node, phrase?_leaf, ha])

theorem read_prefixed (ha : a.phrase?.isSome = true) :
    Makes (fun n => ∃ span op x, n = .unary span op x ∧ a.read .expr = .ok x)
      ((node .prefixed [.leaf token, a] start stop).read .expr) := by
  rw [read_eq (node ..)]
  refine Makes.any.bind fun op _ => (readNth_makes ?_).bind fun x hx => .ok ⟨_, _, x, rfl, hx⟩
  simp [phrases_node, phrase?_leaf, ha]

theorem read_postfixed (ha : a.phrase?.isSome = true) :
    Makes (fun n => ∃ span x op, n = .post span x op ∧ a.read .expr = .ok x)
      ((node .postfixed [a, .leaf token] start stop).read .expr) := by
  rw [read_eq (node ..)]
  refine Makes.any.bind fun op _ => (readNth_makes ?_).bind fun x hx => .ok ⟨_, x, _, rfl, hx⟩
  simp [phrases_node, ha]

theorem read_ternary (ha : a.phrase?.isSome = true) (hb : b.phrase?.isSome = true)
    (hd : d.phrase?.isSome = true) :
    Makes (fun n => ∃ span x y z, n = .conditional span x y z ∧ a.read .expr = .ok x ∧
        b.read .expr = .ok y ∧ d.read .expr = .ok z)
      ((node .ternary [a, .leaf token, b, .leaf token', d] start stop).read .expr) := by
  rw [read_eq (node ..)]
  refine (readNth_makes ?_).bind fun x hx => (readNth_makes ?_).bind fun y hy =>
    (readNth_makes ?_).bind fun z hz => .ok ⟨_, x, y, z, rfl, hx, hy, hz⟩
  all_goals simp [phrases_node, phrase?_leaf, ha, hb, hd]

theorem read_assignment (ha : a.phrase?.isSome = true) (hb : b.phrase?.isSome = true) :
    Makes (fun n => ∃ span x op y, n = .assignment span x op y ∧ a.read .expr = .ok x ∧
        b.read .expr = .ok y)
      ((node .assignment [a, .leaf token, b] start stop).read .expr) := by
  rw [read_eq (node ..)]
  change Makes _ (Opened.assignment _)
  unfold Opened.assignment
  have hfirst : (node .assignment [a, .leaf token, b] start stop).phrases[0]? = some a := by
    simp [phrases_node, ha]
  have hsecond : (node .assignment [a, .leaf token, b] start stop).phrases[1]? = some b := by
    simp [phrases_node, phrase?_leaf, ha, hb]
  have hrest (op : OptNode .assignOperator) :
      Makes (fun n => ∃ span x op y, n = .assignment span x op y ∧ a.read .expr = .ok x ∧
          b.read .expr = .ok y) (do
        let o := (node .assignment [a, .leaf token, b] start stop).opened
        let target ← o.readNth 0 .expr
        return Node.assignment o.span target op (← o.readNth 1 .expr)) :=
    (readNth_makes hfirst).bind fun x hx => (readNth_makes hsecond).bind fun y hy =>
      .ok ⟨_, x, op, y, rfl, hx, hy⟩
  refine Makes.any.bind fun _ _ => ?_
  split
  · exact hrest _
  · exact Makes.any.bind fun op _ => hrest _

/-- A link of a chain is read from its left side. -/
theorem read_link {ts : List Tree} {P : Expr → Expr → Prop} (hchain : Opened.isChain kind = true)
    (ha : a.phrase?.isSome = true)
    (h : ∀ x, Makes (P x) ((node kind (a :: ts) start stop).opened.extend x)) :
    Makes (fun n => ∃ x, a.read .expr = .ok x ∧ P x n)
      ((node kind (a :: ts) start stop).read .expr) := by
  have hchain : (node kind (a :: ts) start stop).phrase?.any Opened.isChain = true := hchain
  rw [read_of_isChain hchain, parts, Opened.left, if_pos ha]
  exact Makes.self.bind fun x hx => (h x).mono fun _ hn => ⟨x, hx, hn⟩

theorem read_memberAccess (ha : a.phrase?.isSome = true) (hb : b.phrase?.isSome = true) :
    Makes (fun n => ∃ x, a.read .expr = .ok x ∧
        ∃ span y, n = .member span x y ∧ b.read .expr = .ok y)
      ((node .memberAccess [a, .leaf token, b] start stop).read .expr) :=
  read_link rfl ha fun _ =>
    (readNth_makes (by simp [phrases_node, phrase?_leaf, ha, hb])).bind fun y hy =>
      .ok ⟨_, y, rfl, hy⟩

theorem read_arrayAccess (ha : a.phrase?.isSome = true) (hb : b.phrase?.isSome = true) :
    Makes (fun n => ∃ x, a.read .expr = .ok x ∧
        ∃ span y, n = .index span x y ∧ b.read .expr = .ok y)
      ((node .arrayAccess [a, .leaf token, b, .leaf token'] start stop).read .expr) :=
  read_link rfl ha fun _ =>
    (readNth_makes (by simp [phrases_node, phrase?_leaf, ha, hb])).bind fun y hy =>
      .ok ⟨_, y, rfl, hy⟩

theorem operator_makes {α : Type} {place : OperatorPlace} {ofText? : String → Option α} {t : Tree}
    (h : t.tokens.head? = some token) :
    Makes (ofText? token.text = some ·) (t.opened.operator place ofText?) := by
  unfold Opened.operator
  rw [token_opened h]
  refine (Makes.ok (P := (· = token)) rfl).bind fun _ htoken => ?_
  subst htoken
  split
  · exact .ok ‹_›
  · exact .error _

/-- The level of an operator that a token of a kind spells. -/
theorem level_of_spelled {kinds : List TokenKind} {l : Level} {op : BinaryOp}
    (hkinds : kinds.all fun k => ((k.text?.bind BinaryOp.ofText?).map BinaryOp.level) == some l)
    (hmem : token.kind ∈ kinds) (hspelled : token.Spelled)
    (hop : BinaryOp.ofText? token.text = some op) : op.level = l := by
  have hlevel := beq_iff_eq.mp (List.all_eq_true.mp hkinds _ hmem)
  cases htext : token.kind.text? with
  | none =>
    rw [htext] at hlevel
    cases hlevel
  | some w =>
    rw [htext, Option.bind_some, ← hspelled w htext, hop] at hlevel
    exact Option.some.inj hlevel

theorem read_operation {kinds : List TokenKind} {l : Level} (hchain : Opened.isChain kind = true)
    (hne : kind ≠ .memberAccess ∧ kind ≠ .arrayAccess)
    (hkinds : kinds.all fun k => ((k.text?.bind BinaryOp.ofText?).map BinaryOp.level) == some l)
    (hmem : token.kind ∈ kinds) (hspelled : token.Spelled)
    (ha : a.phrase?.isSome = true) (hb : b.phrase?.isSome = true) :
    Makes (fun n => ∃ x, a.read .expr = .ok x ∧
        ∃ span op y, n = .binary span x (.binaryOperator op) y ∧ op.level = l ∧
          b.read .expr = .ok y)
      ((node kind [a, .leaf token, b] start stop).read .expr) := by
  have hphrases : (node kind [a, .leaf token, b] start stop).phrases[1]? = some b := by
    simp [phrases_node, phrase?_leaf, ha, hb]
  have htokens : (node kind [a, .leaf token, b] start stop).tokens.head? = some token := by
    cases a with
    | leaf => cases ha
    | node => rfl
  refine read_link hchain ha fun x => ?_
  unfold Opened.extend
  refine (readNth_makes hphrases).bind fun y hy => ?_
  rw [tree_opened]
  split
  · exact absurd (Option.some.inj ‹_›) hne.1
  · exact absurd (Option.some.inj ‹_›) hne.2
  · exact (operator_makes htokens).bind fun op hop =>
      .ok ⟨_, op, y, rfl, level_of_spelled hkinds hmem hspelled hop, hy⟩

theorem read_methodCall (ha : a.phrase? = some .arguments) :
    Makes (fun n => ∃ span func args, n = .call span func args ∧ a.read .exprs = .ok args)
      ((node .methodCall [.leaf token, a] start stop).read .expr) := by
  rw [read_eq (node ..)]
  refine Makes.any.bind fun _ _ => ?_
  rw [readFirst_opened (p := a) (by simp [parts, phrase?_leaf, ha])]
  exact Makes.self.bind fun args hargs => .ok ⟨_, _, args, rfl, hargs⟩

/-! ### Operands -/

/-- A tree holds the parentheses of the grouped tree: one pair more if it stands in parentheses
itself, and else it holds together as tightly. -/
structure Groups (tree : Tree) (t : OpTree) : Prop where
  le : t.grouped.opens ≤ tree.opens
  paren : tree.phrase? = some .parenthesized → t.grouped.opens < tree.opens
  level : ∀ kind, tree.phrase? = some kind → kind ≠ .parenthesized → kind.level = t.grouped.level

/-- An operand that stands where it may stand without parentheses holds those that it needs. -/
theorem Groups.within {tree : Tree} {t : OpTree} {context : Context} (h : tree.Groups t)
    (hkind : tree.phrase? = some kind) (hcontext : context.needsParens kind.level = false) :
    (t.grouped.within context).opens ≤ tree.opens := by
  rw [OpTree.within]
  split
  · refine h.paren ?_
    by_cases hparen : kind = .parenthesized
    · rw [hkind, hparen]
    · rw [← h.level kind hkind hparen, hcontext] at *
      cases ‹false = true›
  · exact h.le

end Tree

theorem Context.needsParens_of_le {l k : Level} (h : l.rank ≤ k.rank) :
    (Context.mk l true).needsParens k = false := by
  rw [needsParens, Bool.or_eq_false_iff, decide_eq_false_iff_not]
  exact ⟨Nat.not_lt.mpr h, by rw [Bool.not_true, Bool.and_false]⟩

theorem Context.needsParens_of_lt {l k : Level} (h : l.rank < k.rank) :
    (Context.mk l false).needsParens k = false := by
  rw [needsParens, Bool.or_eq_false_iff, decide_eq_false_iff_not]
  refine ⟨Nat.not_lt.mpr (Nat.le_of_lt h), ?_⟩
  rw [beq_eq_false_iff_ne.mpr fun heq => Nat.lt_irrefl _ (heq ▸ h), Bool.false_and]

namespace Tree

/-- What is read from a tree as an operator tree, or as several, has no more parentheses than the
tree. -/
structure Counted (tree : Tree) : Prop where
  expr : ∀ {kind : Phrase}, kind ∈ expressions → tree.phrase? = some kind →
    ∀ {t : OpTree} {spans : Spans} {n : Expr}, tree.read .expr = .ok n →
      n.Alike (t.node spans) → tree.Groups t
  args : tree.phrase? = some .arguments →
    ∀ {ts : OpTrees} {spans : Spans} {ns : Nodes .expr}, tree.read .exprs = .ok ns →
      ns.Alike (ts.node spans) → ts.grouped.opens < tree.opens

theorem isSome_of_fits {kinds : List Phrase} {t : Tree} (h : (Item.phrase kinds).fits t) :
    t.phrase?.isSome = true := Item.isSome_phrase?_of_fits h

namespace Counted

variable {a : Tree} {t : OpTree} {spans : Spans} {x : Expr}

/-- An expression without a context. -/
theorem opens_le (h : a.Counted) (hfits : (Item.phrase expressions).fits a)
    (hread : a.read .expr = .ok x) (halike : x.Alike (t.node spans)) :
    t.grouped.opens ≤ a.opens := by
  obtain ⟨kind, hk⟩ := Option.isSome_iff_exists.mp (isSome_of_fits hfits)
  exact (h.expr (Item.mem_kinds_of_fits hfits hk) hk hread halike).le

/-- An operand. -/
theorem within_le (h : a.Counted) {l : Level} (context : Context)
    (hfits : (Item.phrase (operands l)).fits a)
    (hcontext : ∀ k : Level, l.rank ≤ k.rank → context.needsParens k = false)
    (hread : a.read .expr = .ok x) (halike : x.Alike (t.node spans)) :
    (t.grouped.within context).opens ≤ a.opens := by
  obtain ⟨kind, hk⟩ := Option.isSome_iff_exists.mp (isSome_of_fits hfits)
  obtain ⟨hmem, hlevel⟩ := List.mem_filter.mp (Item.mem_kinds_of_fits hfits hk)
  exact (h.expr hmem hk hread halike).within hk (hcontext _ (of_decide_eq_true hlevel))

end Counted

/-- The parts of an operation. -/
theorem parts_of_operation {l : Level} {kinds : List TokenKind} {parts : List Tree}
    (h : (operation l kinds).Holds parts) : ∃ a token b, parts = [a, .leaf token, b] ∧
      (Item.phrase (operands l)).fits a ∧ token.kind ∈ kinds ∧
      (Item.phrase (operands l.next)).fits b := by
  obtain ⟨_, _, rfl, ⟨_, _, rfl, ⟨a, rfl, ha⟩, u, rfl, hu⟩, b, rfl, hb⟩ := h
  cases u with
  | node => cases hu
  | leaf token => exact ⟨a, token, b, rfl, ha, List.contains_iff_mem.mp hu, hb⟩

/-- An operation holds the parentheses that its operands need. -/
theorem groups_operation {l : Level} {kinds : List TokenKind} {kind : Phrase} {parts : List Tree}
    {start stop : Location} (h : (node kind parts start stop).Regular)
    (hparts : ∀ p ∈ parts, p.Counted) (hshape : kind.shape = operation l kinds)
    (hchain : Opened.isChain kind = true) (hne : kind ≠ .memberAccess ∧ kind ≠ .arrayAccess)
    (hkinds : kinds.all fun k => ((k.text?.bind BinaryOp.ofText?).map BinaryOp.level) == some l)
    (hlevel : kind.level = l) (hnext : l.rank < l.next.rank)
    {op : BinaryOp} {left right : OpTree} {spans : Spans} {n : Expr}
    (hread : (node kind parts start stop).read .expr = .ok n)
    (halike : n.Alike ((OpTree.binary op left right).node spans)) :
    (node kind parts start stop).Groups (.binary op left right) := by
  cases h with
  | node holds regular =>
    rw [hshape] at holds
    obtain ⟨a, token, b, rfl, ha, hmem, hb⟩ := parts_of_operation holds
    have hspelled : token.Spelled := by
      cases regular (.leaf token) (by simp) with
      | leaf spelled => exact spelled
    obtain ⟨x, hx, _, op', y, rfl, hop, hy⟩ := read_operation hchain hne hkinds hmem hspelled
      (isSome_of_fits ha) (isSome_of_fits hb) n hread
    cases halike with
    | binary hleft hop' hright =>
      cases hop'
      have hl := (hparts a (by simp)).within_le ⟨op.level, true⟩ ha
        (fun k hk => Context.needsParens_of_le (hop ▸ hk)) hx hleft
      have hr := (hparts b (by simp)).within_le ⟨op.level, false⟩ hb
        (fun k hk => Context.needsParens_of_lt (hop ▸ Nat.lt_of_lt_of_le hnext hk)) hy hright
      refine ⟨?_, fun hk => ?_, fun k hk _ => ?_⟩
      · simp only [OpTree.grouped, OpTree.opens, opens_node, List.map_cons, List.map_nil,
          List.sum_cons, List.sum_nil]
        omega
      · obtain rfl := Option.some.inj hk
        cases hchain
      · obtain rfl := Option.some.inj hk
        exact hlevel.trans hop.symm

/-- A phrase that is not in parentheses groups what it holds the parentheses of. -/
theorem Groups.of_kind {kind : Phrase} {parts : List Tree} {start stop : Location} {t : OpTree}
    (hparen : kind ≠ .parenthesized) (hlevel : kind.level = t.grouped.level)
    (hle : t.grouped.opens ≤ (parts.map opens).sum) : (node kind parts start stop).Groups t where
  le := (opens_node kind parts start stop).symm ▸ hle
  paren hk := absurd (Option.some.inj hk) hparen
  level _ hk _ := Option.some.inj hk ▸ hlevel

section

variable {parts : List Tree} {start stop : Location} {spans : Spans} {n : Expr}

theorem groups_prefixed (holds : (Phrase.shape .prefixed).Holds parts)
    (hparts : ∀ p ∈ parts, p.Counted) {op : UnaryOp} {operand : OpTree}
    (hread : (node .prefixed parts start stop).read .expr = .ok n)
    (halike : n.Alike ((OpTree.unary op operand).node spans)) :
    (node .prefixed parts start stop).Groups (.unary op operand) := by
  obtain ⟨_, _, rfl, ⟨u, rfl, hu⟩, a, rfl, ha⟩ := holds
  cases u with
  | node => cases hu
  | leaf token =>
    obtain ⟨_, _, x, rfl, hx⟩ := read_prefixed (isSome_of_fits ha) n hread
    cases halike with
    | unary _ hoperand =>
      have ha := (hparts a (by simp)).within_le ⟨.unary, true⟩ ha
        (fun _ => Context.needsParens_of_le) hx hoperand
      refine .of_kind nofun rfl ?_
      simp only [OpTree.grouped, OpTree.opens, List.cons_append, List.nil_append, List.map_cons,
        List.map_nil, List.sum_cons, List.sum_nil]
      omega

theorem groups_postfixed (holds : (Phrase.shape .postfixed).Holds parts)
    (hparts : ∀ p ∈ parts, p.Counted) {op : PostOp} {operand : OpTree}
    (hread : (node .postfixed parts start stop).read .expr = .ok n)
    (halike : n.Alike ((OpTree.post op operand).node spans)) :
    (node .postfixed parts start stop).Groups (.post op operand) := by
  obtain ⟨_, _, rfl, ⟨a, rfl, ha⟩, u, rfl, hu⟩ := holds
  cases u with
  | node => cases hu
  | leaf token =>
    obtain ⟨_, x, _, rfl, hx⟩ := read_postfixed (isSome_of_fits ha) n hread
    cases halike with
    | post hoperand _ =>
      have ha := (hparts a (by simp)).within_le ⟨.post, true⟩ ha
        (fun _ => Context.needsParens_of_le) hx hoperand
      refine .of_kind nofun rfl ?_
      simp only [OpTree.grouped, OpTree.opens, List.cons_append, List.nil_append, List.map_cons,
        List.map_nil, List.sum_cons, List.sum_nil]
      omega

theorem groups_ternary (holds : (Phrase.shape .ternary).Holds parts)
    (hparts : ∀ p ∈ parts, p.Counted) {test body orelse : OpTree}
    (hread : (node .ternary parts start stop).read .expr = .ok n)
    (halike : n.Alike ((OpTree.conditional test body orelse).node spans)) :
    (node .ternary parts start stop).Groups (.conditional test body orelse) := by
  obtain ⟨_, _, rfl, ⟨_, _, rfl, ⟨_, _, rfl, ⟨_, _, rfl, ⟨a, rfl, ha⟩, u, rfl, hu⟩, b, rfl, hb⟩,
    v, rfl, hv⟩, d, rfl, hd⟩ := holds
  cases u with
  | node => cases hu
  | leaf token =>
    cases v with
    | node => cases hv
    | leaf token' =>
      obtain ⟨_, x, y, z, rfl, hx, hy, hz⟩ := read_ternary (isSome_of_fits ha) (isSome_of_fits hb)
        (isSome_of_fits hd) n hread
      cases halike with
      | conditional htest hbody horelse =>
        have ha := (hparts a (by simp)).within_le ⟨.ternary, false⟩ ha
          (fun _ hk => Context.needsParens_of_lt hk) hx htest
        have hb := (hparts b (by simp)).opens_le hb hy hbody
        have hd := (hparts d (by simp)).within_le ⟨.ternary, true⟩ hd
          (fun _ => Context.needsParens_of_le) hz horelse
        refine .of_kind nofun rfl ?_
        simp only [OpTree.grouped, OpTree.opens, List.cons_append, List.nil_append, List.map_cons,
          List.map_nil, List.sum_cons, List.sum_nil]
        omega

theorem assignment_rank_le (kind : Phrase) : Level.assignment.rank ≤ kind.level.rank := by
  cases kind <;> decide

/-- Every expression is an operand of the loosest level. -/
theorem fits_operands_assignment {a : Tree} (h : (Item.phrase expressions).fits a) :
    (Item.phrase (operands .assignment)).fits a := by
  cases a with
  | leaf => cases h
  | node kind ps start stop =>
    exact List.contains_iff_mem.mpr
      (mem_operands (List.contains_iff_mem.mp h) (assignment_rank_le kind))

theorem groups_assignment (holds : (Phrase.shape .assignment).Holds parts)
    (hparts : ∀ p ∈ parts, p.Counted) {op : Option AssignOp} {target value : OpTree}
    (hread : (node .assignment parts start stop).read .expr = .ok n)
    (halike : n.Alike ((OpTree.assignment op target value).node spans)) :
    (node .assignment parts start stop).Groups (.assignment op target value) := by
  obtain ⟨_, _, rfl, ⟨_, _, rfl, ⟨a, rfl, ha⟩, u, rfl, hu⟩, b, rfl, hb⟩ := holds
  cases u with
  | node => cases hu
  | leaf token =>
    obtain ⟨_, x, _, y, rfl, hx, hy⟩ :=
      read_assignment (isSome_of_fits ha) (isSome_of_fits hb) n hread
    cases halike with
    | assignment htarget _ hvalue =>
      have ha := (hparts a (by simp)).within_le ⟨.assignment, false⟩ ha
        (fun _ hk => Context.needsParens_of_lt hk) hx htarget
      have hb := (hparts b (by simp)).within_le ⟨.assignment, true⟩
        (fits_operands_assignment hb) (fun _ => Context.needsParens_of_le) hy hvalue
      refine .of_kind nofun rfl ?_
      simp only [OpTree.grouped, OpTree.opens, List.cons_append, List.nil_append, List.map_cons,
        List.map_nil, List.sum_cons, List.sum_nil]
      omega

/-- Every operand is an expression. -/
theorem fits_expressions {a : Tree} {l : Level} (h : (Item.phrase (operands l)).fits a) :
    (Item.phrase expressions).fits a := by
  cases a with
  | leaf => cases h
  | node => exact List.contains_iff_mem.mpr (List.mem_filter.mp (List.contains_iff_mem.mp h)).1

theorem groups_arrayAccess (holds : (Phrase.shape .arrayAccess).Holds parts)
    (hparts : ∀ p ∈ parts, p.Counted) {receiver inner : OpTree}
    (hread : (node .arrayAccess parts start stop).read .expr = .ok n)
    (halike : n.Alike ((OpTree.index receiver inner).node spans)) :
    (node .arrayAccess parts start stop).Groups (.index receiver inner) := by
  obtain ⟨_, _, rfl, ⟨_, _, rfl, ⟨_, _, rfl, ⟨a, rfl, ha⟩, u, rfl, hu⟩, b, rfl, hb⟩, v, rfl, hv⟩ :=
    holds
  cases u with
  | node => cases hu
  | leaf token =>
    cases v with
    | node => cases hv
    | leaf token' =>
      obtain ⟨x, hx, _, y, rfl, hy⟩ :=
        read_arrayAccess (isSome_of_fits ha) (isSome_of_fits hb) n hread
      cases halike with
      | index hreceiver hinner =>
        have ha := (hparts a (by simp)).within_le .primary ha
          (fun _ => Context.needsParens_of_le) hx hreceiver
        have hb := (hparts b (by simp)).opens_le hb hy hinner
        refine .of_kind nofun rfl ?_
        simp only [OpTree.grouped, OpTree.opens, List.cons_append, List.nil_append, List.map_cons,
          List.map_nil, List.sum_cons, List.sum_nil]
        omega

theorem groups_memberAccess (holds : (Phrase.shape .memberAccess).Holds parts)
    (hparts : ∀ p ∈ parts, p.Counted) {receiver : OpTree} {selected : OpHead}
    (hread : (node .memberAccess parts start stop).read .expr = .ok n)
    (halike : n.Alike ((OpTree.member receiver selected).node spans)) :
    (node .memberAccess parts start stop).Groups (.member receiver selected) := by
  obtain ⟨_, _, rfl, ⟨_, _, rfl, ⟨a, rfl, ha⟩, u, rfl, hu⟩, b, rfl, hb⟩ := holds
  cases u with
  | node => cases hu
  | leaf token =>
    obtain ⟨x, hx, _, y, rfl, hy⟩ :=
      read_memberAccess (isSome_of_fits ha) (isSome_of_fits hb) n hread
    cases halike with
    | member hreceiver hselected =>
      have ha := (hparts a (by simp)).within_le .primary ha
        (fun _ => Context.needsParens_of_le) hx hreceiver
      have hselected : y.Alike ((OpTree.head selected).node (spans.below 1)) := hselected
      have hb := (hparts b (by simp)).opens_le (fits_expressions hb) hy hselected
      refine .of_kind nofun rfl ?_
      simp only [OpTree.grouped, OpTree.opens, List.cons_append, List.nil_append, List.map_cons,
        List.map_nil, List.sum_cons, List.sum_nil] at hb ⊢
      omega

theorem groups_methodCall (holds : (Phrase.shape .methodCall).Holds parts)
    (hparts : ∀ p ∈ parts, p.Counted) {name : LegalName} {args : OpTrees}
    (hread : (node .methodCall parts start stop).read .expr = .ok n)
    (halike : n.Alike ((OpTree.head (.call name args)).node spans)) :
    (node .methodCall parts start stop).Groups (.head (.call name args)) := by
  obtain ⟨_, _, rfl, ⟨u, rfl, hu⟩, a, rfl, ha⟩ := holds
  cases u with
  | node => cases hu
  | leaf token =>
    obtain ⟨kind, hk⟩ := Option.isSome_iff_exists.mp (isSome_of_fits ha)
    obtain rfl : kind = .arguments := List.mem_singleton.mp (Item.mem_kinds_of_fits ha hk)
    obtain ⟨_, _, ns, rfl, hns⟩ := read_methodCall hk n hread
    cases halike with
    | call _ hargs =>
      have ha := (hparts a (by simp)).args hk hns hargs
      refine .of_kind nofun rfl ?_
      simp only [OpTree.grouped, OpTree.opens, OpHead.grouped, OpHead.opens, List.cons_append,
        List.nil_append, List.map_cons, List.map_nil, List.sum_cons, List.sum_nil]
      omega

/-- Several expressions, each counted, hold the parentheses of the grouped trees. -/
theorem opens_le_sum {ps : List Tree} {nodes : List Expr} {ts : OpTrees}
    (hread : List.Forall₂ (fun p n => p.read .expr = .ok n) ps nodes)
    (hps : ∀ p ∈ ps, p.Counted ∧ (Item.phrase expressions).fits p)
    (halike : (Node.ofList nodes).Alike (ts.node spans)) :
    ts.grouped.opens ≤ (ps.map opens).sum := by
  induction hread generalizing ts spans with
  | nil =>
    cases ts with
    | nil => exact Nat.zero_le _
    | cons => cases halike
  | @cons p n ps nodes hp _ ih =>
    obtain ⟨⟨hcounted, hfits⟩, hps⟩ := List.forall_mem_cons.mp hps
    cases ts with
    | nil => cases halike
    | cons first others =>
      cases halike with
      | cons hfirst hothers =>
        have hfirst := hcounted.opens_le hfits hp hfirst
        have hothers := ih hps hothers
        simp only [OpTrees.grouped, OpTrees.opens, List.map_cons, List.sum_cons]
        omega

theorem sum_filter_le (f : Tree → Bool) (ps : List Tree) :
    ((ps.filter f).map opens).sum ≤ (ps.map opens).sum := by
  induction ps with
  | nil => exact Nat.le_refl 0
  | cons p ps ih =>
    rw [List.filter_cons]
    split <;> simp only [List.map_cons, List.sum_cons] <;> omega

theorem opens_arguments (holds : (Phrase.shape .arguments).Holds parts)
    (hparts : ∀ p ∈ parts, p.Counted) {ts : OpTrees} {ns : Nodes .expr}
    (hread : (node .arguments parts start stop).read .exprs = .ok ns)
    (halike : ns.Alike (ts.node spans)) :
    ts.grouped.opens < (node .arguments parts start stop).opens := by
  have hkinds : ∀ p ∈ parts, p.phrase?.isSome = true → (Item.phrase expressions).fits p := by
    intro p hp hsome
    cases p with
    | leaf => cases hsome
    | node kind ps a b =>
      have hall : (Phrase.shape .arguments).kinds.all expressions.contains = true := by decide
      exact List.all_eq_true.mp hall kind (holds.kind hp rfl)
  obtain ⟨_, _, rfl, ⟨_, inner, rfl, ⟨u, rfl, hu⟩, -⟩, v, rfl, -⟩ := holds
  cases u with
  | node => cases hu
  | leaf token =>
    have hopen : token.kind = .lparen := List.mem_singleton.mp (List.contains_iff_mem.mp hu)
    rw [read_exprs] at hread
    obtain ⟨nodes, hnodes, rfl⟩ := (Makes.self.map fun nodes h => ⟨nodes, h, rfl⟩ :
      Makes (fun ns => ∃ nodes, _ = Except.ok nodes ∧ Node.ofList nodes = ns) _) ns hread
    have hforall := Makes.mapM (R := fun p n => p.read .expr = .ok n)
      (fun p _ => Makes.self) nodes hnodes
    have hsum := opens_le_sum hforall (fun p hp => by
      obtain ⟨hmem, hsome⟩ := List.mem_filter.mp hp
      exact ⟨hparts p hmem, hkinds p hmem hsome⟩) halike
    have hfilter := sum_filter_le (fun p => p.phrase?.isSome) (inner ++ [v])
    rw [phrases_node, List.append_assoc, List.singleton_append, List.filter_cons] at hsum
    rw [opens_node, List.append_assoc, List.singleton_append, List.map_cons, List.sum_cons,
      opens_leaf, hopen]
    exact Nat.lt_of_le_of_lt (Nat.le_trans hsum hfilter) (Nat.lt_add_of_pos_left Nat.one_pos)

end

/-- Parentheses count one more than what is in them. -/
theorem groups_parenthesized {parts : List Tree} {start stop : Location} {spans : Spans} {n : Expr}
    (holds : (Phrase.shape .parenthesized).Holds parts) (hparts : ∀ p ∈ parts, p.Counted)
    {t : OpTree} (hread : (node .parenthesized parts start stop).read .expr = .ok n)
    (halike : n.Alike (t.node spans)) : (node .parenthesized parts start stop).Groups t := by
  obtain ⟨_, _, rfl, ⟨_, _, rfl, ⟨u, rfl, hu⟩, a, rfl, ha⟩, v, rfl, hv⟩ := holds
  cases u with
  | node => cases hu
  | leaf token =>
    cases v with
    | node => cases hv
    | leaf token' =>
      have hopen : token.kind = .lparen := List.mem_singleton.mp (List.contains_iff_mem.mp hu)
      rw [List.singleton_append, List.cons_append, List.singleton_append,
        read_parenthesized (isSome_of_fits ha)] at hread
      have ha := (hparts a (by simp)).opens_le ha hread halike
      have hlt : t.grouped.opens < (node .parenthesized
          ([leaf token] ++ [a] ++ [leaf token']) start stop).opens := by
        simp only [opens_node, List.cons_append, List.nil_append, List.map_cons, List.map_nil,
          List.sum_cons, List.sum_nil, opens_leaf, hopen, beq_self_eq_true, if_true]
        omega
      exact ⟨Nat.le_of_lt hlt, fun _ => hlt, fun k hk hne => absurd (Option.some.inj hk).symm hne⟩

theorem read_readFrom {kind : Phrase} {parts : List Tree} {start stop : Location}
    (hparen : kind ≠ .parenthesized) :
    Makes (·.readFrom kind = true) ((node kind parts start stop).read .expr) := by
  have hkind : (node kind parts start stop).opened.tree.phrase? = some kind := by
    rw [tree_opened]
    rfl
  cases hchain : Opened.isChain kind with
  | false =>
    rw [read_eq]
    exact Opened.expr_readFrom hkind hparen hchain
  | true =>
    have hchain' : (node kind parts start stop).phrase?.any Opened.isChain = true := hchain
    rw [read_of_isChain hchain']
    exact Makes.any.bind fun left _ => Opened.extend_readFrom hkind hchain left

/-- A phrase that an operator tree is read from holds the parentheses of the grouped tree, if its
parts do. -/
theorem groups_of_parts {kind : Phrase} {parts : List Tree} {start stop : Location}
    (h : (node kind parts start stop).Regular) (hparts : ∀ p ∈ parts, p.Counted)
    (hparen : kind ≠ .parenthesized) {t : OpTree} (hbare : t.isParen = false) {spans : Spans}
    {n : Expr} (hread : (node kind parts start stop).read .expr = .ok n)
    (halike : n.Alike (t.node spans)) : (node kind parts start stop).Groups t := by
  have holds : kind.shape.Holds parts := h.holds_of rfl
  have hfrom : n.readFrom kind = true := read_readFrom hparen n hread
  cases t with
  | paren => cases hbare
  | head head =>
    cases head with
    | name =>
      cases halike
      obtain rfl := beq_iff_eq.mp hfrom
      exact .of_kind nofun rfl (Nat.zero_le _)
    | call =>
      cases halike
      obtain rfl := beq_iff_eq.mp hfrom
      exact groups_methodCall holds hparts hread (.call ‹_› ‹_›)
  | binary =>
    cases halike
    cases kind <;> first
      | exact absurd hfrom Bool.false_ne_true
      | exact groups_operation h hparts rfl rfl ⟨nofun, nofun⟩ (by decide) rfl (by decide) hread
          (.binary ‹_› ‹_› ‹_›)
  | unary =>
    cases halike
    obtain rfl := beq_iff_eq.mp hfrom
    exact groups_prefixed holds hparts hread (.unary ‹_› ‹_›)
  | post =>
    cases halike
    obtain rfl := beq_iff_eq.mp hfrom
    exact groups_postfixed holds hparts hread (.post ‹_› ‹_›)
  | conditional =>
    cases halike
    obtain rfl := beq_iff_eq.mp hfrom
    exact groups_ternary holds hparts hread (.conditional ‹_› ‹_› ‹_›)
  | assignment =>
    cases halike
    obtain rfl := beq_iff_eq.mp hfrom
    exact groups_assignment holds hparts hread (.assignment ‹_› ‹_› ‹_›)
  | index =>
    cases halike
    obtain rfl := beq_iff_eq.mp hfrom
    exact groups_arrayAccess holds hparts hread (.index ‹_› ‹_›)
  | member =>
    cases halike
    obtain rfl := beq_iff_eq.mp hfrom
    exact groups_memberAccess holds hparts hread (.member ‹_› ‹_›)

/-- **A regular tree that is read as an operator tree has all the parentheses of the grouped
tree.** -/
theorem Regular.counted {tree : Tree} (h : tree.Regular) : tree.Counted := by
  induction h with
  | leaf => exact ⟨nofun, nofun⟩
  | @node kind parts start stop holds regular starts stops ih =>
    refine ⟨fun _ hk t spans n hread halike => ?_, fun hk ts spans ns hread halike => ?_⟩
    · obtain rfl := Option.some.inj hk
      by_cases hparen : kind = .parenthesized
      · subst hparen
        exact groups_parenthesized holds ih hread halike
      · obtain ⟨t', hbare, hnode, hgrouped⟩ := t.exists_bare
        rw [← hnode] at halike
        obtain ⟨hle, hparen', hlevel⟩ :=
          groups_of_parts (.node holds regular starts stops) ih hparen hbare hread halike
        exact ⟨hgrouped ▸ hle, hgrouped ▸ hparen', hgrouped ▸ hlevel⟩
    · obtain rfl := Option.some.inj hk
      exact opens_arguments holds ih hread halike

end Tree

end JavaSource
