import JavaSource.Proofs.Reading.Trees

/-!
# Chains as they are read

A chain of binary operations, member accesses and array accesses is read in a loop: down to where
it starts, and back from there, each link extending what has been read.  It could be read by plain
recursion, each link reading its first phrase as it reads its second.

Trees may be damaged: a link may lack a phrase or an operator, or hold one that is of no use there.
The loop finds a missing first phrase on its way down, before anything has been read, but so does
the recursion, which reads nothing else before it.

* `Opened.directLink`: a link by plain recursion.
* `Opened.directExpr_opened`: for a tree that is read in the usual way, it comes to the same.
* **`Tree.chains_read_directly`**: reading every chain by plain recursion, in every part of a tree,
  yields the same nodes with the same spans and the same errors.
-/

namespace JavaSource

namespace Opened

variable (o : Opened)

/-- A link by plain recursion: what the first phrase is read as, what the second is read as, the
operator if there is one, and the span of the link itself. -/
def directLink : Reading .expr := do
  let left ← o.readNth 0 .expr
  let right ← o.readNth 1 .expr
  match o.tree.phrase? with
  | some .memberAccess => return .member o.span left right
  | some .arrayAccess  => return .index o.span left right
  | _ => return .binary o.span left (.binaryOperator (← o.operator .between BinaryOp.ofText?)) right

/-- Any expression, the links of chains by plain recursion. -/
def directExpr : Reading .expr := if o.tree.phrase?.any isChain then o.directLink else o.expr

/-- What an opened tree is as some goal, without loops over chains. -/
def directRead : {c : Category} → Goal c → Reading c
  | _, .expr       => o.directExpr
  | _, .caseItem   => o.caseItem o.directExpr
  | _, .conditions =>
    if o.tree.phrase? == some .conditionalAnd then o.conditions
    else (.cons · .nil) <$> o.directExpr
  | _, goal        => o.read goal

end Opened

mutual

/-- A tree with what it can be read as without loops over chains. -/
def Part.ofTreeDirectly : Tree → Part
  | .leaf t        => .mk (.leaf t) [] (Opened.directRead ⟨.leaf t, []⟩)
  | .node k ps a b =>
    let parts := ofTreesDirectly ps
    .mk (.node k ps a b) parts (Opened.directRead ⟨.node k ps a b, parts⟩)

/-- Trees with what they can be read as without loops over chains. -/
def Part.ofTreesDirectly : List Tree → List Part
  | []      => []
  | t :: ts => ofTreeDirectly t :: ofTreesDirectly ts

end

/-- A tree read as something without loops over chains. -/
def Tree.readDirectly {c : Category} (t : Tree) (goal : Goal c) : Reading c :=
  (Part.ofTreeDirectly t).read goal

namespace Opened

/-- The first phrase of a link is the phrase at place zero. -/
theorem left_eq (link : Opened) (ts : List Tree) :
    link.left ts = match ts.filter (·.phrase?.isSome) with
      | []     => link.lacks "at least 1 child rules"
      | t :: _ => t.read .expr := by
  induction ts with
  | nil => rfl
  | cons t ts ih =>
    rw [left, List.filter_cons]
    split
    · rfl
    · exact ih

theorem left_opened (t : Tree) : t.opened.left t.parts = t.opened.readNth 0 .expr := by
  rw [left_eq, readNth, nth, Tree.phrases_opened, Tree.phrases]
  cases t.parts.filter (·.phrase?.isSome) with
  | nil => rfl
  | cons p ps => rfl

theorem directLink_opened (t : Tree) :
    t.opened.directLink = t.opened.left t.parts >>= t.opened.extend := by
  rw [left_opened]
  rfl

/-- One link by plain recursion, its parts read in the usual way: the loop comes to the same. -/
theorem directExpr_opened (t : Tree) : t.opened.directExpr = t.opened.expr := by
  unfold directExpr
  rw [Tree.tree_opened]
  split
  · rename_i hchain
    rw [directLink_opened, ← Tree.read_of_isChain hchain]
    exact Tree.read_eq t .expr
  · rfl

theorem directRead_opened (t : Tree) {c : Category} (goal : Goal c) :
    t.opened.directRead goal = t.opened.read goal := by
  cases goal <;> first | rfl | rw [directRead, read, directExpr_opened]

end Opened

mutual

theorem Part.ofTreeDirectly_eq : (t : Tree) → ofTreeDirectly t = ofTree t
  | .leaf token => by
    have hread : @Opened.directRead (Tree.leaf token).opened =
        @Opened.read (Tree.leaf token).opened :=
      funext fun _ => funext (Opened.directRead_opened (.leaf token))
    exact congrArg (Part.mk _ _) hread
  | .node kind ts start stop => by
    have hread : @Opened.directRead (Tree.node kind ts start stop).opened =
        @Opened.read (Tree.node kind ts start stop).opened :=
      funext fun _ => funext (Opened.directRead_opened (.node kind ts start stop))
    rw [ofTreeDirectly, ofTree, ofTreesDirectly_eq ts]
    exact congrArg (Part.mk _ _) hread

theorem Part.ofTreesDirectly_eq : (ts : List Tree) → ofTreesDirectly ts = ofTrees ts
  | [] => rfl
  | t :: ts => by rw [ofTreesDirectly, ofTrees, ofTreeDirectly_eq t, ofTreesDirectly_eq ts]

end

/-- **Chains are read as plain recursion reads them.**  Any tree, damaged or not, is read as the
same node or not read for the same reason, whatever it is to be read as; and a link is read as its
first phrase, then its second, then its operator, with a span of its own. -/
theorem Tree.chains_read_directly (t : Tree) :
    (∀ {c : Category} (goal : Goal c), t.read goal = t.readDirectly goal) ∧
      t.read .expr =
        if t.phrase?.any Opened.isChain then t.opened.directLink else t.opened.expr := by
  refine ⟨fun goal => ?_, ?_⟩
  · rw [read, readDirectly, Part.ofTreeDirectly_eq]
  · calc t.read .expr = t.opened.expr := read_eq t .expr
      _ = t.opened.directExpr := (Opened.directExpr_opened t).symm
      _ = _ := by rw [Opened.directExpr, tree_opened]

/-- Where two links lack their first phrase, it is the inner one that is at fault. -/
example (l : Location) (right : Tree) :
    let inner : Tree := .node .additive [] l l
    (Tree.node .memberAccess [inner, right] l l).read .expr =
      .error (inner.error (.expected "at least 1 child rules")) := rfl

end JavaSource
