import JavaSource.Syntax.Attribute

/-!
# Syntax — Visitor

Folding a tree.  A visitor says what a node without parts gives, how the results of its parts
combine from left to right, and what a node makes of that.
-/

namespace JavaSource

/-- A way to fold trees. -/
structure Visitor (α : Type) where
  /-- What the fold over the parts starts with. -/
  start : α
  /-- Takes in the result of the next part. -/
  combine : α → α → α
  /-- What a node makes of the result of its parts. -/
  hook : View → α → α

namespace Visitor

variable {α : Type} (visitor : Visitor α)

mutual

/-- The result for a view. -/
def visit : View → α
  | .mk s n ps => visitor.hook (.mk s n ps) (visitParts visitor.start ps)

/-- The results for several views, taken in from left to right. -/
def visitParts (result : α) : List View → α
  | []      => result
  | v :: vs => visitParts (visitor.combine result (visit v)) vs

end

/-- The result for a node that stands alone. -/
def visitNode {c : Category} (n : Node c) : α :=
  match n.view? with
  | some v => visitor.visit v
  | none   => visitor.start

/-! ### Some visitors -/

/-- The name of an identifier. -/
def identifier? (v : View) : Option String :=
  match v.node with
  | ⟨_, .identifier _ name⟩ => some name
  | _                       => none

/-- The kinds of all nodes in pre-order. -/
def kinds : Visitor (List String) where
  start := []
  combine := (· ++ ·)
  hook v inner := v.kindName :: inner

/-- The names of all identifiers. -/
def names : Visitor (List String) where
  start := []
  combine := (· ++ ·)
  hook v inner := match identifier? v with
    | some name => [name]
    | none      => inner

/-- The name of the last identifier or the kind of the last literal, unless something without
either comes after it. -/
def last : Visitor String where
  start := ""
  combine _ next := next
  hook v inner := match identifier? v with
    | some name => name
    | none      => if v.kind? == some .literal then v.kindName else inner

/-- The height of the tree, lambdas taken as leaves. -/
def height : Visitor Nat where
  start := 1
  combine result next := max result (next + 1)
  hook v inner := if v.kind? == some .lambda then 1 else inner

end Visitor

end JavaSource
