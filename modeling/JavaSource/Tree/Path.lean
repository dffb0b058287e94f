import JavaSource.Tree.Basic

/-!
# Tree — Path

Addresses within a tree and edits at an address.  A path lists part numbers from the root down.
Edits change the parts of a node and nothing else: where the nodes above start and stop stays as
it was.
-/

namespace JavaSource.Tree

/-- Part numbers from the root down. -/
abbrev Path := List Nat

/-- The tree at a path. -/
def at? : Tree → Path → Option Tree
  | t, []      => some t
  | t, i :: is => t.parts[i]?.bind (·.at? is)
termination_by _ path => path.length

/-- The tree with other parts. -/
def withParts : Tree → List Tree → Tree
  | leaf t,       _  => leaf t
  | node k _ a b, ps => node k ps a b

/-- What becomes of the part that a path leads to. -/
inductive Edit where
  /-- It goes. -/
  | drop
  /-- A copy follows it. -/
  | dup
  /-- A token gets another text. -/
  | retext (text : String)
  /-- Another tree takes its place. -/
  | graft (tree : Tree)

/-- A token with another text. -/
def retext (text : String) : Tree → Tree
  | leaf t        => leaf { t with text := text }
  | node k ps a b => node k ps a b

/-- What stands in place of the part. -/
def Edit.apply (edit : Edit) (part : Tree) : List Tree :=
  match edit with
  | .drop        => []
  | .dup         => [part, part]
  | .retext text => [part.retext text]
  | .graft tree  => [tree]

/-- The tree with an edit done at a path; nothing happens at the root or where nothing is. -/
def edit (edit : Edit) : Tree → Path → Tree
  | t, []      => t
  | t, i :: is =>
    match t.parts[i]? with
    | none      => t
    | some part =>
      let there := if is.isEmpty then edit.apply part else [part.edit edit is]
      t.withParts (t.parts.take i ++ there ++ t.parts.drop (i + 1))
termination_by _ path => path.length

end JavaSource.Tree
