import JavaSource.Token.Basic
import JavaSource.Tree.Phrase

/-!
# Tree

The parse tree: tokens at the leaves, a phrase with its parts in source order at every other
node.  A node remembers where its first and its last token stand, so its span survives when parts
are taken out or put in.
-/

namespace JavaSource

open Text (Place Range Span)

/-- Where a token stands. -/
structure Location where
  place : Place
  range : Range
  deriving DecidableEq, Repr, Inhabited

/-- Where the token stands. -/
def Token.location (t : Token) : Location := ⟨t.place, t.range⟩

/-- A parse tree. -/
inductive Tree where
  | leaf (token : Token)
  | node (kind : Phrase) (parts : List Tree) (start stop : Location)
  deriving Repr, Inhabited

namespace Tree

/-- Where the first token stands. -/
def start : Tree → Location
  | leaf t           => t.location
  | node _ _ start _ => start

/-- Where the last token stands. -/
def stop : Tree → Location
  | leaf t          => t.location
  | node _ _ _ stop => stop

/-- A phrase over its parts.  With no parts it stands at a place of its own. -/
def ofParts (kind : Phrase) (parts : List Tree) (place : Location) : Tree :=
  node kind parts ((parts.head?.map start).getD place) ((parts.getLast?.map stop).getD place)

/-- The span of a tree, its end computed on the line of the last token. -/
def span (t : Tree) : Span :=
  ⟨t.start.place, t.stop.place.line, t.stop.place.column + t.stop.range.length⟩

/-- The kind of phrase, at a node. -/
def phrase? : Tree → Option Phrase
  | leaf _       => none
  | node k _ _ _ => some k

/-- The token, at a leaf. -/
def token? : Tree → Option Token
  | leaf t       => some t
  | node _ _ _ _ => none

/-- The parts of a node; a leaf has none. -/
def parts : Tree → List Tree
  | leaf _        => []
  | node _ ps _ _ => ps

/-! ### Looking at the parts

Only the direct parts count. -/

/-- The phrases among the parts. -/
def phrases (t : Tree) : List Tree :=
  t.parts.filter fun p => p.phrase?.isSome

/-- The phrases of one kind among the parts. -/
def phrasesOf (t : Tree) (kind : Phrase) : List Tree :=
  t.parts.filter fun p => p.phrase? == some kind

/-- The tokens among the parts. -/
def tokens (t : Tree) : List Token :=
  t.parts.filterMap token?

/-- The tokens of one kind among the parts. -/
def tokensOf (t : Tree) (kind : TokenKind) : List Token :=
  t.tokens.filter (·.kind == kind)

/-- Whether a token of some kind is a part. -/
def hasToken (t : Tree) (kind : TokenKind) : Bool :=
  t.tokens.any (·.kind == kind)

/-- Whether an identifier with a given spelling is a part. -/
def hasWord (t : Tree) (word : String) : Bool :=
  t.tokens.any (·.isWord word)

/-! ### The whole tree -/

mutual

/-- The tokens at the leaves, from left to right. -/
def leaves : Tree → List Token
  | leaf t        => [t]
  | node _ ps _ _ => leavesAll ps

/-- The tokens at the leaves of several trees. -/
def leavesAll : List Tree → List Token
  | []      => []
  | p :: ps => p.leaves ++ leavesAll ps

end

mutual

/-- The number of phrases on the longest way down. -/
def height : Tree → Nat
  | leaf _        => 0
  | node _ ps _ _ => heightAll ps + 1

/-- The height of the highest of several trees. -/
def heightAll : List Tree → Nat
  | []      => 0
  | p :: ps => max p.height (heightAll ps)

end

mutual

/-- Every tree within a tree, itself first, with its depth. -/
def preorder (depth : Nat) : Tree → List (Nat × Tree)
  | leaf t        => [(depth, leaf t)]
  | node k ps a b => (depth, node k ps a b) :: preorderAll (depth + 1) ps

/-- The same for several trees at one depth. -/
def preorderAll (depth : Nat) : List Tree → List (Nat × Tree)
  | []      => []
  | p :: ps => p.preorder depth ++ preorderAll depth ps

end

/-- What a node shows of itself in an outline. -/
def caption : Tree → String
  | leaf t       => t.display
  | node k _ _ _ => k.name

/-- The tree as an outline, two blanks a level, one node a line. -/
def outline (t : Tree) : String :=
  String.join <| (t.preorder 0).map fun (depth, t) =>
    String.ofList (List.replicate (2 * depth) ' ') ++ t.caption ++ "\n"

end Tree

end JavaSource
