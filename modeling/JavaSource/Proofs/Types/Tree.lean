import JavaSource.Proofs.Operators.Tree

/-!
# Type trees

Types without annotations, as they are written: primitive types and class types, with type
arguments nested to any depth and with dimensions.  As with expressions (`OpTree`), a `TypeTree` has
a node, characters, symbols and a parse tree.

A `>` in front of a `>` touches it.  So the symbols of a type depend on whether one stands behind
it.
-/

namespace JavaSource

open Grammar (Symbol)

/-- The identifiers that mean something else in some places. -/
def contextualWords : List String :=
  ["var", "yield", "record", "sealed", "permits", "when", "module", "open", "requires",
   "transitive", "exports", "opens", "to", "uses", "provides", "with"]

/-- Whether a name is one everywhere. -/
def LegalName.IsPlain (n : LegalName) : Prop := n.text ∉ contextualWords

instance (n : LegalName) : Decidable n.IsPlain :=
  inferInstanceAs (Decidable (n.text ∉ contextualWords))

theorem LegalName.IsPlain.ne {n : LegalName} (h : n.IsPlain) {word : String}
    (hword : word ∈ contextualWords) : n.text ≠ word := fun heq => h (heq ▸ hword)

/-- The node of a name that is no expression. -/
def LegalName.identifier (n : LegalName) (spans : Spans) : Node .identifier :=
  .identifier (spans []) n.text

/-- The primitive types. -/
inductive Primitive where
  | boolean | byte | short | int | long | char | float | double

namespace Primitive

/-- The word of the syntax. -/
def word : Primitive → TypeWord
  | boolean => .boolean
  | byte    => .byte
  | short   => .short
  | int     => .int
  | long    => .long
  | char    => .char
  | float   => .float
  | double  => .double

/-- The token. -/
def kind : Primitive → TokenKind
  | boolean => .booleanKw
  | byte    => .byteKw
  | short   => .shortKw
  | int     => .intKw
  | long    => .longKw
  | char    => .charKw
  | float   => .floatKw
  | double  => .doubleKw

end Primitive

/-- What a type argument may start with, so that it is a wildcard with a bound. -/
inductive Bound where
  | extends
  | super

/-- The token. -/
def Bound.kind : Bound → TokenKind
  | .extends => .extendsKw
  | .super   => .superKw

mutual

/-- A type as it is written, without annotations. -/
inductive TypeTree where
  | mk (base : BaseTree) (dims : Nat)

/-- A type without dimensions. -/
inductive BaseTree where
  | word (word : Primitive)
  | named (parts : CoitTrees)

/-- A part of a class type. -/
inductive CoitTree where
  | plain (name : LegalName)
  | generic (name : LegalName) (args : ArgTrees)

/-- The parts of a class type. -/
inductive CoitTrees where
  | last (part : CoitTree)
  | dot (first : CoitTree) (others : CoitTrees)

/-- A type argument. -/
inductive ArgTree where
  | type (type : TypeTree)
  | wildcard
  | bounded (bound : Bound) (type : TypeTree)

/-- Several type arguments. -/
inductive ArgTrees where
  | nil
  | cons (first : ArgTree) (others : ArgTrees)

end

/-- A type that is a name. -/
def TypeTree.ofName (n : LegalName) : TypeTree := .mk (.named (.last (.plain n))) 0

/-! ### Classes -/

/-- Class types are something else than a lone `var`. -/
def CoitTrees.IsClass : CoitTrees → Prop
  | .last (.plain n) => n.text ≠ "var"
  | _                => True

mutual

/-- All class types are classes. -/
def TypeTree.HasClasses : TypeTree → Prop
  | .mk base _ => base.HasClasses

def BaseTree.HasClasses : BaseTree → Prop
  | .word _ => True
  | .named parts => parts.IsClass ∧ parts.HasClasses

def CoitTree.HasClasses : CoitTree → Prop
  | .plain _ => True
  | .generic _ args => args.HasClasses

def CoitTrees.HasClasses : CoitTrees → Prop
  | .last part => part.HasClasses
  | .dot first others => first.HasClasses ∧ others.HasClasses

def ArgTree.HasClasses : ArgTree → Prop
  | .wildcard => True
  | .type type | .bounded _ type => type.HasClasses

def ArgTrees.HasClasses : ArgTrees → Prop
  | .nil => True
  | .cons first others => first.HasClasses ∧ others.HasClasses

end

/-! ### What it means -/

/-- The nodes of dimensions. -/
def dimNodes (spans : Spans) : Nat → Nodes .dim
  | 0        => .nil
  | dims + 1 => .cons (.dim (spans [0]) .nil) (dimNodes (spans.below 1) dims)

/-- The node of a wildcard with a bound. -/
def Bound.node (spans : Spans) (ty : TypeNode) : Bound → TypeNode
  | .extends =>
    .wildcardType (spans []) .nil (.present (.wildcardBound (spans [0]) ty true false))
  | .super =>
    .wildcardType (spans []) .nil (.present (.wildcardBound (spans [0]) ty false true))

mutual

/-- The node of a type. -/
def TypeTree.node (spans : Spans) : TypeTree → TypeNode
  | .mk base 0 => base.node spans
  | .mk base (dims + 1) => .arrayType (spans []) .nil (base.node (spans.below 0))
    (dimNodes (spans.below 1) (dims + 1))

def BaseTree.node (spans : Spans) : BaseTree → TypeNode
  | .word word => .wordType (spans []) .nil word.word
  | .named parts => .classType (spans []) .nil (parts.node (spans.below 0))

def CoitTree.node (spans : Spans) : CoitTree → Node .coit
  | .plain name => .coit (spans []) .nil (name.identifier (spans.below 0)) .absent
  | .generic name args => .coit (spans []) .nil (name.identifier (spans.below 0))
    (.present (.typeArguments (spans [1]) (args.node (spans.below 2))))

def CoitTrees.node (spans : Spans) : CoitTrees → Nodes .coit
  | .last part => .cons (part.node (spans.below 0)) .nil
  | .dot first others => .cons (first.node (spans.below 0)) (others.node (spans.below 1))

def ArgTree.node (spans : Spans) : ArgTree → TypeNode
  | .type type => type.node spans
  | .wildcard => .wildcardType (spans []) .nil .absent
  | .bounded bound type => bound.node spans (type.node (spans.below 1))

def ArgTrees.node (spans : Spans) : ArgTrees → Nodes .type
  | .nil => .nil
  | .cons first others => .cons (first.node (spans.below 0)) (others.node (spans.below 1))

end

/-! ### Characters -/

/-- Dimensions as they are written. -/
def dimChars : Nat → List Char
  | 0        => []
  | dims + 1 => '[' :: ']' :: dimChars dims

/-- The start of a wildcard with a bound. -/
def Bound.chars : Bound → List Char
  | .extends => "? extends ".toList
  | .super   => "? super ".toList

mutual

/-- A type as it is written. -/
def TypeTree.chars : TypeTree → List Char
  | .mk base dims => base.chars ++ dimChars dims

def BaseTree.chars : BaseTree → List Char
  | .word word => word.word.text.toList
  | .named parts => parts.chars

def CoitTree.chars : CoitTree → List Char
  | .plain name => name.chars
  | .generic name args => name.chars ++ '<' :: args.chars [] ++ ['>']

def CoitTrees.chars : CoitTrees → List Char
  | .last part => part.chars
  | .dot first others => first.chars ++ '.' :: others.chars

def ArgTree.chars : ArgTree → List Char
  | .type type => type.chars
  | .wildcard => ['?']
  | .bounded bound type => bound.chars ++ type.chars

/-- Type arguments, each behind a separator, the first one behind one of its own. -/
def ArgTrees.chars (lead : List Char) : ArgTrees → List Char
  | .nil => []
  | .cons first others => lead ++ first.chars ++ others.chars [',', ' ']

end

/-! ### Symbols -/

/-- A `>`, which may touch the next one. -/
def gtSymbol (touches : Bool) : Symbol := ⟨.gt, ">", touches⟩

/-- The symbols of dimensions. -/
def dimSymbols : Nat → List Symbol
  | 0        => []
  | dims + 1 => TokenKind.lbrack.symbol :: TokenKind.rbrack.symbol :: dimSymbols dims

/-- The symbols of the start of a wildcard with a bound. -/
def Bound.symbols (bound : Bound) : List Symbol :=
  [TokenKind.question.symbol, bound.kind.symbol]

/-- Whether nothing follows. -/
def ArgTrees.isNil : ArgTrees → Bool
  | .nil => true
  | _    => false

mutual

/-- The symbols of a type, in front of a `>` that its last symbol touches or in front of something
else. -/
def TypeTree.symbols (touches : Bool) : TypeTree → List Symbol
  | .mk base dims => base.symbols (dims == 0 && touches) ++ dimSymbols dims

def BaseTree.symbols (touches : Bool) : BaseTree → List Symbol
  | .word word => [word.kind.symbol]
  | .named parts => parts.symbols touches

def CoitTree.symbols (touches : Bool) : CoitTree → List Symbol
  | .plain name => [name.symbol]
  | .generic name args =>
    name.symbol :: TokenKind.lt.symbol :: args.symbols [] ++ [gtSymbol touches]

def CoitTrees.symbols (touches : Bool) : CoitTrees → List Symbol
  | .last part => part.symbols touches
  | .dot first others => first.symbols false ++ TokenKind.dot.symbol :: others.symbols touches

def ArgTree.symbols (touches : Bool) : ArgTree → List Symbol
  | .type type => type.symbols touches
  | .wildcard => [TokenKind.question.symbol]
  | .bounded bound type => bound.symbols ++ type.symbols touches

def ArgTrees.symbols (lead : List Symbol) : ArgTrees → List Symbol
  | .nil => []
  | .cons first others =>
    lead ++ first.symbols others.isNil ++ others.symbols [TokenKind.comma.symbol]

end

/-! ### Phrases -/

/-- The parse trees of dimensions. -/
def dimTrees : Nat → List Tree
  | 0        => []
  | dims + 1 => Phrase.dim.over [TokenKind.lbrack.leaf, TokenKind.rbrack.leaf] :: dimTrees dims

/-- The parse tree of a wildcard with a bound. -/
def Bound.tree (bound : Bound) (t : Tree) : Tree :=
  Phrase.wildcard.over [TokenKind.question.leaf, bound.kind.leaf, t]

mutual

/-- The parse tree of a type. -/
def TypeTree.tree : TypeTree → Tree
  | .mk base dims => Phrase.type.over (base.tree :: dimTrees dims)

def BaseTree.tree : BaseTree → Tree
  | .word word => word.kind.leaf
  | .named parts => Phrase.classType.over parts.trees

def CoitTree.tree : CoitTree → Tree
  | .plain name => Phrase.coit.over [name.leaf]
  | .generic name args => Phrase.coit.over [name.leaf, Phrase.typeArguments.over
    (TokenKind.lt.leaf :: args.trees [] ++ [TokenKind.gt.leaf])]

def CoitTrees.trees : CoitTrees → List Tree
  | .last part => [part.tree]
  | .dot first others => first.tree :: TokenKind.dot.leaf :: others.trees

def ArgTree.tree : ArgTree → Tree
  | .type type => type.tree
  | .wildcard => Phrase.wildcard.over [TokenKind.question.leaf]
  | .bounded bound type => bound.tree type.tree

def ArgTrees.trees (lead : List Tree) : ArgTrees → List Tree
  | .nil => []
  | .cons first others => lead ++ first.tree :: others.trees [TokenKind.comma.leaf]

end

end JavaSource
