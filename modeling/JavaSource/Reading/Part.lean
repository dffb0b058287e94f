import JavaSource.Syntax.Check
import JavaSource.Tree.Basic

/-!
# Reading — Part

How syntax is read off a parse tree.  A `Goal` says what a tree is read as.  A tree is read by
looking at its tokens and at what its parts are read as; `Part` offers both, so that the rules for
the phrases are plain functions, and `Opened` is a tree whose parts are at hand.

A part of the wrong shape is an error that names the phrase it was missed in.
-/

namespace JavaSource

open Text (Span)

/-- What a tree is read as. -/
inductive Goal : Category → Type where
  | qualifiedName : Goal .qualifiedName
  | qualifiedNames : Goal (.list .qualifiedName)
  | modifiers : Goal (.list .modifier)
  | annotationUse : Goal .annotationUse
  | annotationElement : Goal .annotationElement
  | elementValue : Goal .elementValue
  | elementValueArray : Goal .elementValue
  | type : Goal .type
  | classType : Goal .type
  /-- A type, or a wildcard. -/
  | typeArgument : Goal .type
  | types : Goal (.list .type)
  | coit : Goal .coit
  | typeArguments : Goal .typeArguments
  | dim : Goal .dim
  | typeParameter : Goal .typeParameter
  | typeParameters : Goal .typeParameters
  | typeBound : Goal .typeBound
  | pattern : Goal .pattern
  | expr : Goal .expr
  /-- Every phrase is an expression. -/
  | exprs : Goal (.list .expr)
  | lambdaParams : Goal .lambdaParams
  | dimExpr : Goal .dimExpr
  | arrayInitializer : Goal .arrayInitializer
  | caseItem : Goal .caseItem
  | caseItems : Goal (.list .caseItem)
  /-- The operands of a conjunction. -/
  | conditions : Goal (.list .expr)
  /-- A rule of a switch block, or a group as one rule for each of its labels. -/
  | switchRules : Goal (.list .switchRule)
  | stmt : Goal .stmt
  | block : Goal .block
  | localVariables : Goal .localVariables
  | forInit : Goal .forInit
  | catchClause : Goal .catchClause
  | tryResource : Goal .tryResource
  | switchBlock : Goal .switchBlock
  | decl : Goal .decl
  /-- Every phrase is a declaration. -/
  | decls : Goal (.list .decl)
  /-- A declaration without its modifiers. -/
  | member : Goal .decl
  | enumConstant : Goal .enumConstant
  | recordComponent : Goal .recordComponent
  | variableDeclarator : Goal .variableDeclarator
  | variableDeclarators : Goal (.list .variableDeclarator)
  | variableDeclaratorId : Goal .variableDeclaratorId
  | receiverParameter : Goal .receiverParameter
  | formalParameter : Goal .formalParameter
  | formalParameters : Goal .formalParameters
  | packageDecl : Goal .packageDecl
  | importDecl : Goal .importDecl
  | directive : Goal .directive
  | moduleDecl : Goal .moduleDecl
  | compilationUnit : Goal .compilationUnit

/-- A node, or why there is none. -/
abbrev Reading (c : Category) := Except NodeError (Node c)

/-- A tree, its parts, and what it is read as. -/
inductive Part where
  | mk (tree : Tree) (parts : List Part) (read : {c : Category} → Goal c → Reading c)

/-- A tree whose parts are at hand. -/
structure Opened where
  tree : Tree
  parts : List Part

/-- A name from a token. -/
def Token.identifier (t : Token) : Node .identifier := .identifier (some t.span) t.text

namespace Part

/-- The tree. -/
def tree : Part → Tree
  | mk t _ _ => t

/-- The tree with its parts. -/
def opened : Part → Opened
  | mk t ps _ => ⟨t, ps⟩

/-- The tree read as something. -/
def read {c : Category} (goal : Goal c) : Part → Reading c
  | mk _ _ r => r goal

/-- Whether it is a phrase of some kind. -/
def isA (kind : Phrase) (p : Part) : Bool := p.tree.phrase? == some kind

/-- Whether it is a phrase and no token. -/
def isPhrase (p : Part) : Bool := p.tree.phrase?.isSome

/-- Trees read as the same thing. -/
def readAll {c : Category} (goal : Goal c) (ps : List Part) : Reading (.list c) :=
  Node.ofList <$> ps.mapM (read goal)

/-- A tree, if there is one, read as something. -/
def readOption {c : Category} (goal : Goal c) : Option Part → Reading (.opt c)
  | some p => .present <$> p.read goal
  | none   => .ok .absent

end Part

namespace Tree

/-- What is wrong with a tree. -/
def error (t : Tree) (problem : NodeProblem) : NodeError :=
  ⟨"ParseTree", t.caption, problem, some t.span⟩

end Tree

namespace Opened

variable (o : Opened)

/-- What is wrong with the tree. -/
def error {α : Type} (problem : NodeProblem) : Except NodeError α := .error (o.tree.error problem)

/-- Something that the tree lacks. -/
def lacks {α : Type} (what : String) : Except NodeError α := o.error (.expected what)

/-- The span of the tree. -/
def span : Option Span := some o.tree.span

/-- The phrases among the parts. -/
def phrases : List Part := o.parts.filter Part.isPhrase

/-- The phrases of one kind among the parts. -/
def phrasesOf (kind : Phrase) : List Part := o.parts.filter (Part.isA kind)

/-- The phrases of other kinds than one among the parts. -/
def phrasesBut (kind : Phrase) : List Part := o.phrases.filter fun p => !p.isA kind

/-- The first phrase of a kind. -/
def first? (kind : Phrase) : Option Part := o.parts.find? (Part.isA kind)

/-- The first phrase of a kind that has to be there. -/
def first (kind : Phrase) : Except NodeError Part :=
  match o.first? kind with
  | some p => .ok p
  | none   => o.lacks s!"a {kind.name} child"

/-- The phrase at a place, counted from zero. -/
def nth (i : Nat) : Except NodeError Part :=
  match o.phrases[i]? with
  | some p => .ok p
  | none   => o.lacks s!"at least {i + 1} child rules"

/-- The last phrase. -/
def last : Except NodeError Part :=
  match o.phrases.getLast? with
  | some p => .ok p
  | none   => o.lacks "a child rule"

/-- The first phrase behind a token of some kind. -/
def behind? (isMarker : Token → Bool) : Option Part :=
  (o.parts.dropWhile fun p => !p.tree.token?.any isMarker).find? Part.isPhrase

/-- The first token. -/
def token : Except NodeError Token :=
  match o.tree.tokens.head? with
  | some t => .ok t
  | none   => o.lacks "a token"

/-- Whether a token of some kind is a part. -/
def hasToken (kind : TokenKind) : Bool := o.tree.hasToken kind

/-- All identifiers among the parts. -/
def identifiers : List (Node .identifier) := (o.tree.tokensOf .identifier).map Token.identifier

/-- The first identifier. -/
def identifier? : Option (Node .identifier) := o.identifiers.head?

/-- The first identifier, missed by some name. -/
def identifierAs (what : String) : Reading .identifier :=
  match o.identifier? with
  | some id => .ok id
  | none    => o.lacks what

/-- The first identifier that has to be there. -/
def identifier : Reading .identifier := o.identifierAs "an identifier"

variable {c : Category}

/-- The phrase at a place read as something. -/
def readNth (i : Nat) (goal : Goal c) : Reading c := do (← o.nth i).read goal

/-- The first phrase of a kind read as something. -/
def readFirst (kind : Phrase) (goal : Goal c) : Reading c := do (← o.first kind).read goal

/-- The first phrase of a kind, if there is one, read as something. -/
def readFirst? (kind : Phrase) (goal : Goal c) : Reading (.opt c) :=
  Part.readOption goal (o.first? kind)

/-- The first phrase of a kind, if there is one, read as a list. -/
def readList (kind : Phrase) (goal : Goal (.list c)) : Reading (.list c) :=
  match o.first? kind with
  | some p => p.read goal
  | none   => .ok .nil

/-- The phrases of a kind read as the same thing. -/
def readAll (kind : Phrase) (goal : Goal c) : Reading (.list c) :=
  Part.readAll goal (o.phrasesOf kind)

/-- The annotations among the parts. -/
def annotations : Reading (.list .annotationUse) := o.readAll .annotationUse .annotationUse

/-- The modifiers in front. -/
def modifiers : Reading (.list .modifier) := o.readList .modifiers .modifiers

/-- The dimensions among the parts. -/
def dims : Reading (.list .dim) := o.readAll .dim .dim

end Opened

end JavaSource
