import JavaSource.Token.Basic
import JavaSource.Tree.Phrase

/-!
# Grammar — Ahead

What a grammar may look at when it decides how to go on: the symbols of the source, the place it
has come to among them, and the kind of the phrase it built last.  A symbol is a token without
its place.  Layout is gone but for one bit: whether a token touches the next one, which is how a
shift operator is told from two comparisons.
-/

namespace JavaSource.Grammar

/-- A token as the grammar sees it. -/
structure Symbol where
  kind : TokenKind
  text : String
  /-- Whether the next token follows without anything in between. -/
  touches : Bool
  deriving DecidableEq, Repr

/-- The symbol that ends every source and goes on for ever behind it. -/
def Symbol.final : Symbol := ⟨.eof, "", false⟩

/-- Whether a symbol is an identifier with a given spelling. -/
def Symbol.isWord (s : Symbol) (word : String) : Bool :=
  s.kind == .identifier && s.text == word

/-- Tokens as symbols. -/
def symbols : List Token → List Symbol
  | []           => []
  | [t]          => [⟨t.kind, t.text, false⟩]
  | t :: u :: ts => ⟨t.kind, t.text, t.range.stop == u.range.start⟩ :: symbols (u :: ts)

/-- The view of a grammar at some place in a source. -/
structure Ahead where
  symbols : Array Symbol
  /-- How many symbols have been read. -/
  read : Nat
  /-- The kind of the phrase that was built last in the phrase now being read. -/
  last : Option Phrase

namespace Ahead

/-- The symbol `n` places ahead. -/
def at_ (a : Ahead) (n : Nat) : Symbol :=
  (a.symbols[a.read + n]?).getD .final

/-- The kind of the symbol `n` places ahead. -/
def kindAt (a : Ahead) (n : Nat) : TokenKind := (a.at_ n).kind

/-- The kind of the next symbol. -/
def kind (a : Ahead) : TokenKind := a.kindAt 0

/-- Whether the next symbol is of a given kind. -/
def isAt (a : Ahead) (kind : TokenKind) : Bool := a.kind == kind

/-- Whether the next symbol is an identifier with a given spelling. -/
def isAtWord (a : Ahead) (word : String) : Bool := (a.at_ 0).isWord word

/-- The kind of the symbol just read. -/
def behind (a : Ahead) : Option TokenKind :=
  if a.read = 0 then none else (a.symbols[a.read - 1]?).map (·.kind)

/-- The view after `n` more symbols. -/
def skip (a : Ahead) (n : Nat) : Ahead := { a with read := a.read + n }

/-! ### What starts here -/

/-- The number of symbols up to the parenthesis that closes the first one. -/
def closing : (opened : Nat) → List Symbol → Option Nat
  | _, []           => none
  | opened, s :: ss =>
    match s.kind with
    | .eof    => none
    | .lparen => (closing (opened + 1) ss).map (· + 1)
    | .rparen => if opened ≤ 1 then some 0 else (closing (opened - 1) ss).map (· + 1)
    | _       => (closing opened ss).map (· + 1)

/-- How far ahead the parenthesis stands that closes the one standing here. -/
def closingParen (a : Ahead) : Option Nat :=
  closing 0 (a.symbols.toList.drop a.read)

/-- A lambda starts with `x ->`, or with parentheses before an arrow. -/
def startsLambda (a : Ahead) : Bool :=
  match a.kind with
  | .identifier => a.kindAt 1 == .arrow
  | .lparen     => a.closingParen.any fun n => a.kindAt (n + 1) == .arrow
  | _           => false

/-- The reserved words that modify a declaration. -/
def isModifierWord : TokenKind → Bool
  | .publicKw | .protectedKw | .privateKw | .staticKw | .abstractKw | .finalKw | .nativeKw
  | .synchronizedKw | .transientKw | .volatileKw | .strictfpKw | .defaultKw | .nonSealed => true
  | _ => false

/-- An annotation starts with `@`, unless `interface` follows. -/
def startsAnnotation (a : Ahead) : Bool :=
  a.isAt .atSign && a.kindAt 1 != .interfaceKw

/-- `sealed` modifies when another modifier or a type declaration follows. -/
def isSealed (a : Ahead) : Bool :=
  a.isAtWord "sealed" &&
    (isModifierWord (a.kindAt 1) || a.kindAt 1 == .classKw || a.kindAt 1 == .interfaceKw
      || a.kindAt 1 == .enumKw || a.kindAt 1 == .atSign
      || (a.at_ 1).isWord "sealed" || (a.at_ 1).isWord "record")

/-- Whether a modifier of one word stands here. -/
def isAtModifierWord (a : Ahead) : Bool :=
  isModifierWord a.kind || a.isSealed

/-- Whether a modifier starts here. -/
def startsModifier (a : Ahead) : Bool :=
  a.isAtModifierWord || a.startsAnnotation

/-- A record starts with `record`, a name, and a header or type parameters. -/
def startsRecord (a : Ahead) : Bool :=
  a.isAtWord "record" && a.kindAt 1 == .identifier && (a.kindAt 2 == .lparen || a.kindAt 2 == .lt)

/-- Whether a type is declared here, modifiers aside. -/
def startsTypeDeclaration (a : Ahead) : Bool :=
  match a.kind with
  | .classKw | .interfaceKw | .enumKw => true
  | .atSign     => a.kindAt 1 == .interfaceKw
  | .identifier => a.startsRecord
  | _           => false

/-- `yield` starts a statement unless what follows makes it a name. -/
def startsYield (a : Ahead) : Bool :=
  a.isAtWord "yield" &&
    match a.kindAt 1 with
    | .dot | .lbrack | .inc | .dec | .arrow | .semi | .colon | .eof => false
    | kind => !kind.isAssignment

/-- Whether a type, with modifiers before it or not, could start here. -/
def mayStartType (a : Ahead) : Bool :=
  match a.kind with
  | .identifier | .finalKw | .atSign => true
  | kind => kind.isPrimitiveType

/-- Whether `[]` stands here. -/
def startsDim (a : Ahead) : Bool :=
  a.isAt .lbrack && a.kindAt 1 == .rbrack

/-- How many symbols the `[]` pairs standing here take. -/
def dimsWidth : List Symbol → Nat
  | ⟨.lbrack, _, _⟩ :: ⟨.rbrack, _, _⟩ :: ss => dimsWidth ss + 2
  | _ => 0

/-- The view behind the `[]` pairs standing here. -/
def skipDims (a : Ahead) : Ahead :=
  a.skip (dimsWidth (a.symbols.toList.drop a.read))

/-- What a unary expression starts with when it cannot continue a sum. -/
def startsUnsigned (kind : TokenKind) : Bool :=
  kind.isLiteral || kind.isPrimitiveType ||
    match kind with
    | .tilde | .bang | .lparen | .identifier | .thisKw | .superKw | .newKw | .switchKw
    | .voidKw => true
    | _ => false

/-- What any unary expression starts with. -/
def startsUnary (kind : TokenKind) : Bool :=
  startsUnsigned kind ||
    match kind with
    | .add | .sub | .inc | .dec => true
    | _ => false

/-- Whether all of the next `n` symbols are names and dots. -/
def isPlainName (a : Ahead) (n : Nat) : Bool :=
  (List.range n).all fun i => a.kindAt i == .identifier || a.kindAt i == .dot

/-- The binary operator standing here and the number of symbols it takes.  Up to three `>` that
touch make one operator. -/
def operator (a : Ahead) : TokenKind × Nat :=
  if a.kind != .gt then (a.kind, 1)
  else if !((a.at_ 0).touches && a.kindAt 1 == .gt) then (.gt, 1)
  else if !((a.at_ 1).touches && a.kindAt 2 == .gt) then (.rshift, 2)
  else (.urshift, 3)

end Ahead

end JavaSource.Grammar
