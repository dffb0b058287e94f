import JavaSource.Text.Lines
import JavaSource.Token.Kind

/-!
# Token

A token is a kind, the text it stands for and where that text is.
-/

namespace JavaSource

open Text (Place Range Span)

/-- A piece of source that the grammar treats as one symbol. -/
structure Token where
  kind : TokenKind
  /-- The text exactly as written. -/
  text : String
  /-- The place of the first character. -/
  place : Place
  /-- The characters it covers. -/
  range : Range
  deriving DecidableEq, Repr, Inhabited

namespace Token

/-- The number of characters. -/
def length (t : Token) : Nat := t.range.length

/-- Whether this is an identifier with a given spelling.  Contextual keywords are told from
reserved words this way. -/
def isWord (t : Token) (word : String) : Bool :=
  t.kind == .identifier && t.text == word

/-- How a token is shown in messages. -/
def display (t : Token) : String :=
  if t.kind = .eof then "<EOF>" else t.text

/-- The span of a token lies within the line it starts on. -/
def span (t : Token) : Span :=
  ⟨t.place, t.place.line, t.place.column + t.length⟩

end Token

end JavaSource
