import JavaSource.Mode
import JavaSource.Token.Lexer
import JavaSource.Grammar.Recognizer
import JavaSource.Reading.Reader

/-!
# Source

From source text to syntax: tokens, the parse tree that the mode's rule gives, and what that tree
is read as.
-/

namespace JavaSource

/-- Why a source has no syntax. -/
inductive Failure where
  /-- It does not follow the grammar. -/
  | fault (fault : Fault)
  /-- It does, but makes no sense. -/
  | node (error : NodeError)
  deriving DecidableEq, Repr

/-- How deeply a source may nest unless said otherwise. -/
def defaultLimit : Nat := 200

/-- The parse tree of a source. -/
def parseTree (mode : Mode) (limit : Nat) (source : String) : Except Fault Tree := do
  Grammar.recognize limit mode.start (← tokenize source)

/-- The syntax of a source. -/
def parse (mode : Mode) (limit : Nat) (source : String) : Except Failure AnyNode := do
  let tree ← (parseTree mode limit source).mapError .fault
  tree.readWhole.mapError .node

end JavaSource
