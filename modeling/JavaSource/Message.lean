import JavaSource.Text.Span

/-!
# Message

The catalogue of what a reader of source may complain about.  A template has a number, a
severity and a text with numbered holes `{0}`, `{1}`, …; formatting fills the holes one after
another, each over the whole text as filled so far.
-/

namespace JavaSource

open Text (Place)

/-- How serious a message is. -/
inductive Severity where
  | warning
  | error
  deriving DecidableEq, Repr

/-- A severity as it is shown. -/
def Severity.text : Severity → String
  | .warning => "warning"
  | .error   => "error"

/-- A numbered message with holes for its arguments. -/
structure Template where
  code : Nat
  severity : Severity
  text : String

namespace Template

/-- Every occurrence of `pattern` in the text becomes `by_`, found from left to right and not
inside what was put in. -/
def replaceAll (pattern by_ : List Char) (text : List Char) : List Char :=
  match text with
  | []      => []
  | c :: cs =>
    if pattern.isPrefixOf (c :: cs) && !pattern.isEmpty then
      by_ ++ replaceAll pattern by_ (cs.drop (pattern.length - 1))
    else
      c :: replaceAll pattern by_ cs
termination_by text.length
decreasing_by all_goals simp [List.length_drop]; try omega

/-- The hole for the argument at `index`. -/
def hole (index : Nat) : List Char :=
  '\x7b' :: (toString index).toList ++ ['\x7d']

/-- Fills the holes from `index` on. -/
def fillFrom (index : Nat) (text : List Char) : List String → List Char
  | []          => text
  | arg :: args => fillFrom (index + 1) (replaceAll (hole index) arg.toList text) args

/-- A text with its holes filled by the arguments in turn. -/
def fill (text : String) (args : List String) : String :=
  String.ofList (fillFrom 0 text.toList args)

/-- The message for given arguments. -/
def format (t : Template) (args : List String) : String :=
  fill t.text args

/-! ### The catalogue -/

def tokenRecognitionError : Template := ⟨100, .error, "token recognition error at: '\x7b0\x7d'"⟩
def unterminatedString    : Template := ⟨101, .error, "unterminated string literal"⟩
def unterminatedChar      : Template := ⟨102, .error, "unterminated character literal"⟩
def unterminatedTextBlock : Template := ⟨103, .error, "unterminated text block"⟩
def unterminatedComment   : Template := ⟨104, .error, "unterminated comment"⟩
def malformedNumber       : Template := ⟨105, .error, "malformed numeric literal '\x7b0\x7d'"⟩
def mismatchedInput       : Template :=
  ⟨200, .error, "mismatched input '\x7b0\x7d' expecting \x7b1\x7d"⟩
def noViableAlternative   : Template :=
  ⟨201, .error, "no viable alternative at input '\x7b0\x7d'"⟩
def extraneousInput       : Template :=
  ⟨202, .error, "extraneous input '\x7b0\x7d' expecting \x7b1\x7d"⟩
def nestingTooDeep        : Template :=
  ⟨203, .error, "input nested deeper than \x7b0\x7d levels"⟩
def lambdaReceiver        : Template :=
  ⟨204, .error, "receiver parameter not allowed in lambda"⟩

end Template

/-- A message at a place, as it is shown. -/
def shownAt (place : Place) (severity : Severity) (text : String) : String :=
  s!"Line {place.line}, Column {place.column}: {severity.text}: {text}"

end JavaSource
