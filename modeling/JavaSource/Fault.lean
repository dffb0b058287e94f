import JavaSource.Message

/-!
# Fault

Why a source is refused.  A fault is a cause at a place; its wording comes from the catalogue of
messages and from nowhere else.
-/

namespace JavaSource

open Text (Place)

/-- What is wrong with a source. -/
inductive Cause where
  | unrecognized (text : String)
  | unterminatedString
  | unterminatedChar
  | unterminatedTextBlock
  | unterminatedComment
  | malformedNumber (text : String)
  | mismatched (found expecting : String)
  | noViableAlternative (found : String)
  | extraneous (found expecting : String)
  | tooDeep (limit : Nat)
  | lambdaReceiver
  deriving DecidableEq, Repr

namespace Cause

/-- The message of a cause. -/
def template : Cause → Template
  | .unrecognized _        => .tokenRecognitionError
  | .unterminatedString    => .unterminatedString
  | .unterminatedChar      => .unterminatedChar
  | .unterminatedTextBlock => .unterminatedTextBlock
  | .unterminatedComment   => .unterminatedComment
  | .malformedNumber _     => .malformedNumber
  | .mismatched _ _        => .mismatchedInput
  | .noViableAlternative _ => .noViableAlternative
  | .extraneous _ _        => .extraneousInput
  | .tooDeep _             => .nestingTooDeep
  | .lambdaReceiver        => .lambdaReceiver

/-- What fills the holes of that message. -/
def arguments : Cause → List String
  | .unrecognized text | .malformedNumber text                   => [text]
  | .mismatched found expecting | .extraneous found expecting    => [found, expecting]
  | .noViableAlternative found                                   => [found]
  | .tooDeep limit                                               => [toString limit]
  | .unterminatedString | .unterminatedChar | .unterminatedTextBlock | .unterminatedComment
  | .lambdaReceiver                                              => []

/-- The wording of a cause. -/
def text (c : Cause) : String :=
  c.template.format c.arguments

end Cause

/-- A cause and where it was met. -/
structure Fault where
  place : Place
  cause : Cause
  deriving DecidableEq, Repr

/-- A fault as it is shown. -/
def Fault.text (f : Fault) : String :=
  shownAt f.place f.cause.template.severity f.cause.text

end JavaSource
