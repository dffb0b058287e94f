import JavaSource.Grammar.Ahead
import JavaSource.Grammar.Rule

/-!
# Grammar — Move

What a rule does, as data.  A rule reads symbols into parts, has other rules do so, and closes
the parts it has into a phrase.  It decides by looking ahead, and by probing: trying a rule
without keeping what it read.  It sees no places and no text but that of symbols, and no parts but
the kind of the last phrase, so nothing else can sway it.
-/

namespace JavaSource.Grammar

/-- Why a rule refuses a source. -/
inductive Refusal where
  | mismatched (expecting : String)
  | noViableAlternative
  | extraneous
  | lambdaReceiver
  deriving DecidableEq, Repr

/-- The moves of a rule, up to a value. -/
inductive Move : Type → Type 1 where
  /-- No more moves. -/
  | done {α : Type} (value : α) : Move α
  /-- Goes on by what it sees. -/
  | look {α : Type} (next : Ahead → Move α) : Move α
  /-- Reads a symbol; it becomes a part. -/
  | shift {α : Type} (next : Move α) : Move α
  /-- Reads some symbols as one of a given kind. -/
  | join {α : Type} (kind : TokenKind) (width : Nat) (next : Move α) : Move α
  /-- Has another rule read; its parts become parts. -/
  | call {α : Type} (rule : Rule) (next : Move α) : Move α
  /-- Tries a rule, and goes on by how much it would read, if it can. -/
  | probe {α : Type} (what : Probe) (next : Option Nat → Move α) : Move α
  /-- Closes all parts so far into a phrase. -/
  | wrap {α : Type} (kind : Phrase) (next : Move α) : Move α
  /-- From here on the rule counts as nested one level deeper. -/
  | deepen {α : Type} (next : Move α) : Move α
  /-- Does some moves over and over while they say so. -/
  | iterate {α : Type} (body : Move Bool) (next : Move α) : Move α
  /-- Refuses the source at a symbol. -/
  | refuse {α : Type} (place : Nat) (why : Refusal) : Move α

namespace Move

/-- Some moves, then the moves that their value calls for. -/
def bind {α β : Type} : Move α → (α → Move β) → Move β
  | done a,           f => f a
  | look next,        f => look fun a => (next a).bind f
  | shift next,       f => shift (next.bind f)
  | join k w next,    f => join k w (next.bind f)
  | call r next,      f => call r (next.bind f)
  | probe p next,     f => probe p fun width => (next width).bind f
  | wrap k next,      f => wrap k (next.bind f)
  | deepen next,      f => deepen (next.bind f)
  | iterate body next, f => iterate body (next.bind f)
  | refuse place why, _ => refuse place why

instance : Monad Move where
  pure := done
  bind := bind

/-! ### Single moves -/

def ahead : Move Ahead := look done
def take : Move Unit := shift (done ())
def joined (kind : TokenKind) (width : Nat) : Move Unit := join kind width (done ())
def read (rule : Rule) : Move Unit := call rule (done ())
def attempt (what : Probe) : Move (Option Nat) := probe what done
def close (kind : Phrase) : Move Unit := wrap kind (done ())
def nest : Move Unit := deepen (done ())
def loop (body : Move Bool) : Move Unit := iterate body (done ())

/-- Refuses the source here. -/
def fail {α : Type} (why : Refusal) : Move α := look fun a => refuse a.read why

/-- Refuses the source because something else was expected. -/
def mismatch {α : Type} (expecting : String) : Move α := fail (.mismatched expecting)

/-! ### Common moves -/

/-- Whether the next symbol is of some kind. -/
def isAt (kind : TokenKind) : Move Bool := return (← ahead).isAt kind

/-- Reads a symbol of some kind. -/
def expect (kind : TokenKind) : Move Unit := do
  if ← isAt kind then take else mismatch kind.describe

/-- Reads an identifier with a given spelling. -/
def expectWord (word : String) : Move Unit := do
  if (← ahead).isAtWord word then take else mismatch s!"'{word}'"

/-- Reads two symbols. -/
def takeTwo : Move Unit := do
  take
  take

/-- Some moves, if what lies ahead allows them. -/
def provided (allows : Ahead → Bool) (moves : Move Unit) : Move Unit := do
  if allows (← ahead) then moves

/-- Reads a symbol of some kind if it is there, and says whether it was. -/
def eat (kind : TokenKind) : Move Bool := do
  if ← isAt kind then
    take
    return true
  else return false

/-- A rule if some kind of symbol is there. -/
def readAt (kind : TokenKind) (rule : Rule) : Move Unit := do
  if ← isAt kind then read rule

/-- A symbol of some kind and then a rule, if the symbol is there. -/
def readAfter (kind : TokenKind) (rule : Rule) : Move Unit := do
  if ← eat kind then read rule

/-- A rule once or more, with a symbol in between. -/
def separated (separator : TokenKind) (rule : Rule) : Move Unit := do
  read rule
  loop do
    if ← eat separator then
      read rule
      return true
    else return false

/-- A rule as often as its symbols come. -/
def readWhile (more : Ahead → Bool) (rule : Rule) : Move Unit :=
  loop do
    if more (← ahead) then
      read rule
      return true
    else return false

/-- A rule and a comma, over and over, up to a closing symbol; the last comma may be missing. -/
def commasUpTo (closer : Ahead → Bool) (rule : Rule) : Move Unit :=
  loop do
    if closer (← ahead) then return false
    else
      read rule
      eat .comma

end Move

end JavaSource.Grammar
