/-!
# Text — Span

Where things stand in a source.  A place is a line, counted from one, and a column, counted in
characters from zero; a range is a pair of character offsets; both leave their end out.
-/

namespace JavaSource.Text

/-- A line and a column. -/
structure Place where
  line : Nat
  column : Nat
  deriving DecidableEq, Repr, Inhabited

/-- Character offsets from `start` up to `stop`. -/
structure Range where
  start : Nat
  stop : Nat
  deriving DecidableEq, Repr, Inhabited

/-- How many characters a range covers. -/
def Range.length (r : Range) : Nat := r.stop - r.start

/-- A range of no characters. -/
def Range.isEmpty (r : Range) : Bool := r.start == r.stop

/-- The stretch of source that a construct occupies. -/
structure Span where
  start : Place
  stop : Place
  deriving DecidableEq, Repr, Inhabited

/-- A place is shown as its line and its column. -/
def Place.text (p : Place) : String := s!"{p.line}:{p.column}"

/-- A span is shown by both ends. -/
def Span.text (s : Span) : String := s!"{s.start.text}..{s.stop.text}"

/-- In short a span is shown by its start alone. -/
def Span.shortText (s : Span) : String := s.start.text

/-- Lines come first, columns decide between places of one line. -/
def Place.before (p q : Place) : Prop :=
  p.line < q.line ∨ (p.line = q.line ∧ p.column < q.column)

end JavaSource.Text
