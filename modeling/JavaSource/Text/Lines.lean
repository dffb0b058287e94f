import JavaSource.Text.Span

/-!
# Text — Lines

The lines of a source and the place of each offset.  `\n`, `\r\n` and a lone `\r` end a line.
The table keeps the offset at which each line starts; an offset belongs to the last line that
starts at or before it, so offsets beyond the end belong to the last line.
-/

namespace JavaSource.Text

/-- The offsets at which the lines after the first start, for text that begins at `offset`. -/
def lineStarts : (offset : Nat) → List Char → List Nat
  | _, []                      => []
  | offset, '\r' :: '\n' :: cs => (offset + 2) :: lineStarts (offset + 2) cs
  | offset, '\r' :: cs         => (offset + 1) :: lineStarts (offset + 1) cs
  | offset, '\n' :: cs         => (offset + 1) :: lineStarts (offset + 1) cs
  | offset, _ :: cs            => lineStarts (offset + 1) cs

/-- The table of line starts, ascending; the first line starts at zero. -/
structure Lines where
  starts : List Nat

/-- The lines of a text. -/
def Lines.ofText (text : List Char) : Lines := ⟨0 :: lineStarts 0 text⟩

/-- The line of an offset, counted from zero. -/
def Lines.lineOf (lines : Lines) (offset : Nat) : Nat :=
  (lines.starts.takeWhile (· ≤ offset)).length - 1

/-- The offset at which a line starts. -/
def Lines.startOf (lines : Lines) (line : Nat) : Nat :=
  lines.starts[line]?.getD 0

/-- The place of an offset. -/
def Lines.placeOf (lines : Lines) (offset : Nat) : Place :=
  let line := lines.lineOf offset
  ⟨line + 1, offset - lines.startOf line⟩

end JavaSource.Text
