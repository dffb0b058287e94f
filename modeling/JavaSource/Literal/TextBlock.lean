import JavaSource.Text.Alphabet

/-!
# Literal — TextBlock

The text between quotes.  A text block is kept as its lines, without the blanks that they all
start with; lines of blanks do not count for that, but the last line does.
-/

namespace JavaSource.Literal

open Text

/-- Drops characters up to a number of bytes. -/
def dropBytes : Nat → List Char → List Char
  | 0,     cs      => cs
  | _ + 1, []      => []
  | n + 1, c :: cs => dropBytes (n + 1 - c.utf8Size) cs
termination_by _ cs => cs.length

/-- A text without its quotes, each of a number of bytes; nothing if there is no room for both. -/
def unquote (width : Nat) (text : String) : List Char :=
  if text.utf8ByteSize < 2 * width then []
  else (dropBytes width (dropBytes width text.toList).reverse).reverse

/-- The lines of a text. -/
def splitLines : List Char → List (List Char)
  | []      => [[]]
  | c :: cs =>
    match splitLines cs with
    | []            => [[c]]
    | line :: lines => if c = '\n' then [] :: line :: lines else (c :: line) :: lines

/-- A line without the carriage return that may end it. -/
def dropReturn (line : List Char) : List Char :=
  if line.getLast? == some '\r' then line.dropLast else line

/-- What two texts both start with. -/
def commonStart : List Char → List Char → List Char
  | a :: as, b :: bs => if a = b then a :: commonStart as bs else []
  | _,       _       => []

/-- The lines that count for the blanks in common: those with text, and the last. -/
def significantLines : List (List Char) → List (List Char)
  | []            => []
  | [last]        => [last]
  | line :: lines =>
    if line.all isBlank then significantLines lines else line :: significantLines lines

/-- The blanks that all lines start with. -/
def indentation (lines : List (List Char)) : List Char :=
  match (significantLines lines).map (·.takeWhile isBlank) with
  | []              => []
  | first :: others => others.foldl commonStart first

/-- A line without those blanks. -/
def dropIndentation (blanks line : List Char) : List Char :=
  if blanks.isPrefixOf line then line.drop blanks.length
  else if line.all isBlank then []
  else line

/-- The lines of a text block.  The rest of the opening line is dropped; the last line is what
stands before the closing quotes. -/
def textBlockLines (text : String) : List String :=
  let inner := unquote 3 text
  let content := match inner.dropWhile (· != '\n') with
    | _ :: cs => cs
    | []      => inner
  let lines := (splitLines content).map dropReturn
  (lines.map (dropIndentation (indentation lines))).map String.ofList

end JavaSource.Literal
