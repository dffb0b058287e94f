import JavaSource.Number.Decimal

/-!
# Printing — Doc

Text before it is laid out.  A document says where lines may break and what lies one level
deeper; writing it with an indent settles both.  With an indent of zero everything is on one line
and a break is a blank.  A document may also hold a refusal, and then it has no text.
-/

namespace JavaSource

/-- Why a node has no text. -/
inductive PrintError where
  /-- A number that no literal stands for. -/
  | noLiteral (value : Binary64)
  | noReferenceName
  | boundDirection
  | mixedSwitch
  | noCaseItem
  /-- An arrow in front of other than one statement. -/
  | arrowBody (found : Nat)
  deriving DecidableEq, Repr

namespace PrintError

/-- The kind of node that is at fault. -/
def node : PrintError → String
  | noLiteral _              => "FloatLiteral"
  | noReferenceName          => "Reference"
  | boundDirection           => "WildcardBound"
  | mixedSwitch              => "SwitchBlock"
  | noCaseItem | arrowBody _ => "SwitchExprRule"

/-- What is wrong with it. -/
def detail : PrintError → String
  | noLiteral value => s!"{Decimal.text value} has no literal form"
  | noReferenceName => "neither a method name nor new"
  | boundDirection  => "exactly one of extends and super must be set"
  | mixedSwitch     => "rules cannot be mixed with groups"
  | noCaseItem      => "a case rule needs at least one item"
  | arrowBody found => s!"an arrow rule takes one statement, found {found}"

/-- An error as it is shown. -/
def text (e : PrintError) : String := s!"cannot unparse {e.node}: {e.detail}"

end PrintError

/-- Text before it is laid out. -/
inductive Doc where
  | nil
  | text (s : String)
  /-- A new line. -/
  | line
  /-- A new line and an empty one before it. -/
  | blankLine
  /-- A text block with these lines. -/
  | textBlock (lines : List String)
  | append (first second : Doc)
  /-- One level deeper. -/
  | nest (inner : Doc)
  | refuse (error : PrintError)
  deriving Repr

namespace Doc

instance : Append Doc := ⟨append⟩

instance : Coe String Doc := ⟨text⟩

/-! ### Layout -/

/-- Blanks in front of a line. -/
def margin (indent depth : Nat) : String :=
  String.ofList (List.replicate (indent * depth) ' ')

/-- How a line break is written. -/
def breakText (indent depth : Nat) : String :=
  if indent = 0 then " " else "\n" ++ margin indent depth

/-- The lines of a text block as they are written, each behind a line feed.  They lie one level
deeper than what is around them, but empty lines other than the last are left empty. -/
def blockText (indent depth : Nat) : List String → String
  | []      => ""
  | l :: ls =>
    let blanks := if l.isEmpty && !ls.isEmpty then "" else margin indent (depth + 1)
    "\n" ++ blanks ++ l ++ blockText indent depth ls

/-- Writes a document at the end of what has been written. -/
def write (indent depth : Nat) (written : String) : Doc → Except PrintError String
  | nil             => .ok written
  | text s          => .ok (written ++ s)
  | line            => .ok (written ++ breakText indent depth)
  | blankLine       =>
    .ok (written ++ (if indent = 0 then "" else "\n") ++ breakText indent depth)
  | textBlock lines => .ok (written ++ "\"\"\"" ++ blockText indent depth lines ++ "\"\"\"")
  | append a b      => do write indent depth (← write indent depth written a) b
  | nest d          => write indent (depth + 1) written d
  | refuse e        => .error e

/-- The text of a document. -/
def render (indent : Nat) (d : Doc) : Except PrintError String := d.write indent 0 ""

/-! ### Several documents -/

/-- One after the other. -/
def concat : List Doc → Doc
  | []      => nil
  | d :: ds => d ++ concat ds

/-- With something between them. -/
def sepBy (separator : Doc) : List Doc → Doc
  | []           => nil
  | [d]          => d
  | d :: e :: ds => d ++ separator ++ sepBy separator (e :: ds)

/-- With text between them. -/
def sep (separator : String) (ds : List Doc) : Doc := sepBy (text separator) ds

/-- Each with text behind it. -/
def each (follower : String) (ds : List Doc) : Doc := concat (ds.map (· ++ text follower))

/-- With text in front, if there are any. -/
def lead (intro : String) (ds : List Doc) : Doc :=
  if ds.isEmpty then nil else text intro ++ concat ds

/-- With text in front and between them, if there are any. -/
def clause (intro separator : String) (ds : List Doc) : Doc :=
  if ds.isEmpty then nil else text intro ++ sep separator ds

/-- In parentheses, with commas between them. -/
def tuple (ds : List Doc) : Doc := "(" ++ sep ", " ds ++ ")"

/-- Each on a line of its own, one level deeper. -/
def indented (ds : List Doc) : Doc := nest (concat (ds.map (line ++ ·)))

/-- In braces, each on a line of its own. -/
def braces (ds : List Doc) : Doc :=
  if ds.isEmpty then "\x7b\x7d" else "\x7b" ++ indented ds ++ line ++ "\x7d"

/-- In parentheses if need be. -/
def parens (needed : Bool) (d : Doc) : Doc := if needed then "(" ++ d ++ ")" else d

end Doc

end JavaSource
