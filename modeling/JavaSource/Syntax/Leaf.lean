import JavaSource.Number.Binary64

/-!
# Syntax — Leaf

What stands at the leaves of the syntax: the values of literals and the words for types.
-/

namespace JavaSource

/-- The value of a literal. -/
inductive LiteralValue where
  /-- A value in any base, and whether it is a long. -/
  | int (value : UInt64) (long : Bool)
  /-- A value, and whether it is marked as a double. -/
  | float (value : Binary64) (double : Bool)
  | bool (value : Bool)
  /-- The text between the quotes, escapes as written. -/
  | char (text : String)
  /-- The text between the quotes, escapes as written. -/
  | string (text : String)
  /-- The lines without the blanks that they all start with. -/
  | textBlock (lines : List String)
  | null
  deriving DecidableEq, Repr, Inhabited

/-- The name of a kind of literal. -/
def LiteralValue.kindName : LiteralValue → String
  | int ..      => "IntLiteral"
  | float ..    => "FloatLiteral"
  | bool _      => "BoolLiteral"
  | char _      => "CharLiteral"
  | string _    => "StringLiteral"
  | textBlock _ => "TextBlock"
  | null        => "NullLiteral"

/-- A type that is a word. -/
inductive TypeWord where
  | void | var | boolean | byte | short | int | long | char | float | double
  deriving DecidableEq, Repr, Inhabited

namespace TypeWord

/-- All of them. -/
def all : List TypeWord :=
  [void, var, boolean, byte, short, int, long, char, float, double]

/-- The spelling. -/
def text : TypeWord → String
  | void    => "void"
  | var     => "var"
  | boolean => "boolean"
  | byte    => "byte"
  | short   => "short"
  | int     => "int"
  | long    => "long"
  | char    => "char"
  | float   => "float"
  | double  => "double"

/-- The name. -/
def name : TypeWord → String
  | void    => "Void"
  | var     => "Var"
  | boolean => "Boolean"
  | byte    => "Byte"
  | short   => "Short"
  | int     => "Int"
  | long    => "Long"
  | char    => "Char"
  | float   => "Float"
  | double  => "Double"

/-- The one with a given spelling. -/
def ofText? (text : String) : Option TypeWord :=
  all.find? (·.text == text)

/-- Whether it names a primitive type. -/
def isPrimitive : TypeWord → Bool
  | void | var => false
  | _          => true

end TypeWord

end JavaSource
