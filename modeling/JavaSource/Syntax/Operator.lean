/-!
# Syntax — Operator

The operators and modifier words.  Each is a value of its own with one spelling, so what depends
on an operator depends on which one it is and not on text.
-/

namespace JavaSource

/-- An operator between two operands. -/
inductive BinaryOp where
  | or | and | bitOr | bitXor | bitAnd | eq | ne | lt | le | gt | ge | lshift | rshift | urshift
  | add | sub | mul | div | mod
  deriving DecidableEq, Repr, Inhabited

namespace BinaryOp

/-- All of them. -/
def all : List BinaryOp :=
  [.or, .and, .bitOr, .bitXor, .bitAnd, .eq, .ne, .lt, .le, .gt, .ge, .lshift, .rshift, .urshift,
   .add, .sub, .mul, .div, .mod]

/-- The spelling. -/
def text : BinaryOp → String
  | or      => "||"
  | and     => "&&"
  | bitOr   => "|"
  | bitXor  => "^"
  | bitAnd  => "&"
  | eq      => "=="
  | ne      => "!="
  | lt      => "<"
  | le      => "<="
  | gt      => ">"
  | ge      => ">="
  | lshift  => "<<"
  | rshift  => ">>"
  | urshift => ">>>"
  | add     => "+"
  | sub     => "-"
  | mul     => "*"
  | div     => "/"
  | mod     => "%"

/-- The name of its kind. -/
def name : BinaryOp → String
  | or      => "Or"
  | and     => "And"
  | bitOr   => "BitOr"
  | bitXor  => "BitXor"
  | bitAnd  => "BitAnd"
  | eq      => "Eq"
  | ne      => "NotEq"
  | lt      => "Lt"
  | le      => "LtE"
  | gt      => "Gt"
  | ge      => "GtE"
  | lshift  => "LShift"
  | rshift  => "RShift"
  | urshift => "URShift"
  | add     => "Add"
  | sub     => "Sub"
  | mul     => "Mult"
  | div     => "Div"
  | mod     => "Mod"

/-- The one with a given spelling. -/
def ofText? (text : String) : Option BinaryOp :=
  all.find? (·.text == text)

end BinaryOp

/-- An operator before its operand. -/
inductive UnaryOp where
  | preInc | preDec | plus | minus | invert | not
  deriving DecidableEq, Repr, Inhabited

namespace UnaryOp

/-- All of them. -/
def all : List UnaryOp :=
  [.preInc, .preDec, .plus, .minus, .invert, .not]

/-- The spelling. -/
def text : UnaryOp → String
  | preInc => "++"
  | preDec => "--"
  | plus   => "+"
  | minus  => "-"
  | invert => "~"
  | not    => "!"

/-- The name of its kind. -/
def name : UnaryOp → String
  | preInc => "PreInc"
  | preDec => "PreDec"
  | plus   => "UAdd"
  | minus  => "USub"
  | invert => "Invert"
  | not    => "Not"

/-- The one with a given spelling. -/
def ofText? (text : String) : Option UnaryOp :=
  all.find? (·.text == text)

/-- Whether it starts with `+` or `-`.  Behind a type in parentheses such an operator goes on with
a sum. -/
def isSignLike : UnaryOp → Bool
  | preInc | preDec | plus | minus => true
  | invert | not                   => false

end UnaryOp

/-- An operator behind its operand. -/
inductive PostOp where
  | postInc | postDec
  deriving DecidableEq, Repr, Inhabited

namespace PostOp

/-- All of them. -/
def all : List PostOp :=
  [.postInc, .postDec]

/-- The spelling. -/
def text : PostOp → String
  | postInc => "++"
  | postDec => "--"

/-- The name of its kind. -/
def name : PostOp → String
  | postInc => "PostInc"
  | postDec => "PostDec"

/-- The one with a given spelling. -/
def ofText? (text : String) : Option PostOp :=
  all.find? (·.text == text)

end PostOp

/-- The operator of a compound assignment. -/
inductive AssignOp where
  | add | sub | mul | div | mod | bitAnd | bitOr | bitXor | lshift | rshift | urshift
  deriving DecidableEq, Repr, Inhabited

namespace AssignOp

/-- All of them. -/
def all : List AssignOp :=
  [.add, .sub, .mul, .div, .mod, .bitAnd, .bitOr, .bitXor, .lshift, .rshift, .urshift]

/-- The spelling, with the `=`. -/
def text : AssignOp → String
  | add     => "+="
  | sub     => "-="
  | mul     => "*="
  | div     => "/="
  | mod     => "%="
  | bitAnd  => "&="
  | bitOr   => "|="
  | bitXor  => "^="
  | lshift  => "<<="
  | rshift  => ">>="
  | urshift => ">>>="

/-- The name of its kind. -/
def name : AssignOp → String
  | add     => "AddAssign"
  | sub     => "SubAssign"
  | mul     => "MultAssign"
  | div     => "DivAssign"
  | mod     => "ModAssign"
  | bitAnd  => "BitAndAssign"
  | bitOr   => "BitOrAssign"
  | bitXor  => "BitXorAssign"
  | lshift  => "LShiftAssign"
  | rshift  => "RShiftAssign"
  | urshift => "URShiftAssign"

/-- The one with a given spelling. -/
def ofText? (text : String) : Option AssignOp :=
  all.find? (·.text == text)

end AssignOp

/-- A word that modifies a declaration or a directive. -/
inductive ModifierWord where
  | abstractWord | defaultWord | finalWord | nativeWord | nonSealed | privateWord | protectedWord
  | publicWord | sealedWord | staticWord | strictfp | synchronized | transient | transitive
  | volatile
  deriving DecidableEq, Repr, Inhabited

namespace ModifierWord

/-- All of them. -/
def all : List ModifierWord :=
  [.abstractWord, .defaultWord, .finalWord, .nativeWord, .nonSealed, .privateWord,
   .protectedWord, .publicWord, .sealedWord, .staticWord, .strictfp, .synchronized, .transient,
   .transitive, .volatile]

/-- The spelling. -/
def text : ModifierWord → String
  | abstractWord  => "abstract"
  | defaultWord   => "default"
  | finalWord     => "final"
  | nativeWord    => "native"
  | nonSealed     => "non-sealed"
  | privateWord   => "private"
  | protectedWord => "protected"
  | publicWord    => "public"
  | sealedWord    => "sealed"
  | staticWord    => "static"
  | strictfp      => "strictfp"
  | synchronized  => "synchronized"
  | transient     => "transient"
  | transitive    => "transitive"
  | volatile      => "volatile"

/-- The name of its kind. -/
def name : ModifierWord → String
  | abstractWord  => "Abstract"
  | defaultWord   => "Default"
  | finalWord     => "Final"
  | nativeWord    => "Native"
  | nonSealed     => "NonSealed"
  | privateWord   => "Private"
  | protectedWord => "Protected"
  | publicWord    => "Public"
  | sealedWord    => "Sealed"
  | staticWord    => "Static"
  | strictfp      => "Strictfp"
  | synchronized  => "Synchronized"
  | transient     => "Transient"
  | transitive    => "Transitive"
  | volatile      => "Volatile"

/-- The one with a given spelling. -/
def ofText? (text : String) : Option ModifierWord :=
  all.find? (·.text == text)

end ModifierWord

end JavaSource
