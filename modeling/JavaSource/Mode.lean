import JavaSource.Grammar.Rule

/-!
# Mode

What a source is taken to hold.
-/

namespace JavaSource

/-- What a source holds. -/
inductive Mode where
  /-- A whole file. -/
  | unit
  /-- One declaration. -/
  | decl
  /-- One statement. -/
  | stmt
  /-- One expression. -/
  | expr
  deriving DecidableEq, Repr, Inhabited

namespace Mode

/-- All modes. -/
def all : List Mode := [unit, decl, stmt, expr]

/-- The name of a mode. -/
def name : Mode → String
  | unit => "unit"
  | decl => "decl"
  | stmt => "stmt"
  | expr => "expr"

/-- A longer name that is understood too. -/
def longName : Mode → String
  | unit => "compilation_unit"
  | decl => "declaration"
  | stmt => "statement"
  | expr => "expression"

/-- The mode of a name. -/
def ofName? (name : String) : Option Mode :=
  all.find? fun m => m.name == name || m.longName == name

/-- What is said of a name that no mode has. -/
def unknownText (name : String) : String :=
  let expected := ", ".intercalate (all.map Mode.name)
  s!"unknown parse mode '{name}', expected one of {expected}"

/-- The rule that reading starts with. -/
def start : Mode → Grammar.Rule
  | unit => .compilationUnit
  | decl => .declarationStart
  | stmt => .statementStart
  | expr => .expressionStart

end Mode

end JavaSource
