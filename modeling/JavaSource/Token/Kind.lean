/-!
# Token — Kind

The kinds of token.  Reserved words and punctuation have one spelling each; literals and
identifiers have none.  `>>` and `>>>` are kinds of joined tokens: a lexer only ever finds `>`.
-/

namespace JavaSource

/-- What a token is. -/
inductive TokenKind where
  | abstractKw | assertKw | booleanKw | breakKw | byteKw | caseKw | catchKw | charKw | classKw
  | constKw | continueKw | defaultKw | doKw | doubleKw | elseKw | enumKw | extendsKw | finalKw
  | finallyKw | floatKw | forKw | gotoKw | ifKw | implementsKw | importKw | instanceOfKw | intKw
  | interfaceKw | longKw | nativeKw | newKw | packageKw | privateKw | protectedKw | publicKw
  | returnKw | shortKw | staticKw | strictfpKw | superKw | switchKw | synchronizedKw | thisKw
  | throwKw | throwsKw | transientKw | tryKw | voidKw | volatileKw | whileKw | trueKw | falseKw
  | nullKw
  | integerLiteral | floatingLiteral | charLiteral | stringLiteral | textBlock | identifier
  | nonSealed | lparen | rparen | lbrace | rbrace | lbrack | rbrack | semi | comma | dot
  | ellipsis | atSign | colonColon | assign | gt | lt | bang | tilde | question | colon | arrow
  | eqEq | le | ge | notEq | andAnd | orOr | inc | dec | add | sub | mul | div | bitAnd | bitOr
  | caret | mod | lshift | rshift | urshift | addAssign | subAssign | mulAssign | divAssign
  | andAssign | orAssign | xorAssign | modAssign | lshiftAssign | rshiftAssign | urshiftAssign
  | eof
  deriving DecidableEq, Repr, Inhabited

namespace TokenKind

/-- The reserved words. -/
def keywords : List TokenKind :=
  [.abstractKw, .assertKw, .booleanKw, .breakKw, .byteKw, .caseKw, .catchKw, .charKw, .classKw,
   .constKw, .continueKw, .defaultKw, .doKw, .doubleKw, .elseKw, .enumKw, .extendsKw, .finalKw,
   .finallyKw, .floatKw, .forKw, .gotoKw, .ifKw, .implementsKw, .importKw, .instanceOfKw, .intKw,
   .interfaceKw, .longKw, .nativeKw, .newKw, .packageKw, .privateKw, .protectedKw, .publicKw,
   .returnKw, .shortKw, .staticKw, .strictfpKw, .superKw, .switchKw, .synchronizedKw, .thisKw,
   .throwKw, .throwsKw, .transientKw, .tryKw, .voidKw, .volatileKw, .whileKw, .trueKw, .falseKw,
   .nullKw]

/-- The name of a kind. -/
def name : TokenKind → String
  | .abstractKw      => "Abstract"
  | .assertKw        => "Assert"
  | .booleanKw       => "Boolean"
  | .breakKw         => "Break"
  | .byteKw          => "Byte"
  | .caseKw          => "Case"
  | .catchKw         => "Catch"
  | .charKw          => "Char"
  | .classKw         => "Class"
  | .constKw         => "Const"
  | .continueKw      => "Continue"
  | .defaultKw       => "Default"
  | .doKw            => "Do"
  | .doubleKw        => "Double"
  | .elseKw          => "Else"
  | .enumKw          => "Enum"
  | .extendsKw       => "Extends"
  | .finalKw         => "Final"
  | .finallyKw       => "Finally"
  | .floatKw         => "Float"
  | .forKw           => "For"
  | .gotoKw          => "Goto"
  | .ifKw            => "If"
  | .implementsKw    => "Implements"
  | .importKw        => "Import"
  | .instanceOfKw    => "InstanceOf"
  | .intKw           => "Int"
  | .interfaceKw     => "Interface"
  | .longKw          => "Long"
  | .nativeKw        => "Native"
  | .newKw           => "New"
  | .packageKw       => "Package"
  | .privateKw       => "Private"
  | .protectedKw     => "Protected"
  | .publicKw        => "Public"
  | .returnKw        => "Return"
  | .shortKw         => "Short"
  | .staticKw        => "Static"
  | .strictfpKw      => "Strictfp"
  | .superKw         => "Super"
  | .switchKw        => "Switch"
  | .synchronizedKw  => "Synchronized"
  | .thisKw          => "This"
  | .throwKw         => "Throw"
  | .throwsKw        => "Throws"
  | .transientKw     => "Transient"
  | .tryKw           => "Try"
  | .voidKw          => "Void"
  | .volatileKw      => "Volatile"
  | .whileKw         => "While"
  | .trueKw          => "True"
  | .falseKw         => "False"
  | .nullKw          => "Null"
  | .integerLiteral  => "IntegerLiteral"
  | .floatingLiteral => "FloatingLiteral"
  | .charLiteral     => "CharLiteral"
  | .stringLiteral   => "StringLiteral"
  | .textBlock       => "TextBlock"
  | .identifier      => "Identifier"
  | .nonSealed       => "NonSealed"
  | .lparen          => "LParen"
  | .rparen          => "RParen"
  | .lbrace          => "LBrace"
  | .rbrace          => "RBrace"
  | .lbrack          => "LBrack"
  | .rbrack          => "RBrack"
  | .semi            => "Semi"
  | .comma           => "Comma"
  | .dot             => "Dot"
  | .ellipsis        => "Ellipsis"
  | .atSign          => "At"
  | .colonColon      => "ColonColon"
  | .assign          => "Assign"
  | .gt              => "Gt"
  | .lt              => "Lt"
  | .bang            => "Bang"
  | .tilde           => "Tilde"
  | .question        => "Question"
  | .colon           => "Colon"
  | .arrow           => "Arrow"
  | .eqEq            => "EqEq"
  | .le              => "Le"
  | .ge              => "Ge"
  | .notEq           => "NotEq"
  | .andAnd          => "AndAnd"
  | .orOr            => "OrOr"
  | .inc             => "Inc"
  | .dec             => "Dec"
  | .add             => "Add"
  | .sub             => "Sub"
  | .mul             => "Mul"
  | .div             => "Div"
  | .bitAnd          => "BitAnd"
  | .bitOr           => "BitOr"
  | .caret           => "Caret"
  | .mod             => "Mod"
  | .lshift          => "LShift"
  | .rshift          => "RShift"
  | .urshift         => "URShift"
  | .addAssign       => "AddAssign"
  | .subAssign       => "SubAssign"
  | .mulAssign       => "MulAssign"
  | .divAssign       => "DivAssign"
  | .andAssign       => "AndAssign"
  | .orAssign        => "OrAssign"
  | .xorAssign       => "XorAssign"
  | .modAssign       => "ModAssign"
  | .lshiftAssign    => "LShiftAssign"
  | .rshiftAssign    => "RShiftAssign"
  | .urshiftAssign   => "URShiftAssign"
  | .eof             => "Eof"

/-- The spelling of the kinds that have just one. -/
def text? : TokenKind → Option String
  | .abstractKw      => some "abstract"
  | .assertKw        => some "assert"
  | .booleanKw       => some "boolean"
  | .breakKw         => some "break"
  | .byteKw          => some "byte"
  | .caseKw          => some "case"
  | .catchKw         => some "catch"
  | .charKw          => some "char"
  | .classKw         => some "class"
  | .constKw         => some "const"
  | .continueKw      => some "continue"
  | .defaultKw       => some "default"
  | .doKw            => some "do"
  | .doubleKw        => some "double"
  | .elseKw          => some "else"
  | .enumKw          => some "enum"
  | .extendsKw       => some "extends"
  | .finalKw         => some "final"
  | .finallyKw       => some "finally"
  | .floatKw         => some "float"
  | .forKw           => some "for"
  | .gotoKw          => some "goto"
  | .ifKw            => some "if"
  | .implementsKw    => some "implements"
  | .importKw        => some "import"
  | .instanceOfKw    => some "instanceof"
  | .intKw           => some "int"
  | .interfaceKw     => some "interface"
  | .longKw          => some "long"
  | .nativeKw        => some "native"
  | .newKw           => some "new"
  | .packageKw       => some "package"
  | .privateKw       => some "private"
  | .protectedKw     => some "protected"
  | .publicKw        => some "public"
  | .returnKw        => some "return"
  | .shortKw         => some "short"
  | .staticKw        => some "static"
  | .strictfpKw      => some "strictfp"
  | .superKw         => some "super"
  | .switchKw        => some "switch"
  | .synchronizedKw  => some "synchronized"
  | .thisKw          => some "this"
  | .throwKw         => some "throw"
  | .throwsKw        => some "throws"
  | .transientKw     => some "transient"
  | .tryKw           => some "try"
  | .voidKw          => some "void"
  | .volatileKw      => some "volatile"
  | .whileKw         => some "while"
  | .trueKw          => some "true"
  | .falseKw         => some "false"
  | .nullKw          => some "null"
  | .nonSealed       => some "non-sealed"
  | .lparen          => some "("
  | .rparen          => some ")"
  | .lbrace          => some "\x7b"
  | .rbrace          => some "\x7d"
  | .lbrack          => some "["
  | .rbrack          => some "]"
  | .semi            => some ";"
  | .comma           => some ","
  | .dot             => some "."
  | .ellipsis        => some "..."
  | .atSign          => some "@"
  | .colonColon      => some "::"
  | .assign          => some "="
  | .gt              => some ">"
  | .lt              => some "<"
  | .bang            => some "!"
  | .tilde           => some "~"
  | .question        => some "?"
  | .colon           => some ":"
  | .arrow           => some "->"
  | .eqEq            => some "=="
  | .le              => some "<="
  | .ge              => some ">="
  | .notEq           => some "!="
  | .andAnd          => some "&&"
  | .orOr            => some "||"
  | .inc             => some "++"
  | .dec             => some "--"
  | .add             => some "+"
  | .sub             => some "-"
  | .mul             => some "*"
  | .div             => some "/"
  | .bitAnd          => some "&"
  | .bitOr           => some "|"
  | .caret           => some "^"
  | .mod             => some "%"
  | .lshift          => some "<<"
  | .rshift          => some ">>"
  | .urshift         => some ">>>"
  | .addAssign       => some "+="
  | .subAssign       => some "-="
  | .mulAssign       => some "*="
  | .divAssign       => some "/="
  | .andAssign       => some "&="
  | .orAssign        => some "|="
  | .xorAssign       => some "^="
  | .modAssign       => some "%="
  | .lshiftAssign    => some "<<="
  | .rshiftAssign    => some ">>="
  | .urshiftAssign   => some ">>>="
  | .eof             => some "<EOF>"
  | .integerLiteral | .floatingLiteral | .charLiteral | .stringLiteral | .textBlock
  | .identifier      => none

/-- The reserved word with a given spelling. -/
def keyword? (text : String) : Option TokenKind :=
  keywords.find? fun k => k.text? == some text

/-- Reserved words, the literals among them included. -/
def isKeyword (k : TokenKind) : Bool :=
  keywords.contains k

/-- Tokens that are expressions by themselves. -/
def isLiteral : TokenKind → Bool
  | .integerLiteral | .floatingLiteral | .charLiteral | .stringLiteral | .textBlock
  | .trueKw | .falseKw | .nullKw => true
  | _ => false

/-- The names of the primitive types. -/
def isPrimitiveType : TokenKind → Bool
  | .booleanKw | .byteKw | .shortKw | .intKw | .longKw | .charKw | .floatKw | .doubleKw => true
  | _ => false

/-- `=` and the compound assignments. -/
def isAssignment : TokenKind → Bool
  | .assign | .addAssign | .subAssign | .mulAssign | .divAssign | .andAssign | .orAssign
  | .xorAssign | .modAssign | .lshiftAssign | .rshiftAssign | .urshiftAssign => true
  | _ => false

/-- How a kind is named where it was expected: fixed spellings in quotes, the others by name. -/
def describe (k : TokenKind) : String :=
  match k.text? with
  | some text => if k = .eof then text else s!"'{text}'"
  | none      => k.name

end TokenKind

end JavaSource
