import JavaSource.Grammar.Recognizer
import JavaSource.Literal.Floating
import JavaSource.Literal.TextBlock
import JavaSource.Mode
import JavaSource.Printing.Context
import JavaSource.Printing.Printer
import JavaSource.Proofs.Bounds
import JavaSource.Proofs.Bracketing
import JavaSource.Proofs.Chains.Printed
import JavaSource.Proofs.Chains.Read
import JavaSource.Proofs.Guards
import JavaSource.Proofs.Heights
import JavaSource.Proofs.Indent
import JavaSource.Proofs.Labels
import JavaSource.Proofs.Layers
import JavaSource.Proofs.Layout
import JavaSource.Proofs.Levels
import JavaSource.Proofs.Lexing.Rescanning
import JavaSource.Proofs.Limit
import JavaSource.Proofs.Makes
import JavaSource.Proofs.Messages
import JavaSource.Proofs.Names
import JavaSource.Proofs.Numbers.Hexadecimal
import JavaSource.Proofs.Numbers.Written
import JavaSource.Proofs.Operators
import JavaSource.Proofs.Operators.Meaning
import JavaSource.Proofs.Operators.Parsed
import JavaSource.Proofs.Operators.Printed
import JavaSource.Proofs.Operators.Recognized
import JavaSource.Proofs.Operators.Scanned
import JavaSource.Proofs.Parenthesized
import JavaSource.Proofs.Places
import JavaSource.Proofs.Positions.Restricted
import JavaSource.Proofs.Reading
import JavaSource.Proofs.Rebuilding
import JavaSource.Proofs.Rebuilding.Kept
import JavaSource.Proofs.Recalling
import JavaSource.Proofs.Removing
import JavaSource.Proofs.Renaming
import JavaSource.Proofs.Sound
import JavaSource.Proofs.Spans
import JavaSource.Proofs.Statements
import JavaSource.Proofs.TextBlocks
import JavaSource.Proofs.Tiling
import JavaSource.Proofs.Traversal
import JavaSource.Proofs.Types
import JavaSource.Proofs.Types.Elements
import JavaSource.Reading.Expressions
import JavaSource.Reading.Reader
import JavaSource.Reading.Types
import JavaSource.Source
import JavaSource.Syntax.Check
import JavaSource.Syntax.Kind
import JavaSource.Syntax.Level
import JavaSource.Syntax.Transform
import JavaSource.Syntax.View
import JavaSource.Syntax.Visitor
import JavaSource.Token.Lexer
import JavaSource.Tree.Path
