import ExprLang.Text.Ranges
import ExprLang.Text.Alphabetic
import ExprLang.Text.Blank
import ExprLang.Text.Extending
import ExprLang.Text.Ignorable
import ExprLang.Text.Numeric
import ExprLang.Text.Unprintable
import ExprLang.Text.Quoted
import ExprLang.Text.Literal
import ExprLang.Text.Bytes
import ExprLang.Token
import ExprLang.Token.Lexer
import ExprLang.Operator
import ExprLang.Number.Integer
import ExprLang.Number.Binary
import ExprLang.Number.Binary.Bits
import ExprLang.Number.Binary.Arithmetic
import ExprLang.Number.Binary.Decimal
import ExprLang.Table
import ExprLang.Signature
import ExprLang.Error
import ExprLang.Builtin
import ExprLang.Function
import ExprLang.Value
import ExprLang.Value.Equality
import ExprLang.Value.Copy
import ExprLang.Value.Render
import ExprLang.Env
import ExprLang.Native.Param
import ExprLang.Native.Arguments
import ExprLang.Native
import ExprLang.Builtin.Logic
import ExprLang.Builtin.Numbers
import ExprLang.Builtin.Strings
import ExprLang.Builtin.Collections
import ExprLang.Builtin.Native
import ExprLang.Builtin.Documentation
import ExprLang.Registry
import ExprLang.Expr.OfTokens
import ExprLang.Expr.Descent
import ExprLang.Evaluate
import ExprLang.Json
import ExprLang.Demo.Objects
import ExprLang.Proofs.Induction
import ExprLang.Proofs.Characters
import ExprLang.Proofs.Lexeme
import ExprLang.Proofs.TokenStream
import ExprLang.Proofs.Grammar
import ExprLang.Proofs.Reader
import ExprLang.Proofs.Completeness
import ExprLang.Proofs.Parse
import ExprLang.Proofs.Rounding
import ExprLang.Proofs.Decimal
import ExprLang.Proofs.Writing
import ExprLang.Proofs.Readable
import ExprLang.Proofs.Rendering
import ExprLang.Proofs.Marshalling
import ExprLang.Proofs.Evaluation
import ExprLang.Proofs.Reads
import ExprLang.Proofs.BuiltinCalls
import ExprLang.Proofs.Extensional
import ExprLang.Proofs.Interchange
import ExprLang.Proofs.IntegerOrder
import ExprLang.Proofs.Documents
import ExprLang.Proofs.FirstError
import ExprLang.Proofs.IntegerSources
import ExprLang.Proofs.Registration
import ExprLang.Proofs.IntegerLiterals
import ExprLang.Proofs.Fields
import ExprLang.Proofs.MapBuilding
import ExprLang.Proofs.Selection
import ExprLang.Proofs.Unclosed
import ExprLang.Proofs.Correspondence
import ExprLang.Proofs.OtherRegistries
import ExprLang.Proofs.Messages
import ExprLang.Proofs.Spacing
import ExprLang.Proofs.Diagnostics
import ExprLang.Proofs.ModularArithmetic
import ExprLang.Proofs.IntegerConversions
import ExprLang.Proofs.Paths
import ExprLang.Proofs.Unrepresentable
import ExprLang.Proofs.ByteOrder
import ExprLang.Proofs.Environments
import ExprLang.Proofs.MethodCalls
import ExprLang.Proofs.Requests
import ExprLang.Proofs.Nesting
import ExprLang.Proofs.Cursor
import ExprLang.Proofs.Descent
import ExprLang.Proofs.Choice
import ExprLang.Proofs.Addition
import ExprLang.Proofs.BytePositions
import ExprLang.Proofs.Substrings
import ExprLang.Proofs.StringLiterals
import ExprLang.Proofs.ArgumentSteps
import ExprLang.Proofs.Conversions
