import ExprLang.Text.Quoted

/-! # Tokens

A source is read as a sequence of tokens. A token knows where it starts, counted in characters, and
its text; the text of a string literal is what the literal stands for.

The sequence stops in one of two ways: the source ends, or a character or a literal cannot be read.
-/

namespace ExprLang

inductive TokenKind where
  | whitespace
  | identifier
  | separator
  | delimiter
  | leftParenthesis
  | rightParenthesis
  | leftIndex
  | rightIndex
  | leftResultIndex
  | rightResultIndex
  | binaryOperator
  | unaryOperator
  | string
  | integer
  | float
  | bool
  | allValues
  | error
  | eof
deriving DecidableEq, Repr

def TokenKind.name : TokenKind → String
  | .whitespace => "WHITESPACE"
  | .identifier => "IDENTIFIER"
  | .separator => "SEPARATOR"
  | .delimiter => "DELIMITER"
  | .leftParenthesis => "LEFT_PARENTHESIS"
  | .rightParenthesis => "RIGHT_PARENTHESIS"
  | .leftIndex => "LEFT_INDEX"
  | .rightIndex => "RIGHT_INDEX"
  | .leftResultIndex => "LEFT_RESULT_INDEX"
  | .rightResultIndex => "RIGHT_RESULT_INDEX"
  | .binaryOperator => "BINARY_OPERATOR"
  | .unaryOperator => "UNARY_OPERATOR"
  | .string => "STRING"
  | .integer => "INTEGER"
  | .float => "FLOAT"
  | .bool => "BOOL"
  | .allValues => "ALL_VALUES"
  | .error => "ERROR"
  | .eof => "EOF"

structure Token where
  kind : TokenKind
  start : Nat
  text : String
deriving DecidableEq, Repr

/-- Kind, start, length and quoted text. -/
def Token.describe (t : Token) : String :=
  t.kind.name ++ " (" ++ toString t.start ++ ", " ++ toString t.text.length ++ ") = " ++
    Text.quote t.text

/-- Why a source cannot be read as tokens. -/
inductive LexError where
  | unrecognizedCharacter (character : Char) (offset : Nat)
  | unterminatedString (offset : Nat)
  | unreadable (reason : String)
deriving DecidableEq, Repr

def LexError.message : LexError → String
  | .unrecognizedCharacter c offset =>
    "unrecognized character " ++ Text.quoteOne c ++ " at position " ++ toString offset
  | .unterminatedString offset =>
    "unterminated string literal starting at position " ++ toString offset
  | .unreadable reason => "error reading expression: " ++ reason

/-- How a sequence of tokens stops. -/
inductive Stop where
  | endOfSource (offset : Nat)
  | failure (offset : Nat) (error : LexError)
deriving DecidableEq, Repr

/-- The token that closes the sequence: empty at the end of the source, else the message. -/
def Stop.token : Stop → Token
  | .endOfSource offset => ⟨.eof, offset, ""⟩
  | .failure offset error => ⟨.error, offset, error.message⟩

def Stop.error? : Stop → Option LexError
  | .endOfSource _ => none
  | .failure _ error => some error

structure Scan where
  tokens : List Token
  stop : Stop
deriving DecidableEq, Repr

/-- Every token of the source, the closing one included. -/
def Scan.all (s : Scan) : List Token := s.tokens ++ [s.stop.token]

/-- The tokens that mean something. -/
def Scan.marks (s : Scan) : List Token := s.tokens.filter (·.kind ≠ .whitespace)

end ExprLang
