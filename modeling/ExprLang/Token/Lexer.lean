import ExprLang.Text.Alphabetic
import ExprLang.Text.Blank
import ExprLang.Text.Literal
import ExprLang.Text.Numeric
import ExprLang.Token

/-! # Reading a source as tokens

`Lexeme.read` reads the token at the head of a text and says how many characters it takes. `scan` reads
token after token; each takes at least one character, so it walks the source once.
-/

namespace ExprLang

/-- The token at the head of a text, before it is placed. -/
structure Lexeme where
  kind : TokenKind
  text : List Char
  length : Nat
deriving DecidableEq, Repr

namespace Lexeme

/-- The characters that may continue an identifier. -/
def isWordPart (c : Char) : Bool := c = '_' || Text.isAlphabetic c || Text.isNumeric c

def isQuote (c : Char) : Bool := c = '\x22' || c = '\x60' || c = '\x27'

/-- A lexeme whose text is what the source shows. -/
def verbatim (kind : TokenKind) (text : List Char) : Lexeme := ⟨kind, text, text.length⟩

def ofWord (word : List Char) : Lexeme :=
  if word = ['t', 'r', 'u', 'e'] ∨ word = ['f', 'a', 'l', 's', 'e'] then verbatim .bool word
  else verbatim .identifier word

/-- Digits, then perhaps a point and more digits; a point makes it a float. -/
def ofNumber (cs : List Char) : Lexeme :=
  let digits := cs.takeWhile Char.isDigit
  match cs.dropWhile Char.isDigit with
  | '.' :: rest => verbatim .float (digits ++ '.' :: rest.takeWhile Char.isDigit)
  | _ => verbatim .integer digits

/-- The symbols of one character, and of two where the longer one fits. -/
def ofSymbol? (c : Char) (rest : List Char) : Option Lexeme :=
  let pair (second : Char) (alone : TokenKind) : Lexeme :=
    if rest.head? = some second then verbatim .binaryOperator [c, second] else verbatim alone [c]
  match c with
  | '.' => some (verbatim .separator [c])
  | ',' => some (verbatim .delimiter [c])
  | '(' => some (verbatim .leftParenthesis [c])
  | ')' => some (verbatim .rightParenthesis [c])
  | '[' => some (verbatim .leftIndex [c])
  | ']' => some (verbatim .rightIndex [c])
  | '\x7b' => some (verbatim .leftResultIndex [c])
  | '\x7d' => some (verbatim .rightResultIndex [c])
  | '#' => some (verbatim .allValues [c])
  | '+' | '-' | '*' | '/' | '%' | '^' => some (verbatim .binaryOperator [c])
  | '!' => some (pair '=' .unaryOperator)
  | '=' | '<' | '>' => some (pair '=' .binaryOperator)
  | '&' | '|' => some (pair c .binaryOperator)
  | _ => none

/-- The token at the head of `c :: rest`, which stands at `offset`. -/
def read (offset : Nat) (c : Char) (rest : List Char) : Except LexError Lexeme :=
  if Text.isBlank c then
    .ok (verbatim .whitespace ((c :: rest).takeWhile Text.isBlank))
  else if Text.isAlphabetic c then
    .ok (ofWord ((c :: rest).takeWhile isWordPart))
  else if c.isDigit then
    .ok (ofNumber (c :: rest))
  else if isQuote c then
    match Text.readLiteral c rest with
    | some (content, n) => .ok ⟨.string, content, n + 1⟩
    | none => .error (.unterminatedString offset)
  else
    match ofSymbol? c rest with
    | some x => .ok x
    | none => .error (.unrecognizedCharacter c offset)

end Lexeme

/-- Reads on from `offset`, after passing over `skip` characters that the last token took. -/
def scanFrom (skip offset : Nat) : List Char → Scan
  | [] => ⟨[], .endOfSource offset⟩
  | c :: rest =>
    match skip with
    | skip + 1 => scanFrom skip (offset + 1) rest
    | 0 =>
      match Lexeme.read offset c rest with
      | .error e => ⟨[], .failure offset e⟩
      | .ok x =>
        let later := scanFrom (x.length - 1) (offset + 1) rest
        ⟨⟨x.kind, offset, String.ofList x.text⟩ :: later.tokens, later.stop⟩

def scan (source : String) : Scan := scanFrom 0 0 source.toList

end ExprLang
