import ExprLang.Number.Binary.Decimal
import ExprLang.Operator
import ExprLang.Registry
import ExprLang.Token.Lexer
import ExprLang.Value

/-! # Expressions from tokens

A reader walks the tokens once, one step for each, and keeps a stack of the brackets that are open. So
the first token that does not fit is the one that is reported, and a source that ends too early is
reported at its innermost open bracket.

* Binary operators have no precedence: they apply from left to right. A prefix operator applies to the
  operand after it, suffixes included.
* An identifier before a parenthesis is a call: of a function if it stands alone, of a method behind a
  point. The function must be in the registry, and so must those that operators and brackets stand
  for.
* A call may be followed by the index of one of its results, between braces.
-/

namespace ExprLang

inductive ParseError where
  | emptyExpression
  | unclosedParenthesis (name : String) (offset : Nat)
  | unknownFunction (name : String) (offset : Nat)
  | unexpectedToken (kind : TokenKind) (text : String) (offset : Nat)
  | unrecognizedOperator (operator : String) (offset : Nat)
  | invalidLiteral (text : String) (offset : Nat)
  | lex (error : LexError)
deriving DecidableEq

def ParseError.message : ParseError → String
  | .emptyExpression => "empty expression"
  | .unclosedParenthesis name offset =>
    "unclosed parenthesis for " ++ name ++ " at position " ++ toString offset
  | .unknownFunction name offset =>
    "function " ++ Text.quote name ++ " does not exist (position " ++ toString offset ++ ")"
  | .unexpectedToken kind text offset =>
    "unexpected token " ++ kind.name ++ " " ++ Text.quote text ++ " at position " ++ toString offset
  | .unrecognizedOperator operator offset =>
    "unrecognized operator " ++ Text.quote operator ++ " at position " ++ toString offset
  | .invalidLiteral text offset =>
    "invalid literal " ++ Text.quote text ++ " at position " ++ toString offset
  | .lex error => error.message

def Token.unexpected (t : Token) : ParseError := .unexpectedToken t.kind t.text t.start

def Token.invalid (t : Token) : ParseError := .invalidLiteral t.text t.start

def Token.number (t : Token) : Nat := Nat.ofDigitChars 10 t.text.toList 0

/-- A result index fits into 64 bits. -/
def Token.resultIndex? (t : Token) : Option Nat :=
  if t.number < 2 ^ 64 then some t.number else none

namespace Reader

/-- What an identifier before a parenthesis calls. -/
inductive Callee (V : Vocabulary) where
  | function (f : Function V)
  | method (parent : Expr V) (name : String)

/-- What the operands of one bracket level are waited for by: a binary operator with its left operand,
and prefix operators, the innermost first. -/
structure Pending (V : Vocabulary) where
  left : Option (Function V × Expr V)
  prefixes : List (Function V)

inductive Bracket (V : Vocabulary) where
  | group (f : Function V)
  | index (f : Function V) (target : Expr V)
  | call (callee : Callee V) (arguments : List (Expr V))

/-- An open bracket, what messages call it, and the level it interrupts. -/
structure Open (V : Vocabulary) where
  name : String
  offset : Nat
  bracket : Bracket V
  outer : Pending V

/-- What was read last. -/
inductive Position (V : Vocabulary) where
  /-- Something that an operand must follow. -/
  | start
  /-- The parenthesis of a call, which may close at once. -/
  | firstArgument (callee : Callee V)
  /-- The point behind a parent. -/
  | point (parent : Expr V)
  /-- An identifier. -/
  | name (parent : Option (Expr V)) (text : String) (offset : Nat)
  /-- The end of a call, which a result index may follow. -/
  | called (callee : Callee V) (arguments : List (Expr V))
  /-- The brace before a result index. -/
  | resultIndex (callee : Callee V) (arguments : List (Expr V))
  /-- The result index. -/
  | closeResultIndex (callee : Callee V) (arguments : List (Expr V)) (index : Nat)
  /-- An operand, which a suffix may follow. -/
  | operand (e : Expr V)

structure State (V : Vocabulary) where
  position : Position V
  pending : Pending V
  stack : List (Open V)

variable {V : Vocabulary}

def Callee.apply (arguments : List (Expr V)) (index : Nat) : Callee V → Expr V
  | function f => .call f arguments index
  | method parent name => .method parent name arguments index

def Pending.empty : Pending V := ⟨none, []⟩

def Pending.apply (p : Pending V) (e : Expr V) : Expr V :=
  let e := p.prefixes.foldl (fun e f => .call f [e] 0) e
  match p.left with
  | some (f, left) => .call f [left, e] 0
  | none => e

def property : Option (Expr V) → String → Expr V
  | some parent, name => .field parent name
  | none, name => .lookup name

/-- The operand that ends here, if one can. -/
def Position.operand? : Position V → Option (Expr V)
  | name parent text _ => some (property parent text)
  | called callee arguments => some (callee.apply arguments 0)
  | operand e => some e
  | _ => none

def State.initial : State V := ⟨.start, .empty, []⟩

variable (r : Registry V)

def resolve (name : String) (offset : Nat) : Except ParseError (Function V) :=
  match r.find? name with
  | some f => .ok f
  | none => .error (.unknownFunction name offset)

namespace State

def enter (s : State V) (name : String) (offset : Nat) (bracket : Bracket V)
    (position : Position V) : State V :=
  ⟨position, .empty, ⟨name, offset, bracket, s.pending⟩ :: s.stack⟩

def literal? (t : Token) : Except ParseError (Option (Expr V)) :=
  match t.kind with
  | .integer =>
    match Integer.ofInt? .int64 t.number with
    | some n => .ok (some (.literal (.int64 n)))
    | none => .error t.invalid
  | .float => .ok (some (.literal (.float64 (.ofDecimal (.ofText t.text.toList)))))
  | .bool => .ok (some (.literal (.bool (t.text = "true"))))
  | .string => .ok (some (.literal (.string t.text)))
  | .allValues => .ok (some (.lookup ""))
  | _ => .ok none

/-- Reads a token where an operand must start. -/
def beginOperand (s : State V) (t : Token) : Except ParseError (State V) :=
  match t.kind with
  | .unaryOperator | .binaryOperator =>
    match Operator.unaryFunction? t.text with
    | some name => do
      let f ← resolve r name t.start
      return ⟨.start, { s.pending with prefixes := f :: s.pending.prefixes }, s.stack⟩
    | none => .error t.unexpected
  | .leftParenthesis => do
    let f ← resolve r Operator.groupFunction t.start
    return s.enter "(" t.start (.group f) .start
  | .identifier => .ok { s with position := .name none t.text t.start }
  | _ => do
    match ← literal? t with
    | some e => return { s with position := .operand e }
    | none => .error t.unexpected

/-- Reads a token that ends the innermost bracket, or one argument of a call, at the operand `e`. -/
def close (s : State V) (e : Expr V) (t : Token) : Except ParseError (State V) :=
  let e := s.pending.apply e
  match s.stack with
  | [] => .error t.unexpected
  | o :: stack =>
    match o.bracket, t.kind with
    | .group f, .rightParenthesis => .ok ⟨.operand (.call f [e] 0), o.outer, stack⟩
    | .index f target, .rightIndex => .ok ⟨.operand (.call f [target, e] 0), o.outer, stack⟩
    | .call callee arguments, .rightParenthesis =>
      .ok ⟨.called callee (arguments ++ [e]), o.outer, stack⟩
    | .call callee arguments, .delimiter =>
      .ok ⟨.start, .empty, { o with bracket := .call callee (arguments ++ [e]) } :: stack⟩
    | _, _ => .error t.unexpected

/-- Reads a token behind the operand `e`. -/
def continueOperand (s : State V) (e : Expr V) (t : Token) : Except ParseError (State V) :=
  match t.kind with
  | .separator => .ok { s with position := .point e }
  | .leftIndex => do
    let f ← resolve r Operator.indexFunction t.start
    return s.enter "[" t.start (.index f e) .start
  | .binaryOperator =>
    match Operator.binaryFunction? t.text with
    | some name => do
      let f ← resolve r name t.start
      return ⟨.start, ⟨some (f, s.pending.apply e), []⟩, s.stack⟩
    | none => .error (.unrecognizedOperator t.text t.start)
  | _ => s.close e t

/-- Reads the parenthesis of a call of the identifier `name`. -/
def beginCall (s : State V) (parent : Option (Expr V)) (name : String) (offset : Nat) :
    Except ParseError (State V) := do
  let callee : Callee V ← match parent with
    | some parent => pure (.method parent name)
    | none => Callee.function <$> resolve r name offset
  return s.enter name offset (.call callee []) (.firstArgument callee)

def step (s : State V) (t : Token) : Except ParseError (State V) :=
  match s.position with
  | .start => s.beginOperand r t
  | .firstArgument callee =>
    match t.kind, s.stack with
    | .rightParenthesis, o :: stack => .ok ⟨.called callee [], o.outer, stack⟩
    | _, _ => s.beginOperand r t
  | .point parent =>
    if t.kind = .identifier then .ok { s with position := .name (some parent) t.text t.start }
    else .error t.unexpected
  | .name parent name offset =>
    if t.kind = .leftParenthesis then s.beginCall r parent name offset
    else s.continueOperand r (property parent name) t
  | .called callee arguments =>
    if t.kind = .leftResultIndex then .ok { s with position := .resultIndex callee arguments }
    else s.continueOperand r (callee.apply arguments 0) t
  | .resultIndex callee arguments =>
    if t.kind = .integer then
      match t.resultIndex? with
      | some index => .ok { s with position := .closeResultIndex callee arguments index }
      | none => .error t.invalid
    else .error t.unexpected
  | .closeResultIndex callee arguments index =>
    if t.kind = .rightResultIndex then
      .ok { s with position := .operand (callee.apply arguments index) }
    else .error t.unexpected
  | .operand e => s.continueOperand r e t

def run (s : State V) : List Token → Except ParseError (State V)
  | [] => .ok s
  | t :: rest =>
    match s.step r t with
    | .ok s => s.run rest
    | .error e => .error e

/-- The expression, if the source may end here, at `offset`. -/
def finish (s : State V) (offset : Nat) : Except ParseError (Expr V) :=
  match s.stack, s.position.operand? with
  | [], some e => .ok (s.pending.apply e)
  | [], none => .error (.unexpectedToken .eof "" offset)
  | o :: _, _ => .error (.unclosedParenthesis o.name o.offset)

end State

end Reader

variable {V : Vocabulary}

namespace Expr

def ofTokens (r : Registry V) (tokens : List Token) (stop : Stop) :
    Except ParseError (Expr V) := do
  let s ← Reader.State.initial.run r tokens
  match stop with
  | .failure _ error => .error (.lex error)
  | .endOfSource offset => if tokens.isEmpty then .error .emptyExpression else s.finish offset

def ofScan (r : Registry V) (s : Scan) : Except ParseError (Expr V) :=
  ofTokens r s.marks s.stop

/-- Reads a source; its functions are those of the registry. -/
def parse (r : Registry V) (source : String) : Except ParseError (Expr V) :=
  ofScan r (scan source)

/-- Reads bytes in UTF-8. What kept the bytes from being read comes before what is in them. -/
def parseBytes (r : Registry V) (bytes : ByteArray) (failure : Option String) :
    Except ParseError (Expr V) :=
  match failure, String.fromUTF8? bytes with
  | some reason, _ => .error (.lex (.unreadable reason))
  | none, none => .error (.lex (.unreadable "stream did not contain valid UTF-8"))
  | none, some source => parse r source

end Expr

end ExprLang
