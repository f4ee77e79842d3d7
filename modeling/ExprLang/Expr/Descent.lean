import ExprLang.Expr.OfTokens
import ExprLang.Token.Stream

/-! # Expressions by recursive descent

The grammar as procedures that call one another. They ask a stream for tokens when they need them, and
hold the one that they look ahead to. A procedure ends with what it has read or with an error.

Nothing in the text of the procedures says that they end. So each is given room for calls within one
another, a round of a loop being a call too, and without room there is no outcome.

The cursor that they share also counts what they do. Nothing hangs on the counts.
-/

namespace ExprLang

structure Cursor where
  stream : TokenStream
  /-- The tokens that were looked at and not taken yet. -/
  lookahead : List Handed
  lastOffset : Nat
  /-- The open brackets, the innermost first: what messages call them, and where they stand. -/
  opened : List (String × Nat)
  /-- How often the stream was asked. -/
  pulled : Nat
  taken : Nat
  /-- How many tokens were made up behind the end of the stream. -/
  madeUp : Nat
  /-- The greatest number of tokens that were held at one time. -/
  held : Nat
  /-- How many tokens were taken before and after each expression and operand that was read, and each
  round of a loop that was not the last one. -/
  turns : List (Nat × Nat)

abbrev Reading (α : Type) := ExceptT ParseError (StateT Cursor Option) α

def Reading.stuck {α : Type} : Reading α := ExceptT.mk fun _ => none

namespace Cursor

def ofSource (source : String) : Cursor := ⟨.ofSource source, [], 0, [], 0, 0, 0, 0, []⟩

def hold (h : Handed) (c : Cursor) : Cursor :=
  { c with lookahead := c.lookahead ++ [h], held := max c.held (c.lookahead.length + 1) }

def pull (c : Cursor) : Cursor :=
  let (answer, stream) := c.stream.next
  let c := { c with stream, pulled := c.pulled + 1 }
  match answer with
  | some (t, failure) =>
    if t.kind = .whitespace then { c with lastOffset := t.start + t.text.length }
    else { c with lastOffset := t.start }.hold (t, failure)
  | none => { c with madeUp := c.madeUp + 1 }.hold (⟨.eof, c.lastOffset, ""⟩, none)

def enter (name : String) (offset : Nat) (c : Cursor) : Cursor :=
  { c with opened := (name, offset) :: c.opened }

def leave (c : Cursor) : Cursor := { c with opened := c.opened.tail }

/-- Notes a turn that has begun when this many tokens were taken. -/
def turn (before : Nat) (c : Cursor) : Cursor :=
  { c with turns := (before, c.taken) :: c.turns }

end Cursor

namespace Descent

/-- Looks ahead to the token behind `k` others. -/
def fill (k : Nat) : Nat → Reading Unit
  | 0 => .stuck
  | room + 1 => do
    if (← get).lookahead.length ≤ k then
      modify Cursor.pull
      fill k room

def peekAt (k room : Nat) : Reading TokenKind := do
  fill k room
  let c ← get
  match (c.lookahead.take (k + 1)).findSome? (·.2) with
  | some e => throw (.lex e)
  | none => return (c.lookahead[k]?.map (·.1.kind)).getD .eof

def next (room : Nat) : Reading Token := do
  let _ ← peekAt 0 room
  let c ← get
  match c.lookahead with
  | (t, _) :: rest =>
    set { c with lookahead := rest, taken := c.taken + 1 }
    return t
  | [] =>
    set { c with madeUp := c.madeUp + 1, taken := c.taken + 1 }
    return ⟨.eof, c.lastOffset, ""⟩

def unexpected {α : Type} (t : Token) : Reading α := do
  match t.kind, (← get).opened with
  | .eof, (name, offset) :: _ => throw (.unclosedParenthesis name offset)
  | _, _ => throw t.unexpected

def expect (kind : TokenKind) (room : Nat) : Reading Token := do
  let t ← next room
  if t.kind = kind then return t else unexpected t

/-- The index behind a call; without one it is the first result. -/
def resultIndex (room : Nat) : Reading Nat := do
  if (← peekAt 0 room) = .leftResultIndex then
    let _ ← next room
    let t ← expect .integer room
    match t.resultIndex? with
    | some index =>
      let _ ← expect .rightResultIndex room
      return index
    | none => throw t.invalid
  else return 0

variable {V : Vocabulary} (r : Registry V)

open Reader

def callee (parent : Option (Expr V)) (name : Token) : Except ParseError (Callee V) :=
  match parent with
  | some parent => .ok (.method parent name.text)
  | none => (resolve r name.text name.start).map .function

mutual

def expression : Nat → Reading (Expr V)
  | 0 => .stuck
  | room + 1 => do
    let before := (← get).taken
    let e ← operand room
    let e ← operators room e
    modify (Cursor.turn before)
    return e
termination_by structural room => room

/-- The binary operators behind an operand, applied from left to right. -/
def operators : Nat → Expr V → Reading (Expr V)
  | 0, _ => .stuck
  | room + 1, e => do
    if (← peekAt 0 room) = .binaryOperator then
      let before := (← get).taken
      let t ← next room
      match Operator.binaryFunction? t.text with
      | some name =>
        let f ← resolve r name t.start
        let right ← operand room
        modify (Cursor.turn before)
        operators room (.call f [e, right] 0)
      | none => throw (.unrecognizedOperator t.text t.start)
    else return e
termination_by structural room => room

def operand : Nat → Reading (Expr V)
  | 0 => .stuck
  | room + 1 => do
    let before := (← get).taken
    let kind ← peekAt 0 room
    if kind = .unaryOperator ∨ kind = .binaryOperator then
      let t ← next room
      match Operator.unaryFunction? t.text with
      | some name =>
        let f ← resolve r name t.start
        let e ← operand room
        modify (Cursor.turn before)
        return .call f [e] 0
      | none => unexpected t
    else
      let e ← primary room
      let e ← suffixes room e
      modify (Cursor.turn before)
      return e
termination_by structural room => room

def primary : Nat → Reading (Expr V)
  | 0 => .stuck
  | room + 1 => do
    let t ← next room
    match t.kind with
    | .leftParenthesis =>
      let f ← resolve r Operator.groupFunction t.start
      modify (Cursor.enter "(" t.start)
      let e ← expression room
      let _ ← expect .rightParenthesis room
      modify Cursor.leave
      return .call f [e] 0
    | .identifier => member room none t
    | _ =>
      match ← State.literal? t with
      | some e => return e
      | none => unexpected t
termination_by structural room => room

def suffixes : Nat → Expr V → Reading (Expr V)
  | 0, _ => .stuck
  | room + 1, e => do
    match ← peekAt 0 room with
    | .separator =>
      let before := (← get).taken
      let _ ← next room
      let name ← expect .identifier room
      let e ← member room (some e) name
      modify (Cursor.turn before)
      suffixes room e
    | .leftIndex =>
      let before := (← get).taken
      let t ← next room
      let f ← resolve r Operator.indexFunction t.start
      modify (Cursor.enter "[" t.start)
      let index ← expression room
      let _ ← expect .rightIndex room
      modify Cursor.leave
      modify (Cursor.turn before)
      suffixes room (.call f [e, index] 0)
    | _ => return e
termination_by structural room => room

/-- A name, and what makes it a call. -/
def member : Nat → Option (Expr V) → Token → Reading (Expr V)
  | 0, _, _ => .stuck
  | room + 1, parent, name => do
    if (← peekAt 0 room) = .leftParenthesis then
      let callee ← callee r parent name
      let given ← arguments room name
      let index ← resultIndex room
      return callee.apply given index
    else return property parent name.text
termination_by structural room => room

def arguments : Nat → Token → Reading (List (Expr V))
  | 0, _ => .stuck
  | room + 1, name => do
    let _ ← expect .leftParenthesis room
    modify (Cursor.enter name.text name.start)
    if (← peekAt 0 room) = .rightParenthesis then
      let _ ← next room
      modify Cursor.leave
      return []
    else
      let given ← argumentsAfter room []
      modify Cursor.leave
      return given
termination_by structural room => room

def argumentsAfter : Nat → List (Expr V) → Reading (List (Expr V))
  | 0, _ => .stuck
  | room + 1, given => do
    let before := (← get).taken
    let e ← expression room
    let t ← next room
    match t.kind with
    | .delimiter =>
      modify (Cursor.turn before)
      argumentsAfter room (given ++ [e])
    | .rightParenthesis => return given ++ [e]
    | _ => unexpected t
termination_by structural room => room

end

def whole (room : Nat) : Reading (Expr V) := do
  if (← peekAt 0 room) = .eof then throw .emptyExpression
  let e ← expression r room
  let t ← next room
  if t.kind = .eof then return e else unexpected t

/-- What comes of a source, and the cursor where it was decided. -/
def parse (source : String) (room : Nat) : Option (Except ParseError (Expr V) × Cursor) :=
  (whole r room).run.run (.ofSource source)

end Descent

end ExprLang
