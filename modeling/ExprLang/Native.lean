import ExprLang.Native.Arguments

/-! # Native functions and methods

A native function has typed parameters and a body, and so has a method, whose body first recognises
the object it is called on. A body ends with results, with a failure or with a panic.

A body may make new objects. It is told the site of the call, the path of the call within the
expression, and can take that for the identity of what it makes.
-/

namespace ExprLang

/-- The path from a call to the root of the expression, as positions among neighbours. -/
abbrev Site := List Nat

inductive Outcome (V : Vocabulary) where
  | results (values : List (Value V))
  | failed (reason : String)
  | panicked (reason : String)

structure Native (V : Vocabulary) where
  params : List Param
  rest : Option Param
  run : Site → Inputs V params rest → Outcome V

structure Method (V : Vocabulary) where
  params : List Param
  rest : Option Param
  /-- The body for a receiver; nothing if the method is not one of the receiver's class. -/
  bind : V.Object → Option (Site → Inputs V params rest → Outcome V)

/-- What the names of a vocabulary stand for. -/
structure Host (V : Vocabulary) where
  native : V.Native → Native V
  field : V.Object → String → Option (Value V)
  methods : V.Object → Table (Method V)

def Host.empty : Host Vocabulary.empty where
  native := Empty.elim
  field := Empty.elim
  methods := Empty.elim

variable {V : Vocabulary}

namespace Outcome

def result (v : Value V) : Outcome V := results [v]

def ofExcept : Except String (Value V) → Outcome V
  | .ok v => result v
  | .error reason => failed reason

def toExcept : Outcome V → Except InvokeError (List (Value V))
  | results values => .ok values
  | failed reason => .error (.failed reason)
  | panicked reason => .error (.panicked reason)

end Outcome

def signatureOf (params : List Param) (rest : Option Param) : Signature :=
  ⟨params.map Param.kind, rest.map Param.kind⟩

def takeInputs (params : List Param) (rest : Option Param) (arguments : List (Argument V)) :
    Except InvokeError (Inputs V params rest) :=
  Inputs.take params rest (.ofList arguments (signatureOf params rest).arity)

namespace Native

def signature (n : Native V) : Signature := signatureOf n.params n.rest

def call (n : Native V) (site : Site) (arguments : List (Argument V)) :
    Except InvokeError (List (Value V)) :=
  match takeInputs n.params n.rest arguments with
  | .error e => .error e
  | .ok inputs => (n.run site inputs).toExcept

end Native

namespace Method

def signature (m : Method V) : Signature := signatureOf m.params m.rest

/-- Recognises the receiver, then takes the arguments, then runs the body. -/
def call (m : Method V) (receiver : V.Object) (site : Site) (arguments : List (Argument V)) :
    Except InvokeError (List (Value V)) :=
  match m.bind receiver with
  | none => .error (.argumentType 0 .object (V.typeName receiver))
  | some run =>
    match takeInputs m.params m.rest arguments with
    | .error e => .error e
    | .ok inputs => (run site inputs).toExcept

def outline (methods : Table (Method V)) : String :=
  "MethodTable \x7b methods: [" ++ String.intercalate ", " (methods.names.map Text.quote) ++ "] \x7d"

end Method

def selectResult (results : List (Value V)) (index : Nat) : Except InvokeError (Value V) :=
  match results[index]? with
  | some v => .ok v
  | none => .error (.resultIndex index results.length)

end ExprLang
