import ExprLang.Native.Param

/-! # Taking arguments

A cursor walks the arguments of one call from left to right. A step takes one argument or all that are
left, and counts them; a step that finds none says how many arguments the call should have had.

Every step gives back the cursor, also when it fails: an argument of the wrong kind has been taken.
-/

namespace ExprLang

structure Arguments (V : Vocabulary) where
  pending : List (Argument V)
  taken : Nat
  total : Nat
  arity : Arity

variable {V : Vocabulary}

namespace Arguments

def ofList (arguments : List (Argument V)) (arity : Arity) : Arguments V :=
  ⟨arguments, 0, arguments.length, arity⟩

def arityError (c : Arguments V) : InvokeError := .arity c.arity c.total

/-- The next argument with its position, counted from one. -/
def next (c : Arguments V) : Except InvokeError (Nat × Argument V) × Arguments V :=
  match c.pending with
  | [] => (.error c.arityError, c)
  | a :: rest => (.ok (c.taken + 1, a), { c with pending := rest, taken := c.taken + 1 })

/-- Arguments with their positions, the first of which follows `taken`. -/
def number (taken : Nat) : List (Argument V) → List (Nat × Argument V)
  | [] => []
  | a :: rest => (taken + 1, a) :: number (taken + 1) rest

def remaining (c : Arguments V) : List (Nat × Argument V) × Arguments V :=
  (number c.taken c.pending, { c with pending := [], taken := c.taken + c.pending.length })

def finish (c : Arguments V) : Except InvokeError Unit :=
  match c.pending with
  | [] => .ok ()
  | _ :: _ => .error c.arityError

def take (c : Arguments V) (p : Param) : Except InvokeError (p.Carrier V) × Arguments V :=
  match c.next with
  | (.ok (position, a), c) => (p.convert position a, c)
  | (.error e, c) => (.error e, c)

def convertAll (p : Param) : List (Nat × Argument V) → Except InvokeError (List (p.Carrier V))
  | [] => .ok []
  | (position, a) :: rest =>
    match p.convert position a with
    | .error e => .error e
    | .ok x =>
      match convertAll p rest with
      | .error e => .error e
      | .ok xs => .ok (x :: xs)

def takeRest (c : Arguments V) (p : Param) :
    Except InvokeError (List (p.Carrier V)) × Arguments V :=
  let (left, c) := c.remaining
  (convertAll p left, c)

end Arguments

/-- The typed arguments of a call: one for each parameter, and a list for a variadic one. -/
@[reducible]
def Inputs (V : Vocabulary) : List Param → Option Param → Type
  | [], none => Unit
  | [], some p => List (p.Carrier V)
  | p :: params, rest => p.Carrier V × Inputs V params rest

/-- Takes every argument of a call. The first one of a wrong kind is reported before a wrong count. -/
def Inputs.take : (params : List Param) → (rest : Option Param) → Arguments V →
    Except InvokeError (Inputs V params rest)
  | [], none, c => c.finish
  | [], some p, c => (c.takeRest p).1
  | p :: params, rest, c =>
    match c.take p with
    | (.error e, _) => .error e
    | (.ok x, c) =>
      match Inputs.take params rest c with
      | .error e => .error e
      | .ok xs => .ok (x, xs)

end ExprLang
