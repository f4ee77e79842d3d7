import ExprLang.Builtin.Native

/-! # Evaluation

An expression is evaluated in an environment, from left to right, up to the first error. The arguments
of a call are evaluated before the call, but for those whose parameter takes an expression: they are
handed over with their meaning. So a native function can evaluate what it was given and nothing else,
and evaluation follows the tree.

The error of a call carries the name of what was called.

Logging is left out, and so is the room that nested evaluations take; how deep they nest is a theorem
(`Proofs/Nesting`).
-/

namespace ExprLang

variable {V : Vocabulary}

/-- The value of a property: a field of an object, or the entry of a map. -/
def Value.field? (host : Host V) (name : String) : Value V → Option (Value V)
  | .object o => host.field o name
  | v => v.entry? name

/-- A property of a value; the empty name stands for the value itself. -/
def Value.property (host : Host V) (v : Value V) (name : String) : Except EvalError (Value V) :=
  if name = "" then .ok v
  else
    match v.field? host name with
    | some w => .ok w
    | none => .error (.missingProperty name v.typeName)

/-- The value of a name; the empty name stands for the whole environment unless it is bound. -/
def Env.value (env : Env V) (name : String) : Except EvalError (Value V) :=
  match env.find? name with
  | some v => .ok v
  | none => if name = "" then .ok env.toValue else .error (.missingValue name)

/-- One result of a call, or its error under the name of what was called. -/
def callResult (name : String) (index : Nat) (outcome : Except InvokeError (List (Value V))) :
    Except EvalError (Value V) :=
  match outcome with
  | .error e => .error (.call name e)
  | .ok results =>
    match selectResult results index with
    | .ok v => .ok v
    | .error e => .error (.call name e)

/-- The method that a value has under a name. -/
def Value.method (host : Host V) (name : String) (v : Value V) :
    Except EvalError (V.Object × Method V) :=
  let missing : EvalError := .call name (.methodNotFound name v.typeName)
  match v with
  | .object o =>
    match (host.methods o).find? name with
    | some m => .ok (o, m)
    | none => .error missing
  | _ => .error missing

mutual

def Expr.evaluateAt (host : Host V) : Expr V → Site → Env V → Except EvalError (Value V)
  | .literal v, _, _ => .ok v
  | .lookup name, _, env => env.value name
  | .field parent name, site, env =>
    match Expr.evaluateAt host parent (0 :: site) env with
    | .error e => .error e
    | .ok v => v.property host name
  | .call f arguments index, site, env =>
    match Expr.evaluateArguments host (f.signature host) 0 arguments site env with
    | .error e => .error e
    | .ok args => callResult f.name index ((f.native host).call site args)
  | .method parent name arguments index, site, env =>
    match Expr.evaluateAt host parent (arguments.length :: site) env with
    | .error e => .error e
    | .ok v =>
      match v.method host name with
      | .error e => .error e
      | .ok (o, m) =>
        match Expr.evaluateArguments host m.signature 0 arguments site env with
        | .error e => .error e
        | .ok args => callResult name index (m.call o site args)
termination_by structural x => x

/-- The arguments from position `i` on. -/
def Expr.evaluateArguments (host : Host V) (s : Signature) (i : Nat) :
    List (Expr V) → Site → Env V → Except EvalError (List (Argument V))
  | [], _, _ => .ok []
  | e :: rest, site, env =>
    if s.kindAt i = some .expression then
      match Expr.evaluateArguments host s (i + 1) rest site env with
      | .error err => .error err
      | .ok args => .ok (.deferred ⟨e, Expr.evaluateAt host e (i :: site)⟩ :: args)
    else
      match Expr.evaluateAt host e (i :: site) env with
      | .error err => .error err
      | .ok v =>
        match Expr.evaluateArguments host s (i + 1) rest site env with
        | .error err => .error err
        | .ok args => .ok (.value v :: args)
termination_by structural x => x

end

namespace Expr

def evaluate (host : Host V) (e : Expr V) (env : Env V) : Except EvalError (Value V) :=
  e.evaluateAt host [] env

end Expr

/-- A value as an argument; an expression comes with its meaning. -/
def Value.toArgument (host : Host V) (site : Site) : Value V → Argument V
  | .expression e => .deferred ⟨e, e.evaluateAt host site⟩
  | v => .value v

/-- Values as the arguments of a call at a site. -/
def Argument.ofValues (host : Host V) (site : Site) (i : Nat) : List (Value V) → List (Argument V)
  | [] => []
  | v :: rest => v.toArgument host (i :: site) :: ofValues host site (i + 1) rest

def Function.invokeAt (host : Host V) (f : Function V) (site : Site) (values : List (Value V)) :
    Except InvokeError (List (Value V)) :=
  (f.native host).call site (Argument.ofValues host site 0 values)

def Host.invokeMethodAt (host : Host V) (o : V.Object) (name : String) (site : Site)
    (values : List (Value V)) : Except InvokeError (List (Value V)) :=
  match (host.methods o).find? name with
  | none => .error (.methodNotFound name (V.typeName o))
  | some m => m.call o site (Argument.ofValues host site 0 values)

def Function.invoke (host : Host V) (f : Function V) (values : List (Value V)) :
    Except InvokeError (List (Value V)) := f.invokeAt host [] values

def Host.invokeMethod (host : Host V) (o : V.Object) (name : String) (values : List (Value V)) :
    Except InvokeError (List (Value V)) := host.invokeMethodAt o name [] values

end ExprLang
