import ExprLang.Table
import ExprLang.Value.Equality

/-! # Environments

An environment binds names to values. The empty name may be bound like any other.
-/

namespace ExprLang

abbrev Env (V : Vocabulary) := Table (Value V)

variable {V : Vocabulary}

/-- Binds a name, and answers the value that it was bound to before. -/
def Env.set (env : Env V) (name : String) (v : Value V) : Option (Value V) × Env V :=
  (env.find? name, env.insert name v)

/-- Unbinds a name, and answers the value that it was bound to. -/
def Env.remove (env : Env V) (name : String) : Option (Value V) × Env V :=
  (env.find? name, env.erase name)

def Env.isEmpty (env : Env V) : Bool := env.size = 0

/-- The whole environment as a map, in ascending order of the names. -/
def Env.toValue (env : Env V) : Value V :=
  .map (env.entries.map fun (name, v) => .mk (.string name) v)

/-- Environments are equal if they bind the same names to equal values. -/
def Env.equal (a b : Env V) : Bool := a.toValue == b.toValue

/-- The value under a name, if the value is a map with that name as a key. -/
def Value.entry? (name : String) : Value V → Option (Value V)
  | .map entries => Entry.find? entries (.string name)
  | _ => none

end ExprLang
