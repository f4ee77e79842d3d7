import ExprLang.Builtin.Documentation
import ExprLang.Table
import ExprLang.Text.Quoted

/-! # Registries

A registry holds the functions that a source may call, each under its own name. A name is taken once:
a function is never replaced.

Main statement: `find?_register` says what is found after a registration.
-/

namespace ExprLang

inductive RegistryError where
  | unnamed
  | invalidName (name : String)
  | duplicate (name : String)
  | notFound (name : String)
  | alreadyInstalled
deriving DecidableEq

def RegistryError.message : RegistryError → String
  | .unnamed => "attempt to register an unnamed function"
  | .invalidName name =>
    "invalid function name " ++ Text.quote name ++
      ": function names must match ^[a-z][a-zA-Z0-9_]*$"
  | .duplicate name => "function " ++ Text.quote name ++ " is already registered"
  | .notFound name => "function " ++ Text.quote name ++ " does not exist"
  | .alreadyInstalled => "a process-wide registry is already installed"

/-- A small letter, then letters, digits and underscores, all of ASCII. -/
def isFunctionName (name : String) : Bool :=
  match name.toList with
  | [] => false
  | c :: rest => c.isLower && rest.all fun c => c.isAlphanum || c = '_'

structure Registry (V : Vocabulary) where
  functions : Table (Function V)
  named : ∀ name f, functions.find? name = some f → f.name = name ∧ isFunctionName name

variable {V : Vocabulary}

namespace Registry

def empty : Registry V := ⟨.empty, fun _ _ h => nomatch h⟩

def find? (r : Registry V) (name : String) : Option (Function V) := r.functions.find? name

def contains (r : Registry V) (name : String) : Bool := r.functions.contains name

/-- The names of the functions, in ascending order. -/
def names (r : Registry V) : List String := r.functions.names

def size (r : Registry V) : Nat := r.functions.size

def resolve (r : Registry V) (name : String) : Except RegistryError (Function V) :=
  match r.find? name with
  | some f => .ok f
  | none => .error (.notFound name)

def register (r : Registry V) (f : Function V) : Except RegistryError (Registry V) :=
  if f.name = "" then .error .unnamed
  else if h : isFunctionName f.name then
    if r.contains f.name then .error (.duplicate f.name)
    else
      .ok ⟨r.functions.insert f.name f, fun name g hg => by
        rw [Table.find?_insert] at hg
        split at hg
        · rename_i hn
          cases hg
          exact ⟨hn.symm, hn ▸ h⟩
        · exact r.named name g hg⟩
  else .error (.invalidName f.name)

theorem find?_register {r s : Registry V} {f : Function V} (h : r.register f = .ok s)
    (name : String) : s.find? name = if name = f.name then some f else r.find? name := by
  unfold register at h
  split at h
  · cases h
  · split at h
    · split at h
      · cases h
      · cases h
        exact Table.find?_insert ..
    · cases h

/-- Registers functions in turn, up to the first that is refused. -/
def registerAll (r : Registry V) : List (Function V) → Registry V × Option RegistryError
  | [] => (r, none)
  | f :: rest =>
    match r.register f with
    | .ok r => r.registerAll rest
    | .error e => (r, some e)

end Registry

def Builtin.toFunction (stamp : Nat) (b : Builtin) : Function V :=
  ⟨stamp, b.name, b.documentation, .builtin b⟩

namespace Registry

def installBuiltins (stamp : Nat) (r : Registry V) : Registry V × Option RegistryError :=
  r.registerAll (Builtin.all.map (Builtin.toFunction stamp))

def withBuiltins (stamp : Nat) : Registry V := (empty.installBuiltins stamp).1

end Registry

/-- The registry that a whole process shares. It is settled once, at the latest when it is used. The cell
that a process keeps it in is left out: its content is handed on. -/
structure SharedRegistry (V : Vocabulary) where
  installed : Option (Registry V)

namespace SharedRegistry

def unsettled : SharedRegistry V := ⟨none⟩

def install (s : SharedRegistry V) (r : Registry V) : Except RegistryError (SharedRegistry V) :=
  match s.installed with
  | some _ => .error .alreadyInstalled
  | none => .ok ⟨some r⟩

/-- The registry in force; the built-in functions if none was installed before. -/
def get (s : SharedRegistry V) (stamp : Nat) : Registry V × SharedRegistry V :=
  let r := s.installed.getD (.withBuiltins stamp)
  (r, ⟨some r⟩)

end SharedRegistry

end ExprLang
