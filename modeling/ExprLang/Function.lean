import ExprLang.Builtin

/-! # Functions

A host application contributes objects and native functions of its own. The `Vocabulary` names them;
what they do is said later, by a `Host`.

A function is known by all it carries: name, documentation and code, and a stamp that tells apart
functions made alike. Functions are equal exactly if they are the same in every part.
-/

namespace ExprLang

/-- The objects and native functions that a host application knows. Objects are identities: equal
objects are the same object. -/
structure Vocabulary where
  Object : Type
  Native : Type
  typeName : Object → String
  shown : Object → String
  decideObject : DecidableEq Object
  decideNative : DecidableEq Native

variable {V : Vocabulary}

instance : DecidableEq V.Object := V.decideObject

instance : DecidableEq V.Native := V.decideNative

def Vocabulary.empty : Vocabulary where
  Object := Empty
  Native := Empty
  typeName := Empty.elim
  shown := Empty.elim
  decideObject := inferInstance
  decideNative := inferInstance

structure Documentation where
  text : String
  parameters : List (String × String)
deriving DecidableEq

/-- The text, then a line for each parameter. -/
def Documentation.render (d : Documentation) : String :=
  d.text ++ String.join (d.parameters.map fun (name, description) =>
    "\n  " ++ name ++ ": " ++ description)

inductive Code (V : Vocabulary) where
  | builtin (b : Builtin)
  | native (n : V.Native)
deriving DecidableEq

structure Function (V : Vocabulary) where
  stamp : Nat
  name : String
  documentation : Documentation
  code : Code V
deriving DecidableEq

end ExprLang
