import ExprLang.Signature
import ExprLang.Text.Quoted

/-! # Errors of calls and of evaluation

A call fails because it could not be made, or because what was called reports a failure. Evaluation
fails at a name that is not bound, at a property that is not there, or at a call.
-/

namespace ExprLang

inductive InvokeError where
  | arity (expected : Arity) (actual : Nat)
  | argumentType (position : Nat) (expected : Kind) (actual : String)
  | failed (reason : String)
  | panicked (reason : String)
  | methodNotFound (method typeName : String)
  | resultIndex (index count : Nat)
deriving DecidableEq

def InvokeError.message : InvokeError → String
  | .arity expected actual =>
    "expected " ++ expected.text ++ " argument(s), got " ++ toString actual
  | .argumentType position expected actual =>
    "argument " ++ toString position ++ ": expected " ++ expected.name ++ ", got " ++ actual
  | .failed reason => reason
  | .panicked reason => "panicked: " ++ reason
  | .methodNotFound method typeName =>
    "method " ++ Text.quote method ++ " not found on " ++ typeName
  | .resultIndex index count =>
    "result index " ++ toString index ++ " out of range for " ++ toString count ++ " result(s)"

inductive EvalError where
  | missingValue (name : String)
  | missingProperty (property typeName : String)
  | call (name : String) (cause : InvokeError)
deriving DecidableEq

def EvalError.message : EvalError → String
  | .missingValue name => "no value named " ++ Text.quote name
  | .missingProperty property typeName =>
    "property " ++ Text.quote property ++ " not found on " ++ typeName
  | .call name cause => "error calling " ++ name ++ ": " ++ cause.message

end ExprLang
