import ExprLang.Env
import ExprLang.Error

/-! # Parameters

A native function is written against typed parameters, but a call has a list of values. A parameter
says which arguments it takes and as what; nil becomes the zero of the parameter, where it has one.

An expression that is handed over unevaluated comes with its meaning, so that the native function can
evaluate it in environments of its own making.

Main statement: `receive_cases` says that an argument is taken in or handed back, and unchanged either
way.
-/

namespace ExprLang

/-- An expression and what it evaluates to. -/
structure Deferred (V : Vocabulary) where
  expression : Expr V
  evaluate : Env V → Except EvalError (Value V)

inductive Argument (V : Vocabulary) where
  | value (v : Value V)
  | deferred (d : Deferred V)

inductive Param where
  | any
  | bool
  | string
  | int (k : IntKind)
  | float32
  | float64
  | list
  | map
  | entry
  | object
  | expression
  | optional (p : Param)
deriving DecidableEq

variable {V : Vocabulary}

def Argument.toValue : Argument V → Value V
  | value v => v
  | deferred d => .expression d.expression

namespace Param

/-- What an argument becomes. -/
@[reducible]
def Carrier (V : Vocabulary) : Param → Type
  | any => Value V
  | bool => Bool
  | string => String
  | int k => Integer k
  | float32 => Binary .single
  | float64 => Binary .double
  | list => List (Value V)
  | map => List (Entry V)
  | entry => Entry V
  | object => V.Object
  | expression => Deferred V
  | optional p => Option (Carrier V p)

def kind : Param → Kind
  | any => .any
  | bool => .bool
  | string => .string
  | int k => .int k
  | float32 => .float32
  | float64 => .float64
  | list => .list
  | map => .map
  | entry => .entry
  | object => .object
  | expression => .expression
  | optional p => p.kind

/-- What nil becomes, for the parameters that have a zero. -/
def zero? : (p : Param) → Option (p.Carrier V)
  | any => none
  | bool => some false
  | string => some ""
  | int k => some (.wrap k 0)
  | float32 => some (.zero false)
  | float64 => some (.zero false)
  | list => some []
  | map => some []
  | entry => some (.mk .nil .nil)
  | object => none
  | expression => none
  | optional _ => some none

/-- Takes an argument of the right kind, and hands back every other one. -/
def receive : (p : Param) → Argument V → Except (Argument V) (p.Carrier V)
  | any, a => .ok a.toValue
  | bool, .value (.bool b) => .ok b
  | string, .value (.string s) => .ok s
  | int k, .value (.int l n) => if h : l = k then .ok (h ▸ n) else .error (.value (.int l n))
  | float32, .value (.float32 x) => .ok x
  | float64, .value (.float64 x) => .ok x
  | list, .value (.list items) => .ok items
  | map, .value (.map entries) => .ok entries
  | entry, .value (.entry e) => .ok e
  | object, .value (.object o) => .ok o
  | expression, .deferred d => .ok d
  | optional p, a => (p.receive a).map some
  | _, a => .error a

def accept? (p : Param) (a : Argument V) : Option (p.Carrier V) := (p.receive a).toOption

/-- Takes the argument at a position, counted from one. -/
def convert (p : Param) (position : Nat) (a : Argument V) : Except InvokeError (p.Carrier V) :=
  match if a.toValue.isNil then p.zero? else none with
  | some x => .ok x
  | none =>
    match p.receive a with
    | .ok x => .ok x
    | .error rejected => .error (.argumentType position p.kind rejected.toValue.typeName)

def toArgument : (p : Param) → p.Carrier V → Argument V
  | any, v => .value v
  | bool, b => .value (.bool b)
  | string, s => .value (.string s)
  | int k, n => .value (.int k n)
  | float32, x => .value (.float32 x)
  | float64, x => .value (.float64 x)
  | list, items => .value (.list items)
  | map, entries => .value (.map entries)
  | entry, e => .value (.entry e)
  | object, o => .value (.object o)
  | expression, d => .deferred d
  | optional p, some x => p.toArgument x
  | optional _, none => .value .nil

def toValue (p : Param) (x : p.Carrier V) : Value V := (p.toArgument x).toValue

/-- What is taken in keeps its value, and what is handed back is the argument itself. -/
theorem receive_cases (p : Param) (a : Argument V) :
    (∃ x, p.receive a = .ok x ∧ p.toValue x = a.toValue) ∨ p.receive a = .error a := by
  induction p with
  | optional p ih =>
    rcases ih with ⟨x, hx, hvalue⟩ | herror
    · refine .inl ⟨some x, ?_, hvalue⟩
      rw [receive, hx]
      rfl
    · right
      rw [receive, herror]
      rfl
  | any => exact .inl ⟨a.toValue, rfl, rfl⟩
  | int k =>
    cases a with
    | deferred d => exact .inr rfl
    | value v =>
      cases v with
      | int l n =>
        by_cases hl : l = k
        · subst hl
          exact .inl ⟨n, dif_pos rfl, rfl⟩
        · exact .inr (dif_neg hl)
      | _ => exact .inr rfl
  | expression =>
    cases a with
    | deferred d => exact .inl ⟨d, rfl, rfl⟩
    | value v => exact .inr rfl
  | _ =>
    cases a with
    | deferred d => exact .inr rfl
    | value v =>
      -- Every other parameter takes the values of one constructor and refuses those of all others.
      cases v <;> first
        | exact .inr rfl
        | exact .inl ⟨_, rfl, rfl⟩

theorem eq_of_receive_eq_error {p : Param} {a b : Argument V} (h : p.receive a = .error b) : b = a := by
  rcases p.receive_cases a with ⟨x, hx, -⟩ | herror
  · cases hx.symm.trans h
  · cases herror.symm.trans h
    rfl

theorem toValue_of_receive_eq_ok {p : Param} {a : Argument V} {x : p.Carrier V}
    (h : p.receive a = .ok x) : p.toValue x = a.toValue := by
  rcases p.receive_cases a with ⟨y, hy, hvalue⟩ | herror
  · cases hy.symm.trans h
    exact hvalue
  · cases herror.symm.trans h

theorem accept?_optional (p : Param) (a : Argument V) :
    (optional p).accept? a = (p.accept? a).map some := by
  unfold accept?
  rw [receive]
  cases p.receive a <;> rfl

theorem convert_eq_match (p : Param) (position : Nat) (a : Argument V) :
    p.convert position a =
      match (if a.toValue.isNil then p.zero? else none) <|> p.accept? a with
      | some x => .ok x
      | none => .error (.argumentType position p.kind a.toValue.typeName) := by
  unfold convert accept?
  cases (if a.toValue.isNil then p.zero? else none : Option (p.Carrier V)) with
  | some x => rfl
  | none =>
    cases hreceive : p.receive a with
    | ok x => rfl
    | error b =>
      rw [eq_of_receive_eq_error hreceive]
      rfl

end Param

end ExprLang
