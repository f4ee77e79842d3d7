import ExprLang.Proofs.Composition
import ExprLang.Proofs.ModularArithmetic

/-!
# Sources of integer arithmetic

A source of whole numbers, signs, parentheses and the four operators is a formula without precedence: its
operators are applied from left to right, and a sign belongs to the operand behind it. Every such source
parses, and it evaluates to what integers modulo `2 ^ 64` give, or to the error of the first division that
they do not have.

Main statement: `evaluate_integerSource`.
-/

namespace ExprLang

open Lexeme Grammar

variable {V : Vocabulary} {host : Host V} {env : Env V}

/-! ## Formulas -/

/-- A number below `2 ^ 63` as digits, perhaps with zeros in front. -/
structure Digits where
  text : String
  ne_nil : text.toList ≠ []
  isDigit : ∀ c ∈ text.toList, c.isDigit = true
  lt : numeral text < 2 ^ 63

mutual

inductive IntegerOperand where
  | digits (d : Digits)
  | negative (o : IntegerOperand)
  | group (e : IntegerFormula)

/-- An operand, or a formula with one more operator and operand behind it. -/
inductive IntegerFormula where
  | operand (o : IntegerOperand)
  | binary (e : IntegerFormula) (op : Arithmetic) (o : IntegerOperand)

end

def Arithmetic.symbol : Arithmetic → String
  | add => "+"
  | subtract => "-"
  | multiply => "*"
  | divide => "/"

mutual

def IntegerOperand.text : IntegerOperand → String
  | .digits d => d.text
  | .negative o => "-" ++ o.text
  | .group e => "(" ++ e.text ++ ")"

def IntegerFormula.text : IntegerFormula → String
  | .operand o => o.text
  | .binary e op o => e.text ++ " " ++ op.symbol ++ " " ++ o.text

end

/-! ## What a formula stands for -/

/-- The error of a division by zero, or of the least number by -1. -/
def divisionError : EvalError :=
  .call "divide" (.failed "divide: integer division by zero or overflow")

/-- Arithmetic in two's complement of 64 bits; quotients are truncated. -/
def Arithmetic.onNumbers : Arithmetic → Int → Int → Except EvalError Int
  | add, m, n => .ok ((m + n).bmod (2 ^ 64))
  | subtract, m, n => .ok ((m - n).bmod (2 ^ 64))
  | multiply, m, n => .ok ((m * n).bmod (2 ^ 64))
  | divide, m, n =>
    if n = 0 ∨ (m = -2 ^ 63 ∧ n = -1) then .error divisionError else .ok (m.tdiv n)

mutual

def IntegerOperand.value : IntegerOperand → Except EvalError Int
  | .digits d => .ok (numeral d.text)
  | .negative o => o.value.map fun n => (-n).bmod (2 ^ 64)
  | .group e => e.value

def IntegerFormula.value : IntegerFormula → Except EvalError Int
  | .operand o => o.value
  | .binary e op o => e.value.bind fun m => o.value.bind fun n => op.onNumbers m n

end

/-- The outcome of an evaluation is a number of 64 bits, or the error. -/
def Agrees : Except EvalError Int → Except EvalError (Value V) → Prop
  | .ok n, outcome => ∃ a : Integer .int64, a.val = n ∧ outcome = .ok (.int64 a)
  | .error err, outcome => outcome = .error err

theorem Agrees.bind {x : Except EvalError Int} {y : Except EvalError (Value V)}
    {k : Int → Except EvalError Int} {k' : Value V → Except EvalError (Value V)} (h : Agrees x y)
    (hk : ∀ a : Integer .int64, Agrees (k a.val) (k' (.int64 a))) :
    Agrees (x.bind k) (y.bind k') := by
  cases x with
  | error err =>
    have hy : y = .error err := h
    rw [hy]
    rfl
  | ok n =>
    obtain ⟨a, rfl, rfl⟩ := h
    exact hk a

/-! ## Integers of 64 bits -/

theorem Integer.val_wrap_int64 (n : Int) : (wrap .int64 n).val = n.bmod (2 ^ 64) := by
  show -2 ^ 63 + (n - -2 ^ 63) % 2 ^ 64 = n.bmod (2 ^ 64)
  rw [Int.bmod_def]
  omega

theorem Integer.bounds_int64 (a : Integer .int64) : -2 ^ 63 ≤ a.val ∧ a.val < 2 ^ 63 := a.holds

theorem IntKind.holds_int64_iff {n : Int} : IntKind.int64.Holds n ↔ -2 ^ 63 ≤ n ∧ n < 2 ^ 63 :=
  Iff.rfl

/-- The quotient that the arithmetic of a kind makes is the truncated one, where there is one. -/
theorem agrees_divide (a b : Integer .int64) :
    Agrees (Arithmetic.divide.onNumbers a.val b.val)
      ((Arithmetic.divide.apply (.int64 a) (.int64 b) : Except String (Value V)).mapError
        fun reason => .call "divide" (.failed reason)) := by
  have hreason : Arithmetic.divide.name ++ ": integer division by zero or overflow" =
      "divide: integer division by zero or overflow" := by decide
  rw [Value.int64, Value.int64, Arithmetic.apply_int, hreason, Arithmetic.onIntegers, Integer.div?,
    Arithmetic.onNumbers]
  by_cases hzero : b.val = 0
  · rw [if_pos hzero, if_pos (.inl hzero)]
    rfl
  · have hholds : IntKind.int64.Holds (a.val.tdiv b.val) ↔ ¬ (a.val = -2 ^ 63 ∧ b.val = -1) :=
      (IntKind.holds_tdiv_iff a hzero).trans (not_congr (and_iff_right rfl))
    rw [if_neg hzero, Integer.ofInt?]
    by_cases hleast : a.val = -2 ^ 63 ∧ b.val = -1
    · rw [if_pos (.inr hleast), dif_neg fun h => hholds.mp h hleast]
      rfl
    · rw [if_neg (not_or.mpr ⟨hzero, hleast⟩), dif_pos (hholds.mpr hleast)]
      exact ⟨_, rfl, rfl⟩

/-- What an operator calls. Addition is also the function that puts strings together. -/
def Arithmetic.operation : Arithmetic → Builtin
  | add => .addOrConcat
  | op => .arithmetic op

def Arithmetic.operate : Arithmetic → Value V → Value V → Except String (Value V)
  | add => Strings.addOrConcat
  | op => op.apply

theorem Arithmetic.native_operation (op : Arithmetic) :
    (op.operation.native : Native V) = Builtin.ofTwo op.operate := by
  cases op <;> rfl

theorem Arithmetic.binaryFunction?_symbol (op : Arithmetic) :
    Operator.binaryFunction? op.symbol = some op.operation.name := by
  cases op <;> rfl

theorem agrees_operate (op : Arithmetic) (a b : Integer .int64) :
    Agrees (op.onNumbers a.val b.val)
      ((op.operate (.int64 a) (.int64 b) : Except String (Value V)).mapError
        fun reason => .call op.operation.name (.failed reason)) := by
  cases op with
  | add => exact ⟨a.add b, Integer.val_wrap_int64 _, rfl⟩
  | subtract => exact ⟨a.sub b, Integer.val_wrap_int64 _, rfl⟩
  | multiply => exact ⟨a.mul b, Integer.val_wrap_int64 _, rfl⟩
  | divide => exact agrees_divide a b

/-! ## The tree of a formula -/

section Trees

variable (stamp : Nat)

def Digits.number (d : Digits) : Integer .int64 where
  val := numeral d.text
  holds := IntKind.holds_int64_iff.mpr (by have := d.lt; omega)

mutual

/-- The tree that a formula is read as. -/
def IntegerOperand.tree : IntegerOperand → Expr V
  | .digits d => .literal (.int64 d.number)
  | .negative o => .call (Builtin.negate.toFunction stamp) [o.tree] 0
  | .group e => .call (Builtin.nil.toFunction stamp) [e.tree] 0

def IntegerFormula.tree : IntegerFormula → Expr V
  | .operand o => o.tree
  | .binary e op o => .call (op.operation.toFunction stamp) [e.tree, o.tree] 0

end

/-- What may stand right behind an operand of a formula. -/
def IsBehind (d : Char) : Prop := IsCloser d ∨ d = ' '

theorem any_symbols_sign (d : Char) : symbols.any (·.1 = ['-'] ++ [d]) = false := by
  simp [symbols]

mutual

theorem isText_integerOperand : ∀ o : IntegerOperand,
    IsText IsBehind o.text.toList
      (IsOperand (.withBuiltins stamp : Registry V) · (o.tree stamp))
  | .digits d => by
    have hwrites := writes_digits d.ne_nil d.isDigit
    rw [String.ofList_toList] at hwrites
    have hliteral : IsLiteral (V := V) ⟨.integer, d.text⟩ (.literal (.int64 d.number)) :=
      .integer rfl
    refine ⟨_, hwrites.mono ?_, .chain (.literal hliteral)⟩
    rintro _ ((rfl | rfl | rfl) | rfl) <;> decide
  | .negative o => by
    have ho := isText_integerOperand o
    have hbegins := ho.expr.begins.mono fun d _ => any_symbols_sign d
    have hnegate := isText_unary (c := '-') (by decide) (.inr rfl) rfl
      (Registry.find?_withBuiltins stamp .negate) ho hbegins
    rw [IntegerOperand.text, String.toList_append]
    exact hnegate
  | .group e => by
    have hgroup := isText_group (Registry.find?_withBuiltins stamp .nil)
      (isText_integerFormula e) (.inl (.inl rfl))
    rw [IntegerOperand.text, String.toList_append, String.toList_append]
    exact (hgroup.mono (fun _ _ => trivial) fun _ => id).operand

theorem isText_integerFormula : ∀ e : IntegerFormula,
    IsText IsBehind e.text.toList
      (IsExpr (.withBuiltins stamp : Registry V) · (e.tree stamp))
  | .operand o => (isText_integerOperand o).expr
  | .binary e op o => by
    have hbinary := isText_binary op.binaryFunction?_symbol
      (Registry.find?_withBuiltins stamp op.operation) (isText_integerFormula e) (.inr rfl)
      (isText_integerOperand o)
    have htext : (IntegerFormula.binary e op o).text.toList =
        e.text.toList ++ ' ' :: (op.symbol.toList ++ ' ' :: o.text.toList) := by
      simp [IntegerFormula.text, String.toList_append]
    rw [htext]
    exact hbinary

end

mutual

theorem agrees_integerOperand : ∀ (o : IntegerOperand) (site : Site),
    Agrees o.value ((o.tree stamp).evaluateAt host site env)
  | .digits d, site => by
    rw [IntegerOperand.tree, Expr.evaluateAt]
    exact ⟨d.number, rfl, rfl⟩
  | .negative o, site => by
    rw [IntegerOperand.tree, Expr.evaluateAt_ofOne rfl rfl]
    have hvalue : (IntegerOperand.negative o).value =
        o.value.bind fun n => .ok ((-n).bmod (2 ^ 64)) := rfl
    rw [hvalue]
    exact (agrees_integerOperand o (0 :: site)).bind fun a =>
      ⟨a.neg, Integer.val_wrap_int64 _, rfl⟩
  | .group e, site => by
    rw [IntegerOperand.tree, Expr.evaluateAt_ofOne rfl rfl]
    have hvalue : (IntegerOperand.group e).value = e.value.bind fun n => .ok n := by
      rw [IntegerOperand.value]
      cases e.value <;> rfl
    rw [hvalue]
    exact (agrees_integerFormula e (0 :: site)).bind fun a => ⟨a, rfl, rfl⟩

theorem agrees_integerFormula : ∀ (e : IntegerFormula) (site : Site),
    Agrees e.value ((e.tree stamp).evaluateAt host site env)
  | .operand o, site => agrees_integerOperand o site
  | .binary e op o, site => by
    rw [IntegerFormula.tree, Expr.evaluateAt_ofTwo rfl op.native_operation, IntegerFormula.value]
    refine (agrees_integerFormula e (0 :: site)).bind fun a => ?_
    exact (agrees_integerOperand o (1 :: site)).bind fun b => agrees_operate op a b

end

end Trees

/-- A source of integer arithmetic parses, and evaluates in every environment to what the arithmetic of
64 bits gives, operators taken from left to right, or to the error of the first division that fails. -/
theorem evaluate_integerSource (stamp : Nat) (e : IntegerFormula) :
    ∃ tree : Expr V, Expr.parse (.withBuiltins stamp) e.text = .ok tree ∧
      ∀ (host : Host V) (env : Env V), Agrees e.value (tree.evaluate host env) := by
  refine ⟨e.tree stamp, parse_of_isText rfl (isText_integerFormula stamp e), ?_⟩
  intro host env
  exact agrees_integerFormula stamp e []

/-- `1 + 2 * 3` is nine. -/
example :
    let one : Digits := ⟨"1", by decide, List.all_eq_true.mp rfl, by decide⟩
    let two : Digits := ⟨"2", by decide, List.all_eq_true.mp rfl, by decide⟩
    let three : Digits := ⟨"3", by decide, List.all_eq_true.mp rfl, by decide⟩
    (IntegerFormula.binary (.binary (.operand (.digits one)) .add (.digits two))
      .multiply (.digits three)).value = .ok 9 := by
  decide +kernel

end ExprLang
