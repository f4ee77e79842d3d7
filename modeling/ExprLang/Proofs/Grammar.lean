import ExprLang.Expr.OfTokens

/-!
# The grammar of expressions

Which tokens are an expression, and of which tree, said as a grammar and without a reader. The grammar
knows what a token says but not where it stands, so it is over words.

* An expression is an operand, or an expression, a binary operator and an operand: operators fold to
  the left.
* An operand is a prefix operator with its operand, or a chain: a primary with suffixes behind it.
* Whatever calls a function names one that the registry holds: a call, an operator, a group or an
  indexing.
-/

namespace ExprLang

/-! ## The functions of operators -/

namespace Operator

/-- Prefix operators and what they call. -/
def unaries : List (String × String) := [("!", "not"), ("-", "negate")]

/-- Binary operators and what they call. -/
def binaries : List (String × String) :=
  [("+", "addOrConcat"), ("-", "subtract"), ("*", "multiply"), ("/", "divide"), ("^", "pow"),
    ("%", "mod"), ("==", "equals"), ("!=", "notEquals"), (">", "greaterThan"),
    (">=", "greaterThanEqual"), ("<", "lessThan"), ("<=", "lessThanEqual"), ("&&", "and"),
    ("||", "or")]

theorem unaryFunction?_eq_some_iff {operator name : String} :
    unaryFunction? operator = some name ↔ (operator, name) ∈ unaries := by
  constructor
  · intro h
    unfold unaryFunction? at h
    split at h
    all_goals cases h
    all_goals decide
  · intro h
    have hall : ∀ p ∈ unaries, unaryFunction? p.1 = some p.2 := by decide
    exact hall _ h

theorem binaryFunction?_eq_some_iff {operator name : String} :
    binaryFunction? operator = some name ↔ (operator, name) ∈ binaries := by
  constructor
  · intro h
    unfold binaryFunction? at h
    split at h
    all_goals cases h
    all_goals decide
  · intro h
    have hall : ∀ p ∈ binaries, binaryFunction? p.1 = some p.2 := by decide
    exact hall _ h

/-- Parentheses around an expression and brackets behind one call functions, too. -/
theorem bracketFunctions : groupFunction = "nil" ∧ indexFunction = "indexOf" :=
  ⟨rfl, rfl⟩

end Operator

/-! ## Words -/

/-- What a token says, wherever it stands. -/
structure Word where
  kind : TokenKind
  text : String
deriving DecidableEq, Repr

def Token.word (t : Token) : Word := ⟨t.kind, t.text⟩

def Scan.words (s : Scan) : List Word := s.marks.map Token.word

/-! ## The grammar -/

namespace Grammar

variable {V : Vocabulary}

/-- The number that digits stand for. -/
def numeral (digits : String) : Nat := Nat.ofDigitChars 10 digits.toList 0

/-- A word that is an operand by itself. The literal of an integer must fit into 64 bits. -/
inductive IsLiteral : Word → Expr V → Prop where
  | integer {text : String} {n : Integer .int64} :
      n.val = numeral text → IsLiteral ⟨.integer, text⟩ (.literal (.int64 n))
  | float {text : String} :
      IsLiteral ⟨.float, text⟩ (.literal (.float64 (.ofDecimal (.ofText text.toList))))
  | bool {text : String} : IsLiteral ⟨.bool, text⟩ (.literal (.bool (text = "true")))
  | string {text : String} : IsLiteral ⟨.string, text⟩ (.literal (.string text))
  | allValues {text : String} : IsLiteral ⟨.allValues, text⟩ (.lookup "")

/-- The index of a result behind a call; the first result if there is none. -/
inductive IsIndex : List Word → Nat → Prop where
  | absent : IsIndex [] 0
  | present {left digits right : String} :
      numeral digits < 2 ^ 64 →
      IsIndex [⟨.leftResultIndex, left⟩, ⟨.integer, digits⟩, ⟨.rightResultIndex, right⟩]
        (numeral digits)

mutual

inductive IsExpr (r : Registry V) : List Word → Expr V → Prop where
  | operand {ws : List Word} {e : Expr V} : IsOperand r ws e → IsExpr r ws e
  | binary {ws ws' : List Word} {operator name : String} {f : Function V} {a b : Expr V} :
      IsExpr r ws a → Operator.binaryFunction? operator = some name → r.find? name = some f →
      IsOperand r ws' b → IsExpr r (ws ++ ⟨.binaryOperator, operator⟩ :: ws') (.call f [a, b] 0)

inductive IsOperand (r : Registry V) : List Word → Expr V → Prop where
  | unary {kind : TokenKind} {ws : List Word} {operator name : String} {f : Function V}
      {e : Expr V} :
      kind = .unaryOperator ∨ kind = .binaryOperator →
      Operator.unaryFunction? operator = some name → r.find? name = some f →
      IsOperand r ws e → IsOperand r (⟨kind, operator⟩ :: ws) (.call f [e] 0)
  | chain {ws : List Word} {e : Expr V} : IsChain r ws e → IsOperand r ws e

/-- A primary, then suffixes. -/
inductive IsChain (r : Registry V) : List Word → Expr V → Prop where
  | literal {w : Word} {e : Expr V} : IsLiteral w e → IsChain r [w] e
  | group {left right : String} {ws : List Word} {f : Function V} {e : Expr V} :
      r.find? Operator.groupFunction = some f → IsExpr r ws e →
      IsChain r (⟨.leftParenthesis, left⟩ :: (ws ++ [⟨.rightParenthesis, right⟩]))
        (.call f [e] 0)
  | lookup {name : String} : IsChain r [⟨.identifier, name⟩] (.lookup name)
  | call {name : String} {ws ws' : List Word} {f : Function V} {arguments : List (Expr V)}
      {index : Nat} :
      r.find? name = some f → IsArguments r ws arguments → IsIndex ws' index →
      IsChain r (⟨.identifier, name⟩ :: (ws ++ ws')) (.call f arguments index)
  | field {point name : String} {ws : List Word} {parent : Expr V} :
      IsChain r ws parent →
      IsChain r (ws ++ [⟨.separator, point⟩, ⟨.identifier, name⟩]) (.field parent name)
  | method {point name : String} {ws ws' ws'' : List Word} {parent : Expr V}
      {arguments : List (Expr V)} {index : Nat} :
      IsChain r ws parent → IsArguments r ws' arguments → IsIndex ws'' index →
      IsChain r (ws ++ ⟨.separator, point⟩ :: ⟨.identifier, name⟩ :: (ws' ++ ws''))
        (.method parent name arguments index)
  | index {left right : String} {ws ws' : List Word} {f : Function V} {target e : Expr V} :
      IsChain r ws target → r.find? Operator.indexFunction = some f → IsExpr r ws' e →
      IsChain r (ws ++ ⟨.leftIndex, left⟩ :: (ws' ++ [⟨.rightIndex, right⟩]))
        (.call f [target, e] 0)

inductive IsArguments (r : Registry V) : List Word → List (Expr V) → Prop where
  | none {left right : String} :
      IsArguments r [⟨.leftParenthesis, left⟩, ⟨.rightParenthesis, right⟩] []
  | some {left right : String} {ws : List Word} {arguments : List (Expr V)} :
      IsList r ws arguments →
      IsArguments r (⟨.leftParenthesis, left⟩ :: (ws ++ [⟨.rightParenthesis, right⟩])) arguments

inductive IsList (r : Registry V) : List Word → List (Expr V) → Prop where
  | one {ws : List Word} {e : Expr V} : IsExpr r ws e → IsList r ws [e]
  | more {comma : String} {ws ws' : List Word} {es : List (Expr V)} {e : Expr V} :
      IsList r ws es → IsExpr r ws' e →
      IsList r (ws ++ ⟨.delimiter, comma⟩ :: ws') (es ++ [e])

end

theorem IsList.cons {r : Registry V} {comma : String} {ws ws' : List Word} {es : List (Expr V)}
    {e : Expr V} (h : IsExpr r ws e) :
    IsList r ws' es → IsList r (ws ++ ⟨.delimiter, comma⟩ :: ws') (e :: es)
  | .one h' => .more (.one h) h'
  | .more hlist h' => by
    rw [← List.cons_append, ← List.append_assoc]
    exact .more (IsList.cons h hlist) h'

end Grammar

end ExprLang
