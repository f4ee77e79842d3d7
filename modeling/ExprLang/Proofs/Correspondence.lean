import ExprLang.Proofs.Faults
import ExprLang.Proofs.Induction

/-!
# Readers that keep step

Two readers get the same words, wherever these stand, and each has a registry of its own. What the first
one finds under a name the second one finds too, `φ f` in place of `f`. Then they keep step: what the
second one builds is what the first one builds with `φ f` in place of `f`, and it refuses what the first
one refuses, at the place `ω offset` in place of `offset`. They part in one case only, where the first
one misses a function that the second one has.

Main statements: `mirrors_ofTokens`, `ofTokens_moved`.
-/

namespace ExprLang

variable {V : Vocabulary}

/-! ## Other functions -/

namespace Expr

mutual

/-- The expression with `φ f` called in place of each function `f`. -/
def withFunctions (φ : Function V → Function V) : Expr V → Expr V
  | .literal v => .literal v
  | .lookup name => .lookup name
  | .field parent name => .field (withFunctions φ parent) name
  | .call f arguments index => .call (φ f) (withFunctionsEach φ arguments) index
  | .method parent name arguments index =>
    .method (withFunctions φ parent) name (withFunctionsEach φ arguments) index
termination_by structural x => x

def withFunctionsEach (φ : Function V → Function V) : List (Expr V) → List (Expr V)
  | [] => []
  | e :: rest => withFunctions φ e :: withFunctionsEach φ rest
termination_by structural x => x

end

theorem withFunctionsEach_eq_map (φ : Function V → Function V) (es : List (Expr V)) :
    withFunctionsEach φ es = es.map (withFunctions φ) := by
  induction es with
  | nil => rfl
  | cons e es ih => rw [withFunctionsEach, ih, List.map_cons]

theorem withFunctions_id (e : Expr V) : e.withFunctions id = e := by
  have heach (es : List (Expr V)) (h : ∀ e ∈ es, e.withFunctions id = e) :
      withFunctionsEach id es = es := by
    rw [withFunctionsEach_eq_map]
    exact (List.map_congr_left h).trans (List.map_id es)
  induction e using induct with
  | literal | lookup => rfl
  | field parent name ih => rw [withFunctions, ih]
  | call f arguments index ih =>
    rw [withFunctions, heach arguments ih]
    rfl
  | method parent name arguments index ihparent ih =>
    rw [withFunctions, ihparent, heach arguments ih]

end Expr

/-! ## Other places -/

section Moved

variable (ω : Nat → Nat)

def Token.moved (t : Token) : Token := ⟨t.kind, ω t.start, t.text⟩

def LexError.moved : LexError → LexError
  | .unrecognizedCharacter c offset => .unrecognizedCharacter c (ω offset)
  | .unterminatedString offset => .unterminatedString (ω offset)
  | .unreadable reason => .unreadable reason

def Stop.moved : Stop → Stop
  | .endOfSource offset => .endOfSource (ω offset)
  | .failure offset e => .failure (ω offset) (e.moved ω)

def ParseError.moved : ParseError → ParseError
  | .emptyExpression => .emptyExpression
  | .unclosedParenthesis name offset => .unclosedParenthesis name (ω offset)
  | .unknownFunction name offset => .unknownFunction name (ω offset)
  | .unexpectedToken kind text offset => .unexpectedToken kind text (ω offset)
  | .unrecognizedOperator operator offset => .unrecognizedOperator operator (ω offset)
  | .invalidLiteral text offset => .invalidLiteral text (ω offset)
  | .lex e => .lex (e.moved ω)

end Moved

theorem Token.moved_id (t : Token) : t.moved id = t := rfl

theorem LexError.moved_id (e : LexError) : e.moved id = e := by
  cases e <;> rfl

theorem Stop.moved_id (stop : Stop) : stop.moved id = stop := by
  cases stop with
  | endOfSource offset => rfl
  | failure offset e => rw [Stop.moved, LexError.moved_id, id]

theorem ParseError.moved_id (err : ParseError) : err.moved id = err := by
  cases err with
  | lex e => rw [ParseError.moved, LexError.moved_id]
  | _ => rfl

namespace Reader

/-! ## The mirror of a state -/

section Mirror

variable (φ : Function V → Function V) (ω : Nat → Nat)

def Callee.withFunctions : Callee V → Callee V
  | function f => function (φ f)
  | method parent name => method (parent.withFunctions φ) name

def Pending.withFunctions (p : Pending V) : Pending V :=
  ⟨p.left.map fun (f, e) => (φ f, e.withFunctions φ), p.prefixes.map φ⟩

def Bracket.withFunctions : Bracket V → Bracket V
  | group f => group (φ f)
  | index f target => index (φ f) (target.withFunctions φ)
  | call callee arguments => call (callee.withFunctions φ) (arguments.map (·.withFunctions φ))

def Open.mirror (o : Open V) : Open V :=
  ⟨o.name, ω o.offset, o.bracket.withFunctions φ, o.outer.withFunctions φ⟩

def Position.mirror : Position V → Position V
  | start => start
  | firstArgument callee => firstArgument (callee.withFunctions φ)
  | point parent => point (parent.withFunctions φ)
  | name parent text offset => name (parent.map (·.withFunctions φ)) text (ω offset)
  | called callee arguments =>
    called (callee.withFunctions φ) (arguments.map (·.withFunctions φ))
  | resultIndex callee arguments =>
    resultIndex (callee.withFunctions φ) (arguments.map (·.withFunctions φ))
  | closeResultIndex callee arguments index =>
    closeResultIndex (callee.withFunctions φ) (arguments.map (·.withFunctions φ)) index
  | operand e => operand (e.withFunctions φ)

def State.mirror (s : State V) : State V :=
  ⟨s.position.mirror φ ω, s.pending.withFunctions φ, s.stack.map (·.mirror φ ω)⟩

end Mirror

/-- The outcome of the second reader goes with that of the first one, as `g` says. -/
inductive Mirrors (r r' : Registry V) (ω : Nat → Nat) {α β : Type} (g : α → β) :
    Except ParseError α → Except ParseError β → Prop where
  | ok (a : α) : Mirrors r r' ω g (.ok a) (.ok (g a))
  | error (err : ParseError) : Mirrors r r' ω g (.error err) (.error (err.moved ω))
  | missing {name : String} {offset : Nat} (y : Except ParseError β) :
      r.find? name = none → r'.find? name ≠ none →
      Mirrors r r' ω g (.error (.unknownFunction name offset)) y

variable {r r' : Registry V} {φ : Function V → Function V} {ω : Nat → Nat}

section Outcomes

variable {α β γ δ : Type} {g : α → β} {g' : γ → δ} {x : Except ParseError α}
  {y : Except ParseError β} {k : α → Except ParseError γ} {k' : β → Except ParseError δ}

theorem Mirrors.bind (h : Mirrors r r' ω g x y) (hk : ∀ a, Mirrors r r' ω g' (k a) (k' (g a))) :
    Mirrors r r' ω g' (x >>= k) (y >>= k') := by
  cases h with
  | ok a => exact hk a
  | error err => exact .error err
  | missing _ hnone hsome => exact .missing _ hnone hsome

theorem Mirrors.of_ok {a : α} (h : Mirrors r r' ω g (.ok a) y) : y = .ok (g a) := by
  cases h
  rfl

theorem Mirrors.of_error {err : ParseError} (h : Mirrors r r' ω g (.error err) y)
    (hknown : ∀ name offset, err ≠ .unknownFunction name offset) : y = .error (err.moved ω) := by
  cases h with
  | error => rfl
  | missing => exact absurd rfl (hknown _ _)

theorem Mirrors.ite {c : Prop} [Decidable c] {x' : Except ParseError α} {y' : Except ParseError β}
    (h : Mirrors r r' ω g x y) (h' : Mirrors r r' ω g x' y') :
    Mirrors r r' ω g (if c then x else x') (if c then y else y') := by
  by_cases hc : c
  · rw [if_pos hc, if_pos hc]
    exact h
  · rw [if_neg hc, if_neg hc]
    exact h'

/-- Where no function is missing the second outcome is told by the first one. -/
theorem Mirrors.eq (h : Mirrors r r' ω g x y)
    (hnames : ∀ name, r.find? name = none → r'.find? name = none) :
    y = (x.map g).mapError (·.moved ω) := by
  cases h with
  | ok a => rfl
  | error err => rfl
  | missing _ hnone hsome => exact absurd (hnames _ hnone) hsome

end Outcomes

/-! ## Operands in a mirror -/

theorem Callee.apply_withFunctions (callee : Callee V) (arguments : List (Expr V)) (index : Nat) :
    (callee.withFunctions φ).apply (arguments.map (·.withFunctions φ)) index =
      (callee.apply arguments index).withFunctions φ := by
  rw [← Expr.withFunctionsEach_eq_map]
  cases callee <;> rfl

theorem Pending.apply_withFunctions (p : Pending V) (e : Expr V) :
    (p.withFunctions φ).apply (e.withFunctions φ) = (p.apply e).withFunctions φ := by
  have hprefixes (fs : List (Function V)) (e : Expr V) :
      (fs.map φ).foldl (fun e f => .call f [e] 0) (e.withFunctions φ) =
        (fs.foldl (fun e f => .call f [e] 0) e).withFunctions φ := by
    induction fs generalizing e with
    | nil => rfl
    | cons f fs ih => exact ih (.call f [e] 0)
  obtain ⟨left, prefixes⟩ := p
  simp only [Pending.apply, Pending.withFunctions, hprefixes]
  cases left <;> rfl

theorem property_withFunctions (parent : Option (Expr V)) (name : String) :
    property (parent.map (·.withFunctions φ)) name = (property parent name).withFunctions φ := by
  cases parent <;> rfl

theorem Position.operand?_mirror (position : Position V) :
    (position.mirror φ ω).operand? = position.operand?.map (·.withFunctions φ) := by
  cases position with
  | name parent text offset => exact congrArg some (property_withFunctions parent text)
  | called callee arguments => exact congrArg some (callee.apply_withFunctions arguments 0)
  | _ => rfl

/-! ## One step -/

variable (hφ : ∀ name f, r.find? name = some f → r'.find? name = some (φ f))

include hφ in
theorem mirrors_resolve (name : String) (offset : Nat) :
    Mirrors r r' ω φ (resolve r name offset) (resolve r' name (ω offset)) := by
  unfold resolve
  cases hf : r.find? name with
  | some f =>
    rw [hφ name f hf]
    exact .ok f
  | none =>
    cases hf' : r'.find? name with
    | none => exact .error _
    | some f' => exact .missing _ hf (by rw [hf']; exact Option.some_ne_none f')

theorem mirrors_literal? (r r' : Registry V) (φ : Function V → Function V) (ω : Nat → Nat)
    (t : Token) :
    Mirrors r r' ω (Option.map (Expr.withFunctions φ)) (State.literal? t)
      (State.literal? (t.moved ω)) := by
  obtain ⟨kind, start, text⟩ := t
  cases kind with
  | integer =>
    -- Both tokens have one text, hence one number.
    have hmoved : (Token.moved ω ⟨.integer, start, text⟩).number =
        Token.number ⟨.integer, start, text⟩ := rfl
    rw [State.literal?_integer rfl rfl, State.literal?_integer rfl rfl, hmoved]
    cases Integer.ofInt? .int64 (Token.number ⟨.integer, start, text⟩) with
    | some n => exact .ok _
    | none => exact .error _
  | float | bool | string | allValues => exact .ok (some _)
  | _ => exact .ok none

include hφ in
theorem mirrors_beginOperand (s : State V) (t : Token) :
    Mirrors r r' ω (State.mirror φ ω) (s.beginOperand r t)
      ((s.mirror φ ω).beginOperand r' (t.moved ω)) := by
  have hliteral := mirrors_literal? r r' φ ω t
  obtain ⟨kind, start, text⟩ := t
  cases kind with
  | unaryOperator | binaryOperator =>
    simp only [State.beginOperand, Token.moved]
    split
    · exact (mirrors_resolve hφ _ _).bind fun f => .ok _
    · exact .error _
  | leftParenthesis => exact (mirrors_resolve hφ _ _).bind fun f => .ok _
  | identifier => exact .ok _
  | _ =>
    refine hliteral.bind fun literal => ?_
    cases literal with
    | some e => exact .ok _
    | none => exact .error _

theorem mirrors_close (r r' : Registry V) (φ : Function V → Function V) (ω : Nat → Nat)
    (s : State V) (e : Expr V) (t : Token) :
    Mirrors r r' ω (State.mirror φ ω) (s.close e t)
      ((s.mirror φ ω).close (e.withFunctions φ) (t.moved ω)) := by
  obtain ⟨position, pending, stack⟩ := s
  obtain ⟨kind, start, text⟩ := t
  have happly := pending.apply_withFunctions (φ := φ) e
  cases stack with
  | nil => exact .error _
  | cons o stack =>
    obtain ⟨name, offset, bracket, outer⟩ := o
    simp only [State.close, State.mirror, List.map_cons, happly]
    cases bracket with
    | group f =>
      cases kind with
      | rightParenthesis => exact .ok _
      | _ => exact .error _
    | index f target =>
      cases kind with
      | rightIndex => exact .ok _
      | _ => exact .error _
    | call callee arguments =>
      have happend : arguments.map (·.withFunctions φ) ++ [(pending.apply e).withFunctions φ] =
          (arguments ++ [pending.apply e]).map (·.withFunctions φ) := by
        rw [List.map_append, List.map_singleton]
      cases kind with
      | rightParenthesis | delimiter =>
        simp only [Open.mirror, Bracket.withFunctions, Token.moved, happend]
        exact .ok _
      | _ => exact .error _

include hφ in
theorem mirrors_continueOperand (s : State V) (e : Expr V) (t : Token) :
    Mirrors r r' ω (State.mirror φ ω) (s.continueOperand r e t)
      ((s.mirror φ ω).continueOperand r' (e.withFunctions φ) (t.moved ω)) := by
  have hclose := mirrors_close r r' φ ω s e t
  have happly : (s.mirror φ ω).pending.apply (e.withFunctions φ) = (s.pending.apply e).withFunctions φ :=
    s.pending.apply_withFunctions e
  obtain ⟨kind, start, text⟩ := t
  cases kind with
  | separator => exact .ok _
  | leftIndex => exact (mirrors_resolve hφ _ _).bind fun f => .ok _
  | binaryOperator =>
    simp only [State.continueOperand, Token.moved, happly]
    split
    · exact (mirrors_resolve hφ _ _).bind fun f => .ok _
    · exact .error _
  | _ => exact hclose

include hφ in
theorem mirrors_beginCall (s : State V) (parent : Option (Expr V)) (name : String) (offset : Nat) :
    Mirrors r r' ω (State.mirror φ ω) (s.beginCall r parent name offset)
      ((s.mirror φ ω).beginCall r' (parent.map (·.withFunctions φ)) name (ω offset)) := by
  cases parent with
  | some parent => exact .ok _
  | none =>
    have hcallee : Mirrors r r' ω (Callee.withFunctions φ) (Callee.function <$> resolve r name offset)
        (Callee.function <$> resolve r' name (ω offset)) :=
      (mirrors_resolve hφ name offset).bind fun f => .ok (Callee.function f)
    exact hcallee.bind fun callee => .ok _

include hφ in
theorem mirrors_step (s : State V) (t : Token) :
    Mirrors r r' ω (State.mirror φ ω) (s.step r t) ((s.mirror φ ω).step r' (t.moved ω)) := by
  have hbegin := mirrors_beginOperand (ω := ω) hφ s t
  obtain ⟨position, pending, stack⟩ := s
  cases position with
  | start => exact hbegin
  | firstArgument callee =>
    obtain ⟨kind, start, text⟩ := t
    cases kind with
    | rightParenthesis =>
      cases stack with
      | nil => exact hbegin
      | cons o stack => exact .ok _
    | _ => exact hbegin
  | point parent => exact .ite (.ok _) (.error _)
  | name parent name offset =>
    have hoperand := mirrors_continueOperand (ω := ω) hφ ⟨.name parent name offset, pending, stack⟩
      (property parent name) t
    rw [← property_withFunctions] at hoperand
    exact .ite (mirrors_beginCall hφ _ parent name offset) hoperand
  | called callee arguments =>
    have hoperand := mirrors_continueOperand (ω := ω) hφ ⟨.called callee arguments, pending, stack⟩
      (callee.apply arguments 0) t
    rw [← Callee.apply_withFunctions] at hoperand
    exact .ite (.ok _) hoperand
  | resultIndex callee arguments =>
    refine .ite ?_ (.error _)
    -- Both tokens have one text, hence one number.
    have hindex : (t.moved ω).resultIndex? = t.resultIndex? := rfl
    rw [hindex]
    cases t.resultIndex? with
    | some index => exact .ok _
    | none => exact .error _
  | closeResultIndex callee arguments index =>
    refine .ite ?_ (.error _)
    rw [Callee.apply_withFunctions]
    exact .ok _
  | operand e => exact mirrors_continueOperand hφ _ e t

/-! ## Readings -/

theorem State.run_cons (r : Registry V) (s : State V) (t : Token) (ts : List Token) :
    s.run r (t :: ts) = s.step r t >>= (·.run r ts) := by
  rw [State.run]
  cases s.step r t <;> rfl

include hφ in
theorem mirrors_run (s : State V) (ts : List Token) :
    Mirrors r r' ω (State.mirror φ ω) (s.run r ts)
      ((s.mirror φ ω).run r' (ts.map (·.moved ω))) := by
  induction ts generalizing s with
  | nil => exact .ok s
  | cons t ts ih =>
    rw [List.map_cons, State.run_cons, State.run_cons]
    exact (mirrors_step hφ s t).bind ih

theorem mirrors_finish (s : State V) (offset : Nat) :
    Mirrors r r' ω (Expr.withFunctions φ) (s.finish offset)
      ((s.mirror φ ω).finish (ω offset)) := by
  obtain ⟨position, pending, stack⟩ := s
  cases stack with
  | cons o stack => exact .error _
  | nil =>
    simp only [State.finish, State.mirror, List.map_nil, Position.operand?_mirror]
    cases position.operand? with
    | none => exact .error _
    | some e =>
      simp only [Option.map_some, Pending.apply_withFunctions]
      exact .ok _

include hφ in
theorem mirrors_ofTokens (tokens : List Token) (stop : Stop) :
    Mirrors r r' ω (Expr.withFunctions φ) (Expr.ofTokens r tokens stop)
      (Expr.ofTokens r' (tokens.map (·.moved ω)) (stop.moved ω)) := by
  refine (mirrors_run hφ .initial tokens).bind fun s => ?_
  cases stop with
  | failure offset e => exact .error _
  | endOfSource offset =>
    simp only [Stop.moved, List.isEmpty_map]
    exact .ite (.error _) (mirrors_finish s offset)

end Reader

/-- Tokens that stand elsewhere make the same expression, or the same error elsewhere. -/
theorem ofTokens_moved (r : Registry V) (tokens : List Token) (stop : Stop) (ω : Nat → Nat) :
    Expr.ofTokens r (tokens.map (·.moved ω)) (stop.moved ω) =
      (Expr.ofTokens r tokens stop).mapError (·.moved ω) := by
  have hmirrors := Reader.mirrors_ofTokens (r := r) (φ := id) (ω := ω) (fun _ _ h => h) tokens stop
  rw [hmirrors.eq fun _ h => h, funext Expr.withFunctions_id]
  cases Expr.ofTokens r tokens stop <;> rfl

end ExprLang
