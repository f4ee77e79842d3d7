import ExprLang.Proofs.BuiltinCalls

/-!
# What built-in functions do with expressions

A body that is handed an expression could look at its text. The built-in functions do not: the only one
that takes an expression at all evaluates it and does nothing else with it. So they cannot tell two
expressions of one meaning apart. Nor does any of them ask for the site of its call.

Main statements: `Builtin.isExtensional`, `Builtin.isSteady`.
-/

namespace ExprLang

variable {V : Vocabulary}

/-! ## Meaning -/

/-- The argument with nothing left of an expression but its meaning. -/
def Argument.meaning : Argument V → Argument V
  | value v => value v
  | deferred d => deferred ⟨.literal .nil, d.evaluate⟩

namespace Signature

/-- The argument at a position, with nothing but its meaning if it is handed over unevaluated. -/
def meaningAt (s : Signature) (i : Nat) (a : Argument V) : Argument V :=
  if s.kindAt i = some .expression then a.meaning else a

/-- The arguments from position `i` on, each with nothing but its meaning if it is handed over
unevaluated. -/
def meanings (s : Signature) (i : Nat) : List (Argument V) → List (Argument V)
  | [] => []
  | a :: rest => s.meaningAt i a :: s.meanings (i + 1) rest

/-- All arguments are evaluated. -/
def IsEager (s : Signature) : Prop := ∀ i, s.kindAt i ≠ some .expression

theorem meanings_of_forall {s : Signature} {i : Nat} (arguments : List (Argument V))
    (h : ∀ j, i ≤ j → s.kindAt j ≠ some .expression) : s.meanings i arguments = arguments := by
  induction arguments generalizing i with
  | nil => rfl
  | cons a rest ih =>
    have hfirst : s.meaningAt i a = a := if_neg (h i (Nat.le_refl i))
    have hrest : s.meanings (i + 1) rest = rest := ih fun j hj => h j (Nat.le_of_succ_le hj)
    rw [meanings, hfirst, hrest]

theorem isEager_iff {s : Signature} :
    s.IsEager ↔ .expression ∉ s.params ∧ s.variadic ≠ some .expression := by
  constructor
  · intro h
    constructor
    · intro hmem
      obtain ⟨i, hi⟩ := List.mem_iff_getElem?.mp hmem
      refine h i ?_
      simp [kindAt, hi]
    · intro hvariadic
      refine h s.params.length ?_
      simp [kindAt, hvariadic]
  · rintro ⟨hparams, hvariadic⟩ i hi
    unfold kindAt at hi
    cases hparam : s.params[i]? with
    | none =>
      rw [hparam] at hi
      exact hvariadic hi
    | some k =>
      rw [hparam] at hi
      cases hi
      exact hparams (List.mem_of_getElem? hparam)

end Signature

/-! ## Natives and methods -/

/-- The answer hangs on what expressions mean, and on nothing else about them. -/
def Native.IsExtensional (n : Native V) : Prop :=
  ∀ site arguments arguments',
    n.signature.meanings 0 arguments = n.signature.meanings 0 arguments' →
      n.call site arguments = n.call site arguments'

def Method.IsExtensional (m : Method V) : Prop :=
  ∀ receiver site arguments arguments',
    m.signature.meanings 0 arguments = m.signature.meanings 0 arguments' →
      m.call receiver site arguments = m.call receiver site arguments'

/-- The body does not ask for its site, so the answer is a function of the arguments. -/
def Native.IsSteady (n : Native V) : Prop := ∀ site site', n.run site = n.run site'

def Method.IsSteady (m : Method V) : Prop :=
  ∀ receiver run, m.bind receiver = some run → ∀ site site', run site = run site'

theorem Signature.IsEager.eq_of_meanings {s : Signature} (h : s.IsEager)
    {arguments arguments' : List (Argument V)}
    (hmeanings : s.meanings 0 arguments = s.meanings 0 arguments') : arguments = arguments' := by
  rwa [meanings_of_forall arguments fun j _ => h j,
    meanings_of_forall arguments' fun j _ => h j] at hmeanings

theorem Native.isExtensional_of_isEager {n : Native V} (h : n.signature.IsEager) :
    n.IsExtensional := by
  intro site arguments arguments' hmeanings
  rw [h.eq_of_meanings hmeanings]

theorem Method.isExtensional_of_isEager {m : Method V} (h : m.signature.IsEager) :
    m.IsExtensional := by
  intro receiver site arguments arguments' hmeanings
  rw [h.eq_of_meanings hmeanings]

theorem Native.IsSteady.call_eq {n : Native V} (h : n.IsSteady) (site site' : Site)
    (arguments : List (Argument V)) : n.call site arguments = n.call site' arguments := by
  unfold call
  rw [h site site']

theorem Method.IsSteady.call_eq {m : Method V} (h : m.IsSteady) (receiver : V.Object)
    (site site' : Site) (arguments : List (Argument V)) :
    m.call receiver site arguments = m.call receiver site' arguments := by
  unfold call
  cases hbind : m.bind receiver with
  | none => rfl
  | some run => simp only [h receiver run hbind site site']

/-! ## Built-in functions -/

namespace Builtin

theorem isSteady (b : Builtin) : (b.native (V := V)).IsSteady := by
  intro site site'
  cases b <;> rfl

theorem isEager_of_ne_select {b : Builtin} (h : b ≠ .select) :
    (b.native (V := V)).signature.IsEager := by
  rw [Signature.isEager_iff]
  cases b with
  | select => exact absurd rfl h
  | _ => simp [native, ofOne, ofTwo, Native.signature, signatureOf, Param.kind]

/-- Of the arguments of `select`, only the third is handed over unevaluated. -/
theorem meanings_select (a b c : Argument V) (rest : List (Argument V)) :
    (Builtin.select.native (V := V)).signature.meanings 0 (a :: b :: c :: rest) =
      a :: b :: c.meaning :: rest := by
  have hrest : (Builtin.select.native (V := V)).signature.meanings 3 rest = rest := by
    refine Signature.meanings_of_forall rest fun j hj => ?_
    obtain ⟨k, rfl⟩ := Nat.exists_eq_add_of_le' hj
    simp [native, Native.signature, signatureOf, Signature.kindAt, Param.kind]
  simp only [Signature.meanings]
  rw [hrest]
  rfl

theorem call_select_meaning (site : Site) (a b c : Argument V) (rest : List (Argument V)) :
    (Builtin.select.native (V := V)).call site (a :: b :: c.meaning :: rest) =
      (Builtin.select.native (V := V)).call site (a :: b :: c :: rest) := by
  cases c with
  | value v => rfl
  | deferred d =>
    -- The body asks the predicate for verdicts, which are made of what it evaluates to.
    rw [Argument.meaning, call_select, call_select]
    rfl

theorem isExtensional_select : (Builtin.select.native (V := V)).IsExtensional := by
  have hmeanings : ∀ (site : Site) (arguments : List (Argument V)),
      (Builtin.select.native (V := V)).call site arguments =
        (Builtin.select.native (V := V)).call site
          ((Builtin.select.native (V := V)).signature.meanings 0 arguments) := by
    intro site arguments
    match arguments with
    | [] => rfl
    | [a] => rfl
    | [a, b] => rfl
    | a :: b :: c :: rest => rw [meanings_select, call_select_meaning]
  intro site arguments arguments' h
  calc
    _ = _ := hmeanings site arguments
    _ = _ := by rw [h]
    _ = _ := (hmeanings site arguments').symm

theorem isExtensional (b : Builtin) : (b.native (V := V)).IsExtensional := by
  by_cases h : b = .select
  · rw [h]
    exact isExtensional_select
  · exact Native.isExtensional_of_isEager (isEager_of_ne_select h)

end Builtin

end ExprLang
