import ExprLang.Value

/-!
# Induction over values and expressions

Values hold values and expressions, and expressions hold values. `Hereditary` is the induction over both
together; `Value.induct` and `Expr.induct` are its cases for a property of one of them alone.
-/

namespace ExprLang

variable {V : Vocabulary}

/-- Two properties, of values and of the expressions in them, that pass from all parts to the whole. A
map has the keys and values of its entries for parts. -/
structure Hereditary (P : Value V → Prop) (Q : Expr V → Prop) : Prop where
  nil : P .nil
  bool : ∀ b, P (.bool b)
  int : ∀ k n, P (.int k n)
  float32 : ∀ x, P (.float32 x)
  float64 : ∀ x, P (.float64 x)
  string : ∀ s, P (.string s)
  list : ∀ items, (∀ v ∈ items, P v) → P (.list items)
  map : ∀ entries, (∀ e ∈ entries, P e.key ∧ P e.value) → P (.map entries)
  entry : ∀ e, P e.key → P e.value → P (.entry e)
  object : ∀ o, P (.object o)
  expression : ∀ e, Q e → P (.expression e)
  literal : ∀ v, P v → Q (.literal v)
  lookup : ∀ name, Q (.lookup name)
  field : ∀ parent name, Q parent → Q (.field parent name)
  call : ∀ f arguments index, (∀ e ∈ arguments, Q e) → Q (.call f arguments index)
  method : ∀ parent name arguments index, Q parent → (∀ e ∈ arguments, Q e) →
    Q (.method parent name arguments index)

section

variable {P : Value V → Prop} {Q : Expr V → Prop}

theorem Entry.sizeOf_lt (e : Entry V) : sizeOf e.key < sizeOf e ∧ sizeOf e.value < sizeOf e := by
  obtain ⟨key, value⟩ := e
  simp only [Entry.mk.sizeOf_spec, Entry.key, Entry.value]
  omega

-- The facts about sizes are for the termination check, which does not look into entries.
mutual

theorem Hereditary.value (h : Hereditary P Q) : ∀ v : Value V, P v
  | .nil => h.nil
  | .bool b => h.bool b
  | .int k n => h.int k n
  | .float32 x => h.float32 x
  | .float64 x => h.float64 x
  | .string s => h.string s
  | .list items => h.list items fun v hv =>
    have := List.sizeOf_lt_of_mem hv
    h.value v
  | .map entries => h.map entries fun e he =>
    have := List.sizeOf_lt_of_mem he
    have := e.sizeOf_lt
    ⟨h.value e.key, h.value e.value⟩
  | .entry e =>
    have := e.sizeOf_lt
    h.entry e (h.value e.key) (h.value e.value)
  | .object o => h.object o
  | .expression e => h.expression e (h.expr e)
termination_by v => sizeOf v

theorem Hereditary.expr (h : Hereditary P Q) : ∀ e : Expr V, Q e
  | .literal v => h.literal v (h.value v)
  | .lookup name => h.lookup name
  | .field parent name => h.field parent name (h.expr parent)
  | .call f arguments index => h.call f arguments index fun e _ => h.expr e
  | .method parent name arguments index =>
    h.method parent name arguments index (h.expr parent) fun e _ => h.expr e
termination_by e => sizeOf e

end

end

/-- Induction over values, with a hypothesis for each item, each value of a map, and for key and value
of an entry. -/
@[elab_as_elim]
theorem Value.induct {P : Value V → Prop} (nil : P .nil) (bool : ∀ b, P (.bool b))
    (int : ∀ k n, P (.int k n)) (float32 : ∀ x, P (.float32 x)) (float64 : ∀ x, P (.float64 x))
    (string : ∀ s, P (.string s))
    (list : ∀ items, (∀ v ∈ items, P v) → P (.list items))
    (map : ∀ entries, (∀ e ∈ entries, P e.value) → P (.map entries))
    (entry : ∀ e, P e.key → P e.value → P (.entry e)) (object : ∀ o, P (.object o))
    (expression : ∀ e, P (.expression e)) (v : Value V) : P v := by
  have hereditary : Hereditary P fun _ => True :=
    { nil, bool, int, float32, float64, string, list, entry, object
      map := fun entries ih => map entries fun e he => (ih e he).2
      expression := fun e _ => expression e
      literal := fun _ _ => trivial
      lookup := fun _ => trivial
      field := fun _ _ _ => trivial
      call := fun _ _ _ _ => trivial
      method := fun _ _ _ _ _ _ => trivial }
  exact hereditary.value v

@[elab_as_elim]
theorem Expr.induct {P : Expr V → Prop} (literal : ∀ v, P (.literal v))
    (lookup : ∀ name, P (.lookup name))
    (field : ∀ parent name, P parent → P (.field parent name))
    (call : ∀ f arguments index, (∀ e ∈ arguments, P e) → P (.call f arguments index))
    (method : ∀ parent name arguments index, P parent → (∀ e ∈ arguments, P e) →
      P (.method parent name arguments index)) (e : Expr V) : P e := by
  have hereditary : Hereditary (fun _ => True) P :=
    { lookup, field, call, method
      literal := fun v _ => literal v
      nil := trivial
      bool := fun _ => trivial
      int := fun _ _ => trivial
      float32 := fun _ => trivial
      float64 := fun _ => trivial
      string := fun _ => trivial
      list := fun _ _ => trivial
      map := fun _ _ => trivial
      entry := fun _ _ _ => trivial
      object := fun _ => trivial
      expression := fun _ _ => trivial }
  exact hereditary.expr e

end ExprLang
