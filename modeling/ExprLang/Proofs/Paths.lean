import ExprLang.Proofs.BuiltinCalls
import ExprLang.Proofs.Documents
import ExprLang.Proofs.MapBuilding

/-!
# Paths into a document

The fields of an object become the names of an environment, an object within it becomes a map, and an
array becomes a list. So a path through a document is an expression: the first key is a name, every later
key a property, and every position a call of `indexOf`. Names, properties and items are found in three
different ways, and yet the expression evaluates to the value of what stands in the document at the end of
the path. It fails at the first step that has nowhere to go, with an error that names the step.

An object is given as a table of documents, so its fields have different names and ascend.

Main statement: `evaluate_path`.
-/

namespace ExprLang

variable {V : Vocabulary}

/-! ## Paths -/

namespace Json

/-- One step into a document. -/
inductive Step where
  | key (name : String) (ne_empty : name ≠ "")
  | position (i : Integer .int64)

def child? : Json → Step → Option Json
  | object fields, .key name _ => fields.lookup name
  | array items, .position i => if 0 ≤ i.val then items[i.val.toNat]? else none
  | _, _ => none

/-- What stands behind all the steps. -/
def at? (j : Json) (steps : List Step) : Option Json := steps.foldlM child? j

/-- A path begins with a key. -/
structure Path where
  first : String
  ne_empty : first ≠ ""
  rest : List Step

def Path.steps (p : Path) : List Step := .key p.first p.ne_empty :: p.rest

/-- The expression that takes one step more. -/
def Step.expr (stamp : Nat) (e : Expr V) : Step → Expr V
  | key name _ => .field e name
  | position i => .call (Builtin.indexOf.toFunction stamp) [e, .literal (.int64 i)] 0

def Path.expr (stamp : Nat) (p : Path) : Expr V := p.rest.foldl (Step.expr stamp) (.lookup p.first)

/-! ## Missing steps -/

/-- The type of the value that a document becomes. -/
def typeName : Json → String
  | null => "nil"
  | bool _ => "bool"
  | int n => if IntKind.int64.Holds n then "int64" else "uint64"
  | float _ => "float64"
  | string _ => "string"
  | array _ => "list"
  | object _ => "map"

/-- Why `indexOf` finds nothing at a position. -/
def positionError (i : Integer .int64) : Json → String
  | array items =>
    "indexOf: index " ++ i.text ++ " out of range for list of length " ++ toString items.length
  | object _ =>
    "indexOf could not find map entry with key " ++ i.text ++ " of type " ++ IntKind.int64.name
  | j => "indexOf: expected list or map, not " ++ j.typeName

/-- The error of a step, behind the first one, that a document does not have. -/
def Step.missing (j : Json) : Step → EvalError
  | key name _ => .missingProperty name j.typeName
  | position i => .call "indexOf" (.failed (j.positionError i))

theorem typeName_toValue (j : Json) : (j.toValue : Value V).typeName = j.typeName := by
  cases j with
  | int n =>
    rw [toValue, intValue, typeName]
    split <;> rfl
  | _ => rfl

/-! ## Taking a step -/

/-- The document behind a step, or the error of the step. -/
def step (j : Json) (s : Step) : Except EvalError Json :=
  match j.child? s with
  | some child => .ok child
  | none => .error (s.missing j)

theorem at?_cons (j : Json) (s : Step) (steps : List Step) :
    j.at? (s :: steps) = (j.child? s).bind fun child => child.at? steps :=
  List.foldlM_cons

theorem foldlM_step_eq_ok_iff {j target : Json} {steps : List Step} :
    steps.foldlM step j = .ok target ↔ j.at? steps = some target := by
  induction steps generalizing j with
  | nil => simp [at?, pure, Except.pure]
  | cons s steps ih =>
    rw [List.foldlM_cons, at?_cons, step]
    cases j.child? s with
    | none => simp [bind, Except.bind]
    | some child => exact ih

/-- All steps in front of one are there, and that one is missing. -/
def Misses (j : Json) (steps : List Step) (err : EvalError) : Prop :=
  ∃ before s after reached, steps = before ++ s :: after ∧ j.at? before = some reached ∧
    reached.child? s = none ∧ err = s.missing reached

theorem not_misses_nil (j : Json) (err : EvalError) : ¬ j.Misses [] err := by
  rintro ⟨before, s, after, _, hsplit, -⟩
  simp at hsplit

theorem misses_cons_iff {j : Json} {s : Step} {steps : List Step} {err : EvalError} :
    j.Misses (s :: steps) err ↔ (j.child? s = none ∧ err = s.missing j) ∨
      ∃ child, j.child? s = some child ∧ child.Misses steps err := by
  constructor
  · rintro ⟨before, s', after, reached, hsplit, hreached, hmissing⟩
    rcases List.cons_eq_append_iff.mp hsplit with ⟨rfl, hafter⟩ | ⟨before, rfl, hrest⟩
    · cases hafter
      cases hreached
      exact .inl hmissing
    · rw [at?_cons, Option.bind_eq_some_iff] at hreached
      obtain ⟨child, hchild, hreached⟩ := hreached
      exact .inr ⟨child, hchild, before, s', after, reached, hrest, hreached, hmissing⟩
  · rintro (hmissing | ⟨child, hchild, before, s', after, reached, rfl, hreached, hmissing⟩)
    · exact ⟨[], s, steps, j, rfl, rfl, hmissing⟩
    · refine ⟨s :: before, s', after, reached, rfl, ?_, hmissing⟩
      rw [at?_cons, hchild]
      exact hreached

theorem foldlM_step_eq_error_iff {j : Json} {steps : List Step} {err : EvalError} :
    steps.foldlM step j = .error err ↔ j.Misses steps err := by
  induction steps generalizing j with
  | nil => exact iff_of_false nofun (not_misses_nil j err)
  | cons s steps ih =>
    rw [List.foldlM_cons, misses_cons_iff, step]
    cases j.child? s with
    | none => simp [bind, Except.bind, eq_comm]
    | some child => simp [bind, Except.bind, ih]

/-! ## Lookups -/

theorem find?_toEntries (fields : List (String × Json)) (name : String) :
    Entry.find? (toEntries fields : List (Entry V)) (.string name) =
      (fields.lookup name).map toValue := by
  induction fields with
  | nil => rfl
  | cons field rest ih =>
    obtain ⟨m, j⟩ := field
    rw [toEntries, toEntry, Entry.find?_string_cons, Entries.lookup_cons, ih]
    split <;> rfl

theorem find?_toEntries_int64 (fields : List (String × Json)) (i : Integer .int64) :
    Entry.find? (toEntries fields : List (Entry V)) (.int64 i) = none := by
  induction fields with
  | nil => rfl
  | cons field rest ih =>
    rw [toEntries, toEntry, Entry.find?_cons, ih]
    rfl

theorem field?_toValue (host : Host V) (j : Json) {name : String} (hname : name ≠ "") :
    (j.toValue : Value V).field? host name = (j.child? (.key name hname)).map toValue := by
  cases j with
  | object fields => exact find?_toEntries fields name
  | int n =>
    rw [toValue, intValue]
    split <;> rfl
  | _ => rfl

theorem property_toValue (host : Host V) (j : Json) {name : String} (hname : name ≠ "") :
    (j.toValue : Value V).property host name = (j.step (.key name hname)).map toValue := by
  rw [Value.property, if_neg hname, field?_toValue host j hname, typeName_toValue, step]
  cases j.child? (.key name hname) <;> rfl

theorem itemAt_toValues (items : List Json) (i : Integer .int64) :
    (Collections.itemAt (toValues items) (.int64 i) : Except String (Value V)) =
      ((array items).child? (.position i)).elim (.error ((array items).positionError i))
        fun j => .ok j.toValue := by
  simp only [toValues_eq_map, Value.int64, Collections.itemAt, child?, List.length_map,
    List.getElem?_map]
  by_cases hi : 0 ≤ i.val
  · rw [if_pos hi, if_pos hi]
    cases items[i.val.toNat]? <;> rfl
  · rw [if_neg hi, if_neg hi]
    rfl

theorem indexOf_toValue (j : Json) (i : Integer .int64) :
    (Collections.indexOf j.toValue (.int64 i) : Except String (Value V)) =
      (j.child? (.position i)).elim (.error (j.positionError i)) fun j => .ok j.toValue := by
  cases j with
  | object fields =>
    rw [toValue, Collections.indexOf, find?_toEntries_int64]
    rfl
  | array items => exact itemAt_toValues items i
  | int n =>
    have herror : (int n).positionError i =
        "indexOf: expected list or map, not " ++ (intValue n : Value V).typeName := by
      have htype : (intValue n : Value V).typeName = (int n).typeName := typeName_toValue (int n)
      rw [htype]
      rfl
    show Collections.indexOf (intValue n) (.int64 i) = .error ((int n).positionError i)
    rw [herror, intValue]
    split <;> rfl
  | _ => rfl

/-! ## Evaluation -/

section Evaluation

variable {host : Host V} {env : Env V} (stamp : Nat)

theorem evaluateAt_step {e : Expr V} {x : Except EvalError Json}
    (he : ∀ site, e.evaluateAt host site env = x.map toValue) (s : Step) (site : Site) :
    (s.expr stamp e).evaluateAt host site env = (x.bind fun j => j.step s).map toValue := by
  cases s with
  | key name hname =>
    rw [Step.expr, Expr.evaluateAt_field, he]
    cases x with
    | error err => rfl
    | ok j => exact property_toValue host j hname
  | position i =>
    rw [Step.expr, Expr.evaluateAt_ofTwo (g := Collections.indexOf) rfl rfl, he]
    cases x with
    | error err => rfl
    | ok j =>
      show (Collections.indexOf j.toValue (.int64 i)).mapError _ = (j.step (.position i)).map toValue
      rw [indexOf_toValue, step]
      cases j.child? (.position i) <;> rfl

/-- The steps are taken one after the other, from what the expression in front of them evaluates to. -/
theorem evaluateAt_steps {e : Expr V} {x : Except EvalError Json}
    (he : ∀ site, e.evaluateAt host site env = x.map toValue) (steps : List Step) (site : Site) :
    (steps.foldl (Step.expr stamp) e).evaluateAt host site env =
      (x.bind fun j => steps.foldlM step j).map toValue := by
  induction steps generalizing e x with
  | nil =>
    rw [List.foldl_nil, he]
    cases x <;> rfl
  | cons s steps ih =>
    rw [List.foldl_cons, ih (evaluateAt_step stamp he s)]
    cases x with
    | error err => rfl
    | ok j =>
      show ((j.step s).bind _).map toValue = ((s :: steps).foldlM step j).map toValue
      rw [List.foldlM_cons]
      rfl

end Evaluation

end Json

/-! ## The environment of an object -/

theorem Table.entries_ofList {β : Type} (pairs : List (String × β)) :
    (Table.ofList pairs).entries = Entries.insertAll [] pairs := by
  have hfold : ∀ t : Table β, (pairs.foldl (fun t p => t.insert p.1 p.2) t).entries =
      Entries.insertAll t.entries pairs := by
    induction pairs with
    | nil => exact fun _ => rfl
    | cons p rest ih => exact fun t => ih (t.insert p.1 p.2)
  exact hfold Table.empty

namespace Json

/-- The names of an object, bound to the values of its fields. -/
def bindings (t : Table Json) : Env V := .ofList (t.entries.map fun (name, j) => (name, j.toValue))

theorem entries_bindings (t : Table Json) :
    (bindings t : Env V).entries = t.entries.map fun (name, j) => (name, j.toValue) := by
  have hascending : Entries.Ascending
      (t.entries.map fun (name, j) => (name, (j.toValue : Value V))) := by
    rw [Entries.ascending_iff_names, List.map_map]
    exact Entries.ascending_iff_names.mp t.ascending
  rw [bindings, Table.entries_ofList, Entries.insertAll_nil hascending]

theorem toValue_bindings (t : Table Json) :
    (bindings t : Env V).toValue = (object t.entries).toValue := by
  rw [Env.toValue, entries_bindings, List.map_map, toValue, toEntries_eq_map]
  refine congrArg Value.map (List.map_congr_left ?_)
  rintro ⟨name, j⟩ -
  rfl

theorem find?_bindings (t : Table Json) (name : String) :
    (bindings t : Env V).find? name = (t.find? name).map toValue := by
  rw [Table.find?, entries_bindings, Table.find?]
  induction t.entries with
  | nil => rfl
  | cons field rest ih =>
    obtain ⟨m, j⟩ := field
    rw [List.map_cons, Entries.lookup_cons, Entries.lookup_cons, ih]
    split <;> rfl

/-- What stands behind the first key, or the error of a name without a value. -/
def start (t : Table Json) (name : String) : Except EvalError Json :=
  match t.find? name with
  | some j => .ok j
  | none => .error (.missingValue name)

theorem value_bindings (t : Table Json) {name : String} (hname : name ≠ "") :
    (bindings t : Env V).value name = (start t name).map toValue := by
  rw [Env.value, find?_bindings, start, if_neg hname]
  cases t.find? name <;> rfl

theorem child?_object (t : Table Json) {name : String} (hname : name ≠ "") :
    (object t.entries).child? (.key name hname) = t.find? name := rfl

/-! ## Paths as expressions -/

theorem evaluate_path_eq (host : Host V) (stamp : Nat) (t : Table Json) (p : Path) :
    (p.expr stamp).evaluate host (bindings t) =
      ((start t p.first).bind fun j => p.rest.foldlM step j).map toValue := by
  refine evaluateAt_steps stamp (fun site => ?_) p.rest []
  rw [Expr.evaluateAt, value_bindings t p.ne_empty]

/-- The paths of an object, as expressions over an environment. -/
structure ReadsPaths (host : Host V) (stamp : Nat) (t : Table Json) (env : Env V) : Prop where
  whole : env.toValue = (object t.entries).toValue
  found : ∀ (p : Path) (v : Value V), (p.expr stamp).evaluate host env = .ok v ↔
    ∃ j, (object t.entries).at? p.steps = some j ∧ v = j.toValue
  missing : ∀ (p : Path) (err : EvalError), (p.expr stamp).evaluate host env = .error err ↔
    (t.find? p.first = none ∧ err = .missingValue p.first) ∨
      ∃ j, t.find? p.first = some j ∧ j.Misses p.rest err

theorem readsPaths_bindings (host : Host V) (stamp : Nat) (t : Table Json) :
    ReadsPaths host stamp t (bindings t) where
  whole := toValue_bindings t
  found p v := by
    rw [evaluate_path_eq, Path.steps, at?_cons, child?_object, start]
    cases t.find? p.first with
    | none => simp [Except.bind, Except.map]
    | some j =>
      simp only [Except.bind, Option.bind_some, ← foldlM_step_eq_ok_iff]
      cases p.rest.foldlM step j <;> simp [Except.map, eq_comm]
  missing p err := by
    rw [evaluate_path_eq, start]
    cases t.find? p.first with
    | none => simp [Except.bind, Except.map, eq_comm]
    | some j =>
      simp only [Except.bind, Option.some.injEq, reduceCtorEq, false_and, false_or, exists_eq_left',
        ← foldlM_step_eq_error_iff]
      cases p.rest.foldlM step j <;> simp [Except.map]

theorem toEnv_object (t : Table Json) : (object t.entries).toEnv = .ok (bindings t : Env V) := rfl

theorem toEnv_eq_error_iff {j : Json} {err : JsonError} :
    (j.toEnv : Except JsonError (Env V)) = .error err ↔
      (∀ fields, j ≠ object fields) ∧ err = .notAnObject j.kind := by
  cases j <;> simp [toEnv, eq_comm]

end Json

/-- A document that is an object becomes an environment that reads it: a path evaluates to the value of
what stands at its end, or fails at its first missing step. No other document becomes an environment. -/
theorem evaluate_path (host : Host V) (stamp : Nat) :
    (∀ t : Table Json, ∃ env : Env V,
      (Json.object t.entries).toEnv = .ok env ∧ Json.ReadsPaths host stamp t env) ∧
    ∀ (j : Json) (err : JsonError), (j.toEnv : Except JsonError (Env V)) = .error err ↔
      (∀ fields, j ≠ .object fields) ∧ err = .notAnObject j.kind := by
  refine ⟨fun t => ?_, fun j err => Json.toEnv_eq_error_iff⟩
  exact ⟨Json.bindings t, Json.toEnv_object t, Json.readsPaths_bindings host stamp t⟩

/-- A position counts from zero, so there is none below it. -/
example :
    let env : Env Vocabulary.empty :=
      Json.bindings (.ofList [("a", .array [.null, .object [("b", .int 7)]])])
    let value (rest : List Json.Step) :=
      (Json.Path.expr 0 ⟨"a", by decide, rest⟩).evaluate Host.empty env
    value [.position (.wrap _ 1), .key "b" (by decide)] = .ok (.int64 (.wrap _ 7)) ∧
      value [.position (.wrap _ (-1))] =
        .error (.call "indexOf" (.failed "indexOf: index -1 out of range for list of length 2")) :=
  ⟨rfl, rfl⟩

end ExprLang
