import ExprLang.Proofs.BuiltinCalls
import ExprLang.Proofs.Marshalling
import ExprLang.Registry
import Mathlib

/-!
# Selecting elements

The built-in function `select` is a filter by what the predicate evaluates to. It evaluates the predicate
once for each element, in an environment of its own making (`Scope`): the references under their numbered
names, and then the element under the name that the caller chose. The first element for which there is
no truth value ends the selection with an error.

An environment may be passed on from element to element, each of which binds the name anew: nothing of an
element stays behind in it for the next one.

Main statement: `select_filters`.
-/

namespace ExprLang

variable {V : Vocabulary}

/-! ## Bindings that are replaced -/

theorem Entries.insert_insert {β : Type} (name : String) (b c : β) (entries : List (String × β)) :
    insert name c (insert name b entries) = insert name c entries := by
  induction entries with
  | nil => simp [insert]
  | cons head rest ih =>
    obtain ⟨m, d⟩ := head
    simp only [insert]
    by_cases hlt : name < m
    · simp [hlt, insert]
    · by_cases heq : name = m
      · subst heq
        simp [insert]
      · simp [hlt, heq, insert, ih]

theorem Table.insert_insert {β : Type} (t : Table β) (name : String) (b c : β) :
    (t.insert name b).insert name c = t.insert name c := by
  unfold insert
  congr 1
  exact Entries.insert_insert name b c t.entries

namespace Collections

/-! ## Filters that can fail -/

section

variable {α : Type} {holds : α → Except String Bool}

theorem keep_eq_filter {elements : List α} {p : α → Bool}
    (h : ∀ x ∈ elements, holds x = .ok (p x)) : keep holds elements = .ok (elements.filter p) := by
  induction elements with
  | nil => rfl
  | cons x rest ih =>
    rw [List.forall_mem_cons] at h
    rw [keep, h.1, ih h.2]
    cases hp : p x with
    | true => rw [List.filter_cons_of_pos hp]; rfl
    | false => rw [List.filter_cons_of_neg (by simp [hp])]; rfl

theorem keep_eq_error {before after : List α} {x : α} {reason : String}
    (hbefore : ∀ y ∈ before, ∃ b, holds y = .ok b) (hx : holds x = .error reason) :
    keep holds (before ++ x :: after) = .error reason := by
  induction before with
  | nil =>
    rw [List.nil_append, keep, hx]
  | cons y before ih =>
    rw [List.forall_mem_cons] at hbefore
    obtain ⟨⟨b, hb⟩, hbefore⟩ := hbefore
    rw [List.cons_append, keep, hb, ih hbefore]
    rfl

theorem keep_of_keep {elements kept : List α} (h : keep holds elements = .ok kept) :
    keep holds kept = .ok kept := by
  induction elements generalizing kept with
  | nil =>
    cases h
    rfl
  | cons x rest ih =>
    rw [keep] at h
    cases hx : holds x with
    | error reason =>
      rw [hx] at h
      cases h
    | ok b =>
      rw [hx] at h
      cases hrest : keep holds rest with
      | error reason =>
        rw [hrest] at h
        cases h
      | ok others =>
        rw [hrest] at h
        have hothers := ih hrest
        cases b with
        | true =>
          cases h
          show keep holds (x :: others) = .ok (x :: others)
          rw [keep, hx, hothers]
          rfl
        | false =>
          cases h
          exact hothers

theorem exists_of_keep_map {elements : List α} {wrap : List α → Value V} {selected : Value V}
    (h : (keep holds elements).map wrap = .ok selected) :
    ∃ kept, selected = wrap kept ∧ keep holds kept = .ok kept := by
  cases hkeep : keep holds elements with
  | error reason =>
    rw [hkeep] at h
    cases h
  | ok kept =>
    rw [hkeep] at h
    cases h
    exact ⟨kept, rfl, keep_of_keep hkeep⟩

end

/-- The elements that hold in an environment that is passed on: each one binds the name in what the one
before it has left. -/
def keepIn {α : Type} (holds : Env V → Except String Bool) (name : String) (element : α → Value V)
    (env : Env V) : List α → Except String (List α)
  | [] => .ok []
  | x :: rest =>
    let env := env.insert name (element x)
    match holds env with
    | .error reason => .error reason
    | .ok b =>
      (keepIn holds name element env rest).map fun kept => if b then x :: kept else kept

/-- Selecting with one environment, made for the references and then passed on. -/
def selectIn (collection : Value V) (name : String) (predicate : Deferred V)
    (values : List (Value V)) : Except String (Value V) :=
  match collection with
  | .list items => (keepIn (verdict predicate) name id (references values) items).map .list
  | .map entries =>
    (keepIn (verdict predicate) name Entry.value (references values) entries).map .map
  | v => .error ("cannot select from " ++ Text.quote v.typeName)

theorem keepIn_eq_keep {α : Type} (holds : Env V → Except String Bool) (name : String)
    (element : α → Value V) (env : Env V) (elements : List α) :
    keepIn holds name element env elements =
      keep (fun x => holds (env.insert name (element x))) elements := by
  induction elements generalizing env with
  | nil => rfl
  | cons x rest ih =>
    have hrest : keepIn holds name element (env.insert name (element x)) rest =
        keep (fun y => holds (env.insert name (element y))) rest := by
      rw [ih]
      congr 1
      funext y
      rw [Table.insert_insert]
    cases hx : holds (env.insert name (element x)) with
    | error reason => simp only [keepIn, keep, hx]
    | ok b => simp only [keepIn, keep, hx, hrest]

theorem selectIn_eq_select (collection : Value V) (name : String) (predicate : Deferred V)
    (values : List (Value V)) :
    selectIn collection name predicate values = select collection name predicate values := by
  cases collection with
  | list items =>
    rw [selectIn, keepIn_eq_keep]
    rfl
  | map entries =>
    rw [selectIn, keepIn_eq_keep]
    rfl
  | _ => rfl

/-! ## The environment of a predicate -/

theorem referenceName_injective : Function.Injective referenceName := by
  intro i j h
  exact Nat.repr_inj.mp ((String.append_right_inj "ref").mp h)

theorem references_concat (values : List (Value V)) (v : Value V) :
    references (values ++ [v]) = (references values).insert (referenceName values.length) v := by
  unfold references Table.ofList
  rw [List.zipIdx_append, List.map_append, List.foldl_append, Nat.zero_add]
  rfl

theorem find?_references {values : List (Value V)} {i : Nat} {v : Value V}
    (h : values[i]? = some v) : (references values).find? (referenceName i) = some v := by
  induction values using List.reverseRecOn with
  | nil => cases h
  | append_singleton values w ih =>
    rw [references_concat, Table.find?_insert]
    by_cases hi : i = values.length
    · subst hi
      rw [List.getElem?_concat_length] at h
      rw [if_pos rfl]
      exact h
    · have hlt : i < values.length := by
        have hlength := (List.getElem?_eq_some_iff.mp h).1
        rw [List.length_append, List.length_singleton] at hlength
        omega
      rw [List.getElem?_append_left hlt] at h
      rw [if_neg fun hname => hi (referenceName_injective hname)]
      exact ih h

theorem find?_references_eq_none {values : List (Value V)} {other : String}
    (h : ∀ i < values.length, other ≠ referenceName i) : (references values).find? other = none := by
  induction values using List.reverseRecOn with
  | nil => rfl
  | append_singleton values w ih =>
    rw [List.length_append, List.length_singleton] at h
    rw [references_concat, Table.find?_insert, if_neg (h values.length (Nat.lt_succ_self _))]
    exact ih fun i hi => h i (Nat.lt_succ_of_lt hi)

/-- The environment in which a predicate is evaluated for an element `v`: the element under `name`, in
place of a reference of that name, the references under theirs, and no other names. -/
structure Scope (values : List (Value V)) (name : String) (v : Value V) (env : Env V) : Prop where
  element : env.find? name = some v
  reference : ∀ i w, values[i]? = some w → referenceName i ≠ name →
    env.find? (referenceName i) = some w
  others : ∀ other, other ≠ name → (∀ i < values.length, other ≠ referenceName i) →
    env.find? other = none

theorem scope_insert (values : List (Value V)) (name : String) (v : Value V) :
    Scope values name v ((references values).insert name v) where
  element := by rw [Table.find?_insert, if_pos rfl]
  reference i w hw hne := by rw [Table.find?_insert, if_neg hne, find?_references hw]
  others other hne hall := by rw [Table.find?_insert, if_neg hne, find?_references_eq_none hall]

/-! ## Verdicts -/

/-- Why an answer of a predicate is no truth value. -/
inductive Refuses : Except EvalError (Value V) → String → Prop where
  | failed (e : EvalError) : Refuses (.error e) ("error selecting: " ++ e.message)
  | mistyped (v : Value V) : (∀ b, v ≠ .bool b) →
      Refuses (.ok v)
        ("selector expression must return bool (true/false) not " ++ Text.quote v.typeName)

theorem verdict_of_bool {predicate : Deferred V} {env : Env V} {b : Bool}
    (h : predicate.evaluate env = .ok (.bool b)) : verdict predicate env = .ok b := by
  unfold verdict
  rw [h]

theorem verdict_of_refuses {predicate : Deferred V} {env : Env V} {reason : String}
    (h : Refuses (predicate.evaluate env) reason) : verdict predicate env = .error reason := by
  unfold verdict
  cases h' : predicate.evaluate env with
  | error e =>
    rw [h'] at h
    cases h
    rfl
  | ok v =>
    rw [h'] at h
    cases h with
    | mistyped _ hne =>
      cases v with
      | bool b => exact absurd rfl (hne b)
      | _ => rfl

/-! ## The built-in function -/

/-- What a selection makes of the answers that a predicate gives for the elements of a collection. -/
structure Filters {α : Type} (answer : α → Except EvalError (Value V)) (wrap : List α → Value V)
    (elements : List α) (outcome : Except InvokeError (List (Value V))) : Prop where
  /-- If there is a truth value for each element, those with `true` are kept, in order. -/
  kept : ∀ holds : α → Bool, (∀ x ∈ elements, answer x = .ok (.bool (holds x))) →
    outcome = .ok [wrap (elements.filter holds)]
  /-- The first element without a truth value is reported. -/
  reported : ∀ before x after reason, elements = before ++ x :: after →
    (∀ y ∈ before, ∃ b, answer y = .ok (.bool b)) → Refuses (answer x) reason →
    outcome = .error (.failed reason)

theorem filters_keep {α : Type} (predicate : Deferred V) (env : α → Env V)
    (wrap : List α → Value V) (elements : List α) :
    Filters (fun x => predicate.evaluate (env x)) wrap elements
      (Outcome.ofExcept ((keep (fun x => verdict predicate (env x)) elements).map wrap)).toExcept where
  kept holds h := by
    have hverdicts : ∀ x ∈ elements, verdict predicate (env x) = .ok (holds x) := by
      intro x hx
      exact verdict_of_bool (h x hx)
    rw [keep_eq_filter hverdicts]
    rfl
  reported before x after reason hsplit hbefore hx := by
    have hverdicts : ∀ y ∈ before, ∃ b, verdict predicate (env y) = .ok b := by
      intro y hy
      obtain ⟨b, hb⟩ := hbefore y hy
      exact ⟨b, verdict_of_bool hb⟩
    have hrefused : verdict predicate (env x) = .error reason :=
      verdict_of_refuses hx
    rw [hsplit, keep_eq_error hverdicts hrefused]
    rfl

theorem select_of_select {collection selected : Value V} {name : String} {predicate : Deferred V}
    {values : List (Value V)} (h : select collection name predicate values = .ok selected) :
    select selected name predicate values = .ok selected := by
  cases collection with
  | list items =>
    obtain ⟨kept, rfl, hkept⟩ := exists_of_keep_map h
    simp only [select]
    rw [hkept]
    rfl
  | map entries =>
    obtain ⟨kept, rfl, hkept⟩ := exists_of_keep_map h
    simp only [select]
    rw [hkept]
    rfl
  | _ => cases h

end Collections

namespace Builtin

open Collections

/-- What `select` answers, called with a collection, a name, a predicate and references. -/
def invokeSelect (host : Host V) (stamp : Nat) (site : Site) (collection : Value V) (name : String)
    (predicate : Expr V) (references : List (Value V)) : Except InvokeError (List (Value V)) :=
  (select.toFunction stamp).invokeAt host site
    (collection :: .string name :: .expression predicate :: references)

theorem invokeSelect_eq (host : Host V) (stamp : Nat) (site : Site) (collection : Value V)
    (name : String) (predicate : Expr V) (references : List (Value V)) :
    invokeSelect host stamp site collection name predicate references =
      (Outcome.ofExcept (Collections.select collection name
        ⟨predicate, predicate.evaluateAt host (2 :: site)⟩ references)).toExcept := by
  unfold invokeSelect Function.invokeAt
  have hcall := call_select (V := V) site (collection.toArgument host (0 :: site))
    (.value (.string name)) ⟨predicate, predicate.evaluateAt host (2 :: site)⟩
    (Argument.ofValues host site 3 references)
  rw [Value.toValue_toArgument, Argument.map_toValue_ofValues] at hcall
  exact hcall

end Builtin

open Collections Builtin

/-- Selecting from a list is a filter of its items, and selecting from a map one of its entries by their
values. The predicate is evaluated for an element in the scope of that element. Selecting a second time
changes nothing. It makes no difference whether the environment is made anew for each element or passed
on. -/
theorem select_filters (host : Host V) (stamp : Nat) (site : Site) (name : String)
    (predicate : Expr V) (references : List (Value V)) :
    ∃ env : Value V → Env V, (∀ v, Scope references name v (env v)) ∧
      (∀ items, Filters (fun v => predicate.evaluateAt host (2 :: site) (env v)) .list items
        (invokeSelect host stamp site (.list items) name predicate references)) ∧
      (∀ entries, Filters (fun e => predicate.evaluateAt host (2 :: site) (env e.value)) .map entries
        (invokeSelect host stamp site (.map entries) name predicate references)) ∧
      (∀ collection selected,
        invokeSelect host stamp site collection name predicate references = .ok [selected] →
          invokeSelect host stamp site selected name predicate references = .ok [selected]) ∧
      ∀ collection, invokeSelect host stamp site collection name predicate references =
        (Outcome.ofExcept (selectIn collection name
          ⟨predicate, predicate.evaluateAt host (2 :: site)⟩ references)).toExcept := by
  refine ⟨fun v => (Collections.references references).insert name v,
    scope_insert references name, ?_, ?_, ?_, ?_⟩
  · intro items
    rw [invokeSelect_eq]
    exact filters_keep ⟨predicate, predicate.evaluateAt host (2 :: site)⟩ _ .list items
  · intro entries
    rw [invokeSelect_eq]
    exact filters_keep ⟨predicate, predicate.evaluateAt host (2 :: site)⟩
      (fun e => (Collections.references references).insert name e.value) .map entries
  · intro collection selected h
    rw [invokeSelect_eq] at h ⊢
    cases hselect : Collections.select collection name
        ⟨predicate, predicate.evaluateAt host (2 :: site)⟩ references with
    | error reason =>
      rw [hselect] at h
      cases h
    | ok v =>
      rw [hselect] at h
      cases h
      rw [select_of_select hselect]
      rfl
  · intro collection
    rw [selectIn_eq_select]
    exact invokeSelect_eq host stamp site collection name predicate references

end ExprLang
