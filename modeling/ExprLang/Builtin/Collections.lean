import ExprLang.Native
import ExprLang.Value.Render

/-! # Lists and maps

Making a list or a map asks all parts to have the type of the first. Selecting keeps the elements for
which a predicate holds, in order; the predicate sees nothing but the element, under a name of the
caller's choice, and the references, under numbered names.
-/

namespace ExprLang.Collections

variable {V : Vocabulary}

def slice (values : List (Value V)) : Except String (Value V) :=
  match values with
  | [] => .error "error creating slice: no values passed"
  | first :: _ =>
    match values.find? (·.typeName ≠ first.typeName) with
    | some v =>
      .error ("error creating slice: cannot put " ++ v.typeName ++ " in a slice of " ++
        first.typeName)
    | none => .ok (.list values)

/-- Puts an entry last, or its value into the place of an entry with an equal key. -/
def putEntry (e : Entry V) : List (Entry V) → List (Entry V)
  | [] => [e]
  | x :: rest =>
    if x.key == e.key then .mk x.key e.value :: rest else x :: putEntry e rest

/-- Puts entries one after the other, while they have these types. -/
def putEntries (keyType valueType : String) (made : List (Entry V)) :
    List (Entry V) → Except String (List (Entry V))
  | [] => .ok made
  | e :: rest =>
    if e.key.typeName = keyType ∧ e.value.typeName = valueType then
      putEntries keyType valueType (putEntry e made) rest
    else
      .error ("error creating map: cannot put " ++ e.key.typeName ++ ":" ++ e.value.typeName ++
        " in a map of " ++ keyType ++ ":" ++ valueType)

def map (entries : List (Entry V)) : Except String (Value V) :=
  match entries with
  | [] => .error "error creating map: no entries passed"
  | first :: _ => (putEntries first.key.typeName first.value.typeName [] entries).map .map

/-- The name under which a predicate sees the reference at a position. -/
def referenceName (i : Nat) : String := "ref" ++ toString i

def references (values : List (Value V)) : Env V :=
  .ofList (values.zipIdx.map fun (v, i) => (referenceName i, v))

def verdict (predicate : Deferred V) (env : Env V) : Except String Bool :=
  match predicate.evaluate env with
  | .ok (.bool b) => .ok b
  | .ok v =>
    .error ("selector expression must return bool (true/false) not " ++ Text.quote v.typeName)
  | .error e => .error ("error selecting: " ++ e.message)

/-- The elements that hold, unless the test of one fails. -/
def keep {α : Type} (holds : α → Except String Bool) : List α → Except String (List α)
  | [] => .ok []
  | x :: rest =>
    match holds x with
    | .error reason => .error reason
    | .ok b => (keep holds rest).map fun kept => if b then x :: kept else kept

def select (collection : Value V) (name : String) (predicate : Deferred V)
    (values : List (Value V)) : Except String (Value V) :=
  let holds (v : Value V) := verdict predicate ((references values).insert name v)
  match collection with
  | .list items => (keep holds items).map .list
  | .map entries => (keep (fun e => holds e.value) entries).map .map
  | v => .error ("cannot select from " ++ Text.quote v.typeName)

/-- The element of a list that has a position, which must be a 64-bit integer. -/
def itemAt (items : List (Value V)) : Value V → Except String (Value V)
  | .int .int64 i =>
    match if 0 ≤ i.val then items[i.val.toNat]? else none with
    | some v => .ok v
    | none =>
      .error ("indexOf: index " ++ i.text ++ " out of range for list of length " ++
        toString items.length)
  | v => .error ("indexOf: cannot access list using a " ++ v.typeName)

def indexOf (collection index : Value V) : Except String (Value V) :=
  match collection with
  | .list items => itemAt items index
  | .map entries =>
    match Entry.find? entries index with
    | some v => .ok v
    | none =>
      .error ("indexOf could not find map entry with key " ++ index.text ++ " of type " ++
        index.typeName)
  | v => .error ("indexOf: expected list or map, not " ++ v.typeName)

def count : Value V → Except String (Value V)
  | .list items => .ok (.int64 (.wrap _ items.length))
  | .map entries => .ok (.int64 (.wrap _ entries.length))
  | v => .error ("cannot count type " ++ v.typeName)

end ExprLang.Collections
