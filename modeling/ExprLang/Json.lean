import ExprLang.Env
import ExprLang.Value.Render

/-! # JSON documents

A document becomes a value, and a value a document unless it holds something that JSON cannot show: an
object, an expression, a float that is not finite, or a map key that is neither text, truth nor number.

The fields of an object have different names and ascend by name. Where two keys of a map have the same
text, the later entry is the field.
-/

namespace ExprLang

inductive Json where
  | null
  | bool (b : Bool)
  | int (n : Int)
  | float (x : Binary .double)
  | string (s : String)
  | array (items : List Json)
  | object (fields : List (String × Json))

inductive JsonError where
  | notAnObject (kind : String)
  | unrepresentable (what : String)
deriving DecidableEq

def JsonError.message : JsonError → String
  | .notAnObject kind => "expected a JSON object, got " ++ kind
  | .unrepresentable what => what ++ " cannot be represented as JSON"

variable {V : Vocabulary}

namespace Json

def kind : Json → String
  | null => "null"
  | bool _ => "boolean"
  | int _ | float _ => "number"
  | string _ => "string"
  | array _ => "array"
  | object _ => "object"

/-- An object with these fields; the last of several fields of a name stays. -/
def ofFields (fields : List (String × Json)) : Json :=
  object (fields.foldl (fun fs (name, j) => Entries.insert name j fs) [])

def ofFloat (x : Binary .double) : Except JsonError Json :=
  if x.isFinite then .ok (float x) else .error (.unrepresentable ("float " ++ x.text))

/-- A whole number is a signed 64-bit integer if it fits, else an unsigned one. -/
def intValue (n : Int) : Value V :=
  if IntKind.int64.Holds n then .int .int64 (.wrap _ n) else .int .uint64 (.wrap _ n)

mutual

def toValue : Json → Value V
  | null => .nil
  | bool b => .bool b
  | int n => intValue n
  | float x => .float64 x
  | string s => .string s
  | array items => .list (toValues items)
  | object fields => .map (toEntries fields)
termination_by structural x => x

def toValues : List Json → List (Value V)
  | [] => []
  | j :: rest => toValue j :: toValues rest
termination_by structural x => x

def toEntries : List (String × Json) → List (Entry V)
  | [] => []
  | field :: rest => toEntry field :: toEntries rest
termination_by structural x => x

def toEntry : String × Json → Entry V
  | (name, j) => .mk (.string name) (toValue j)
termination_by structural x => x

end

def toEnv : Json → Except JsonError (Env V)
  | object fields => .ok (.ofList (fields.map fun (name, j) => (name, j.toValue)))
  | j => .error (.notAnObject j.kind)

end Json

def Value.toFieldName (v : Value V) : Except JsonError String :=
  match v with
  | .string s => .ok s
  | .bool _ => .ok v.text
  | _ =>
    if v.isNumber then .ok v.text
    else .error (.unrepresentable ("map key of type " ++ v.typeName))

mutual

def Value.toJson : Value V → Except JsonError Json
  | .nil => .ok .null
  | .bool b => .ok (.bool b)
  | .int _ n => .ok (.int n.val)
  | .float32 x => Json.ofFloat x.convert
  | .float64 x => Json.ofFloat x
  | .string s => .ok (.string s)
  | .list items =>
    match Value.toJsons items with
    | .ok items => .ok (.array items)
    | .error e => .error e
  | .map entries =>
    match Entry.toFields entries with
    | .ok fields => .ok (.ofFields fields)
    | .error e => .error e
  | .entry e => Entry.toJson e
  | .object o => .error (.unrepresentable ("object " ++ V.typeName o))
  | .expression e => .error (.unrepresentable ("expression " ++ e.render))
termination_by structural x => x

def Value.toJsons : List (Value V) → Except JsonError (List Json)
  | [] => .ok []
  | v :: rest =>
    match Value.toJson v with
    | .error e => .error e
    | .ok j =>
      match Value.toJsons rest with
      | .error e => .error e
      | .ok items => .ok (j :: items)
termination_by structural x => x

/-- An entry on its own is an object of key and value. -/
def Entry.toJson : Entry V → Except JsonError Json
  | .mk key value =>
    match Value.toJson key with
    | .error e => .error e
    | .ok k =>
      match Value.toJson value with
      | .error e => .error e
      | .ok v => .ok (.ofFields [("Key", k), ("Value", v)])
termination_by structural x => x

/-- An entry of a map is a field. -/
def Entry.toField : Entry V → Except JsonError (String × Json)
  | .mk key value =>
    match key.toFieldName with
    | .error e => .error e
    | .ok name =>
      match Value.toJson value with
      | .error e => .error e
      | .ok j => .ok (name, j)
termination_by structural x => x

def Entry.toFields : List (Entry V) → Except JsonError (List (String × Json))
  | [] => .ok []
  | e :: rest =>
    match Entry.toField e with
    | .error e => .error e
    | .ok field =>
      match Entry.toFields rest with
      | .error e => .error e
      | .ok fields => .ok (field :: fields)
termination_by structural x => x

end

end ExprLang
