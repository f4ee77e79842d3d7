import ExprLang.Value

/-! # Copies

A copy is made part by part. What is known by its identity is shared and not copied: objects and
functions. An expression that is a value is shared too, where the copy of a tree makes every node of it
anew.
-/

namespace ExprLang

variable {V : Vocabulary}

mutual

def Value.copy : Value V → Value V
  | .list items => .list (Value.copyLists items)
  | .map entries => .map (Entry.copyLists entries)
  | .entry e => .entry (Entry.copy e)
  | v => v
termination_by structural x => x

def Value.copyLists : List (Value V) → List (Value V)
  | [] => []
  | v :: rest => Value.copy v :: Value.copyLists rest
termination_by structural x => x

def Entry.copy : Entry V → Entry V
  | .mk key value => .mk (Value.copy key) (Value.copy value)
termination_by structural x => x

def Entry.copyLists : List (Entry V) → List (Entry V)
  | [] => []
  | e :: rest => Entry.copy e :: Entry.copyLists rest
termination_by structural x => x

end

mutual

def Expr.copy : Expr V → Expr V
  | .literal v => .literal v.copy
  | .lookup name => .lookup name
  | .field parent name => .field (Expr.copy parent) name
  | .call f arguments index => .call f (Expr.copyLists arguments) index
  | .method parent name arguments index =>
    .method (Expr.copy parent) name (Expr.copyLists arguments) index
termination_by structural x => x

def Expr.copyLists : List (Expr V) → List (Expr V)
  | [] => []
  | e :: rest => Expr.copy e :: Expr.copyLists rest
termination_by structural x => x

end

end ExprLang
