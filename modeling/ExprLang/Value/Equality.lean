import ExprLang.Value

/-! # Equality of values

Values are equal if they are of one kind and equal in content. Floats compare as numbers, so a value
that holds something that is not a number differs from itself. Objects and functions compare by
identity. Maps are equal if their entries are, in order.
-/

namespace ExprLang

variable {V : Vocabulary}

mutual

def Value.equal : Value V → Value V → Bool
  | .nil, .nil => true
  | .bool a, .bool b => a == b
  | .int k a, .int l b => k == l && a.val == b.val
  | .float32 a, .float32 b => a.equal b
  | .float64 a, .float64 b => a.equal b
  | .string a, .string b => a == b
  | .list a, .list b => Value.equalLists a b
  | .map a, .map b => Entry.equalLists a b
  | .entry a, .entry b => Entry.equal a b
  | .object a, .object b => a == b
  | .expression a, .expression b => Expr.equal a b
  | _, _ => false
termination_by structural x => x

def Value.equalLists : List (Value V) → List (Value V) → Bool
  | [], [] => true
  | a :: as, b :: bs => Value.equal a b && Value.equalLists as bs
  | _, _ => false
termination_by structural x => x

def Entry.equal : Entry V → Entry V → Bool
  | .mk key value, .mk key' value' => Value.equal key key' && Value.equal value value'
termination_by structural x => x

def Entry.equalLists : List (Entry V) → List (Entry V) → Bool
  | [], [] => true
  | a :: as, b :: bs => Entry.equal a b && Entry.equalLists as bs
  | _, _ => false
termination_by structural x => x

def Expr.equal : Expr V → Expr V → Bool
  | .literal a, .literal b => Value.equal a b
  | .lookup a, .lookup b => a == b
  | .field p a, .field q b => Expr.equal p q && a == b
  | .call f as i, .call g bs j => f == g && Expr.equalLists as bs && i == j
  | .method p a as i, .method q b bs j =>
    Expr.equal p q && a == b && Expr.equalLists as bs && i == j
  | _, _ => false
termination_by structural x => x

def Expr.equalLists : List (Expr V) → List (Expr V) → Bool
  | [], [] => true
  | a :: as, b :: bs => Expr.equal a b && Expr.equalLists as bs
  | _, _ => false
termination_by structural x => x

end

instance : BEq (Value V) := ⟨Value.equal⟩

instance : BEq (Expr V) := ⟨Expr.equal⟩

/-- The value of the first entry whose key equals `key`. -/
def Entry.find? (entries : List (Entry V)) (key : Value V) : Option (Value V) :=
  (entries.find? (·.key == key)).map Entry.value

end ExprLang
