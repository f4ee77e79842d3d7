import ExprLang.Text.Literal

/-!
# What string literals spell

`Spells quote body content` says what stands between two quotes and what it means, without saying how
it is read. Reading finds exactly the bodies that a quote follows, so the quote that closes a literal
is the first one that no backslash takes. What is written for a string is one of its spellings.
-/

namespace ExprLang.Text

/-- `body` holds no bare `quote`, and stands for `content`. -/
inductive Spells (quote : Char) : List Char → List Char → Prop where
  | nil : Spells quote [] []
  | plain {c : Char} {body content : List Char} :
      c ≠ quote → c ≠ '\\' → Spells quote body content → Spells quote (c :: body) (c :: content)
  | escaped {c : Char} {body content : List Char} :
      Spells quote body content → Spells quote ('\\' :: c :: body) (unescape c :: content)

variable {quote : Char}

/-! ## Reading -/

theorem readLiteral_quote (rest : List Char) :
    readLiteral quote (quote :: rest) = some ([], 1) := by
  rw [readLiteral.eq_def]
  simp

theorem readLiteral_plain {c : Char} (hc : c ≠ quote) (hslash : c ≠ '\\') (rest : List Char) :
    readLiteral quote (c :: rest) =
      (readLiteral quote rest).map fun (content, n) => (c :: content, n + 1) := by
  rw [readLiteral.eq_def]
  simp [hc, hslash]

theorem readLiteral_escaped (hquote : quote ≠ '\\') (c : Char) (rest : List Char) :
    readLiteral quote ('\\' :: c :: rest) =
      (readLiteral quote rest).map fun (content, n) => (unescape c :: content, n + 2) := by
  rw [readLiteral.eq_def]
  simp [hquote.symm]

theorem readLiteral_of_spells (hquote : quote ≠ '\\') {body content : List Char}
    (h : Spells quote body content) (rest : List Char) :
    readLiteral quote (body ++ quote :: rest) = some (content, body.length + 1) := by
  induction h with
  | nil => exact readLiteral_quote rest
  | plain hc hslash _ ih =>
    rw [List.cons_append, readLiteral_plain hc hslash, ih]
    rfl
  | escaped _ ih =>
    rw [List.cons_append, List.cons_append, readLiteral_escaped hquote, ih]
    rfl

theorem spells_of_readLiteral {cs content : List Char} {n : Nat}
    (h : readLiteral quote cs = some (content, n)) :
    ∃ body rest, cs = body ++ quote :: rest ∧ Spells quote body content ∧ n = body.length + 1 := by
  fun_induction readLiteral quote cs generalizing content n with
  | case1 => exact absurd h (by simp)
  | case2 rest =>
    obtain ⟨rfl, rfl⟩ : [] = content ∧ 1 = n := by simpa using h
    exact ⟨[], rest, rfl, .nil, rfl⟩
  | case3 => exact absurd h (by simp)
  | case4 c rest hc ih =>
    obtain ⟨⟨inner, m⟩, hread, hresult⟩ := Option.map_eq_some_iff.mp h
    cases hresult
    obtain ⟨body, after, rfl, hspells, rfl⟩ := ih hread
    exact ⟨'\\' :: c :: body, after, rfl, .escaped hspells, rfl⟩
  | case5 c rest hc hslash ih =>
    obtain ⟨⟨inner, m⟩, hread, hresult⟩ := Option.map_eq_some_iff.mp h
    cases hresult
    obtain ⟨body, after, rfl, hspells, rfl⟩ := ih hread
    exact ⟨c :: body, after, rfl, .plain hc hslash hspells, rfl⟩

theorem readLiteral_eq_none_iff (hquote : quote ≠ '\\') {cs : List Char} :
    readLiteral quote cs = none ↔
      ∀ body content rest, Spells quote body content → cs ≠ body ++ quote :: rest := by
  constructor
  · rintro hnone body content rest hspells rfl
    rw [readLiteral_of_spells hquote hspells rest] at hnone
    exact absurd hnone (by simp)
  · intro hall
    cases hread : readLiteral quote cs with
    | none => rfl
    | some result =>
      obtain ⟨content, n⟩ := result
      obtain ⟨body, rest, heq, hspells, -⟩ := spells_of_readLiteral hread
      exact absurd heq (hall body content rest hspells)

/-! ## Writing -/

theorem Spells.append {body body' content content' : List Char} (h : Spells quote body content)
    (h' : Spells quote body' content') : Spells quote (body ++ body') (content ++ content') := by
  induction h with
  | nil => exact h'
  | plain hc hslash _ ih => exact .plain hc hslash ih
  | escaped _ ih => exact .escaped ih

theorem spells_escape (c : Char) : Spells '\x22' (escape c) [c] := by
  unfold escape
  split
  · exact .escaped .nil
  · exact .escaped .nil
  · exact .escaped (c := 'n') .nil
  · exact .escaped (c := 't') .nil
  · exact .escaped (c := 'r') .nil
  · rename_i hquote hslash _ _ _
    exact .plain hquote hslash .nil

theorem spells_flatMap {spell : Char → List Char} (h : ∀ c, Spells quote (spell c) [c])
    (cs : List Char) : Spells quote (cs.flatMap spell) cs := by
  induction cs with
  | nil => exact .nil
  | cons c rest ih => exact (h c).append ih

end ExprLang.Text
