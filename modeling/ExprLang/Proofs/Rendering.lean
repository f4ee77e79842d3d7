import ExprLang.Proofs.Shown

/-!
# Rendering and parsing

The rendering of an expression that a source can hold is parsed as what is read back, unless an integer
literal stands in front of a point. So canonical trees come back as they are, and so do exactly the
legible ones among the expressions that were parsed.

Main statements: `parse_render`, `parse_render_of_canonical`, `parse_render_iff_isLegible`.
-/

namespace ExprLang

open Text Lexeme Grammar

variable {V : Vocabulary} {r : Registry V}

/-! ## Reading back -/

/-- A rendering in which the points stand apart is parsed as what is read back. -/
theorem parse_render {e : Expr V} (h : e.Readable r) (hapart : e.all Expr.isApart = true) :
    Expr.parse r e.render = .ok e.reread := by
  obtain ⟨ws, hws⟩ := h.shown
  obtain ⟨hwords, hstop⟩ := scan_of_writes hws.writes
  exact parse_of_words hstop hwords (.operand (.chain (hws.isChain hapart)))

/-- Any other rendering is not parsed. -/
theorem parse_render_ne_ok {e : Expr V} (h : e.Readable r) (hapart : e.all Expr.isApart = false)
    (e' : Expr V) : Expr.parse r e.render ≠ .ok e' := by
  obtain ⟨ws, hws⟩ := h.shown
  obtain ⟨hwords, hstop⟩ := scan_of_writes hws.writes
  intro hparse
  have hexpr := (ofTokens_eq_ok_iff.mp hparse).2
  rw [show (scan e.render).marks.map Token.word = ws from hwords] at hexpr
  exact not_isExpr_of_broken (hws.broken hapart) hexpr

/-! ## The trees that rendering keeps -/

/-- The trees that a rendering shows as they are. -/
inductive Expr.Canonical (r : Registry V) : Expr V → Prop where
  | bool {b : Bool} : Canonical r (.literal (.bool b))
  | string {s : String} : Canonical r (.literal (.string s))
  | integer {n : Integer .int64} : 0 ≤ n.val → Canonical r (.literal (.int64 n))
  | float {units : Nat} {h : Format.double.Represents units} :
      Canonical r (.literal (.float64 (.finite false units h)))
  | allValues : Canonical r (.lookup "")
  | lookup {name : String} : IsIdentifier name → Canonical r (.lookup name)
  | field {parent : Expr V} {name : String} :
      Canonical r parent → parent.isInteger = false → IsIdentifier name →
      Canonical r (.field parent name)
  | call {f : Function V} {arguments : List (Expr V)} {index : Nat} :
      r.find? f.name = some f → ¬ IsKeyword f.name.toList → (∀ a ∈ arguments, Canonical r a) →
      index < 2 ^ 64 → Canonical r (.call f arguments index)
  | method {parent : Expr V} {name : String} {arguments : List (Expr V)} {index : Nat} :
      Canonical r parent → parent.isInteger = false → IsIdentifier name →
      (∀ a ∈ arguments, Canonical r a) → index < 2 ^ 64 →
      Canonical r (.method parent name arguments index)

namespace Expr

theorem Canonical.readable {e : Expr V} (h : e.Canonical r) : e.Readable r := by
  induction h with
  | bool => exact .bool
  | string => exact .string
  | integer hn => exact .integer hn
  | float => exact .finite
  | allValues => exact .allValues
  | lookup hname => exact .lookup hname
  | field _ _ hname ih => exact .field ih hname
  | call hf hname _ hindex ih => exact .call hf hname ih hindex
  | method _ _ hname _ hindex ihparent ih => exact .method ihparent hname ih hindex

theorem allEach_of_forall {p : Expr V → Bool} {es : List (Expr V)} (h : ∀ e ∈ es, all p e = true) :
    allEach p es = true := by
  rw [allEach_eq_all, List.all_eq_true]
  exact h

theorem Canonical.isApart {e : Expr V} (h : e.Canonical r) : e.all isApart = true := by
  induction h with
  | bool | string | integer | float | allValues | lookup => rfl
  | field _ hparent _ ih => rw [all, ih, Expr.isApart, hparent, Bool.not_false, Bool.and_true]
  | call _ _ _ _ ih =>
    rw [all, allEach_of_forall ih]
    rfl
  | method _ hparent _ _ _ ihparent ih =>
    rw [all, ihparent, allEach_of_forall ih, Expr.isApart, hparent, Bool.not_false, Bool.and_true,
      Bool.and_true]

theorem Canonical.isBounded {e : Expr V} (h : e.Canonical r) : e.all isBounded = true := by
  induction h with
  | bool | string | integer | float | allValues | lookup => rfl
  | field _ _ _ ih =>
    rw [all, ih]
    rfl
  | call _ _ _ _ ih =>
    rw [all, allEach_of_forall ih]
    rfl
  | method _ _ _ _ _ ihparent ih =>
    rw [all, ihparent, allEach_of_forall ih]
    rfl

end Expr

/-- Rendering and parsing keep a canonical tree as it is. -/
theorem parse_render_of_canonical {e : Expr V} (h : e.Canonical r) :
    Expr.parse r e.render = .ok e ∧ (e == e) = true := by
  have hparse := parse_render h.readable h.isApart
  rw [h.readable.reread_eq h.isBounded] at hparse
  exact ⟨hparse, h.readable.equal_self⟩

/-- A method with a string, and a call with an index among its arguments, come back. -/
theorem parse_render_of_canonical_method :
    let f : Function Vocabulary.empty := Builtin.toFunction 0 .equals
    let e : Expr Vocabulary.empty :=
      .method (.lookup "a") "b" [.literal (.string "\""), .call f [.literal (.bool true)] 2] 0
    Expr.parse (Registry.withBuiltins 0) e.render = .ok e ∧ (e == e) = true := by
  have hname (c : Char) (hc : isAlphabetic c = true) : IsIdentifier (String.ofList [c]) := by
    refine ⟨⟨c, [], String.toList_ofList, hc, by simp⟩, ?_⟩
    rw [String.toList_ofList]
    simp [IsKeyword]
  have ha : IsIdentifier "a" := hname 'a' (isAlphabetic_of_isLower rfl)
  have hb : IsIdentifier "b" := hname 'b' (isAlphabetic_of_isLower rfl)
  refine parse_render_of_canonical (.method (.lookup ha) rfl hb ?_ (by decide))
  rintro e he
  rcases List.mem_pair.mp he with rfl | rfl
  · exact .string
  · refine .call (by decide +kernel) (by decide) ?_ (by decide)
    intro e he
    rw [List.mem_singleton.mp he]
    exact .bool

/-! ## Parsed, rendered, parsed again -/

/-- No integer literal stands in front of a point, and no literal is infinite. -/
def Expr.isLegible (e : Expr V) : Bool := e.all isApart && e.all isBounded

theorem readable_of_parse {source : String} {e : Expr V} (h : Expr.parse r source = .ok e) :
    e.Readable r :=
  readable_of_isExpr (ofTokens_eq_ok_iff.mp h).2 (spelled_words source)

/-- Exactly the legible expressions of a source can be rendered and parsed again, and they come back
as they were. -/
theorem parse_render_iff_isLegible {source : String} {e : Expr V}
    (h : Expr.parse r source = .ok e) :
    ((∃ e', Expr.parse r e.render = .ok e' ∧ (e' == e) = true) ↔ e.isLegible = true) ∧
      (e.isLegible = true → Expr.parse r e.render = .ok e) := by
  have hreadable := readable_of_parse h
  have hkeeps : e.isLegible = true → Expr.parse r e.render = .ok e := by
    intro hlegible
    obtain ⟨hapart, hbounded⟩ := Bool.and_eq_true_iff.mp hlegible
    have hparse := parse_render hreadable hapart
    rwa [hreadable.reread_eq hbounded] at hparse
  refine ⟨⟨?_, fun hlegible => ⟨e, hkeeps hlegible, hreadable.equal_self⟩⟩, hkeeps⟩
  rintro ⟨e', hparse, hequal⟩
  cases hapart : e.all Expr.isApart with
  | false => exact absurd hparse (parse_render_ne_ok hreadable hapart e')
  | true =>
    -- What is parsed is what is read back, and an infinite literal would make that different.
    rw [parse_render hreadable hapart] at hparse
    cases hparse
    cases hbounded : e.all Expr.isBounded with
    | true =>
      rw [Expr.isLegible, hapart, hbounded]
      rfl
    | false =>
      have hdiffers : (e.reread == e) = false := hreadable.equal_reread hbounded
      rw [hdiffers] at hequal
      cases hequal

theorem parse_render_iff_isLegible_field :
    let e : Expr Vocabulary.empty := .field (.lookup "a") "b"
    Expr.parse .empty "a . b" = .ok e ∧
      ((∃ e', Expr.parse .empty e.render = .ok e' ∧ (e' == e) = true) ↔ e.isLegible = true) ∧
      (e.isLegible = true → Expr.parse .empty e.render = .ok e) := by
  have hwords : (scan "a . b").words =
      [⟨.identifier, "a"⟩, ⟨.separator, "."⟩, ⟨.identifier, "b"⟩] := rfl
  have hexpr : IsExpr (.empty : Registry Vocabulary.empty)
      [⟨.identifier, "a"⟩, ⟨.separator, "."⟩, ⟨.identifier, "b"⟩] (.field (.lookup "a") "b") :=
    .operand (.chain (.field .lookup))
  have hparse := parse_of_words rfl hwords hexpr
  exact ⟨hparse, parse_render_iff_isLegible hparse⟩

/-- A blank between an integer and a point is lost, and with it the expression. -/
theorem not_parse_render : ∃ e : Expr Vocabulary.empty,
    Expr.parse .empty "1 .x" = .ok e ∧ e.render = "1.x" ∧
      ∀ e' : Expr Vocabulary.empty, Expr.parse .empty "1.x" ≠ .ok e' := by
  have hwords : (scan "1 .x").words =
      [⟨.integer, "1"⟩, ⟨.separator, "."⟩, ⟨.identifier, "x"⟩] := rfl
  have hone : IsLiteral (V := .empty) ⟨.integer, "1"⟩ (.literal (.int64 ⟨1, by decide⟩)) :=
    .integer rfl
  have hexpr : IsExpr (.empty : Registry Vocabulary.empty)
      [⟨.integer, "1"⟩, ⟨.separator, "."⟩, ⟨.identifier, "x"⟩]
      (.field (.literal (.int64 ⟨1, by decide⟩)) "x") :=
    .operand (.chain (.field (.literal hone)))
  have hparse := parse_of_words rfl hwords hexpr
  have hrender :
      Expr.render (.field (.literal (.int64 ⟨1, by decide⟩)) "x" : Expr .empty) = "1.x" := by
    decide +kernel
  have hfails := parse_render_ne_ok (readable_of_parse hparse) rfl
  rw [hrender] at hfails
  exact ⟨_, hparse, hrender, hfails⟩

end ExprLang
