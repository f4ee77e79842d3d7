import ExprLang.Proofs.Parse
import ExprLang.Proofs.Readable

/-!
# What cannot be read back

A rendering is read back as the expression it shows, except in two cases.

* A point right behind an integer literal is read as part of a number. So a float stands in front of a
  name (`Broken`), which no expression has.
* A literal beyond the range of its kind is infinite and is shown by a name. Then the name is read
  (`reread`), and the expression is a different one.

Main statements: `Readable.reread_eq`, `Readable.equal_reread`, `not_isExpr_of_broken`.
-/

namespace ExprLang

open Grammar

variable {V : Vocabulary} {r : Registry V}

/-! ## Two kinds of expressions -/

namespace Expr

/-- A literal of the integers that a source has. -/
def isInteger : Expr V → Bool
  | .literal (.int .int64 _) => true
  | _ => false

/-- No integer literal stands in front of the point. -/
def isApart : Expr V → Bool
  | .field parent _ | .method parent _ _ _ => !parent.isInteger
  | _ => true

/-- Not a literal beyond the range of its kind. -/
def isBounded : Expr V → Bool
  | .literal (.float64 (.infinite _)) => false
  | _ => true

mutual

/-- Every expression in an expression, itself included, satisfies `p`. -/
def all (p : Expr V → Bool) : Expr V → Bool
  | .literal v => p (.literal v)
  | .lookup name => p (.lookup name)
  | .field parent name => p (.field parent name) && all p parent
  | .call f arguments index => p (.call f arguments index) && allEach p arguments
  | .method parent name arguments index =>
    p (.method parent name arguments index) && all p parent && allEach p arguments
termination_by structural x => x

def allEach (p : Expr V → Bool) : List (Expr V) → Bool
  | [] => true
  | e :: rest => all p e && allEach p rest
termination_by structural x => x

end

mutual

/-- What is read where an expression is shown: for an infinite literal, the name that shows it. -/
def reread : Expr V → Expr V
  | .literal (.float64 (.infinite false)) => .lookup "inf"
  | .literal v => .literal v
  | .lookup name => .lookup name
  | .field parent name => .field (reread parent) name
  | .call f arguments index => .call f (rereadEach arguments) index
  | .method parent name arguments index =>
    .method (reread parent) name (rereadEach arguments) index
termination_by structural x => x

def rereadEach : List (Expr V) → List (Expr V)
  | [] => []
  | e :: rest => reread e :: rereadEach rest
termination_by structural x => x

end

theorem allEach_eq_all (p : Expr V → Bool) (es : List (Expr V)) :
    allEach p es = es.all (all p) := by
  induction es with
  | nil => rfl
  | cons e es ih => rw [allEach, ih, List.all_cons]

theorem rereadEach_eq_map (es : List (Expr V)) : rereadEach es = es.map reread := by
  induction es with
  | nil => rfl
  | cons e es ih => rw [rereadEach, ih, List.map_cons]

theorem rereadEach_eq_self {es : List (Expr V)}
    (h : ∀ e ∈ es, e.all isBounded = true → e.reread = e) (hes : allEach isBounded es = true) :
    rereadEach es = es := by
  rw [allEach_eq_all, List.all_eq_true] at hes
  rw [rereadEach_eq_map]
  exact (List.map_congr_left fun e he => h e he (hes e he)).trans (List.map_id es)

theorem equalLists_rereadEach {es : List (Expr V)}
    (h : ∀ e ∈ es, e.all isBounded = false → equal e.reread e = false)
    (hes : allEach isBounded es = false) : equalLists (rereadEach es) es = false := by
  rw [allEach_eq_all, List.all_eq_false] at hes
  obtain ⟨e, he, hfalse⟩ := hes
  rw [rereadEach_eq_map]
  exact equalLists_map_eq_false he (h e he (Bool.eq_false_iff.mpr hfalse))

/-- Bounded literals are read back as they are. -/
theorem Readable.reread_eq {e : Expr V} (h : e.Readable r) (hbounded : e.all isBounded = true) :
    e.reread = e := by
  induction h with
  | bool | string | integer | finite | allValues | lookup => rfl
  | infinite => cases hbounded
  | field _ _ ih =>
    rw [all, Bool.and_eq_true] at hbounded
    rw [reread, ih hbounded.2]
  | call _ _ _ _ ih =>
    rw [all, Bool.and_eq_true] at hbounded
    rw [reread, rereadEach_eq_self ih hbounded.2]
  | method _ _ _ _ ihparent ih =>
    rw [all, Bool.and_eq_true, Bool.and_eq_true] at hbounded
    rw [reread, ihparent hbounded.1.2, rereadEach_eq_self ih hbounded.2]

/-- An infinite literal anywhere makes what is read back a different expression. -/
theorem Readable.equal_reread {e : Expr V} (h : e.Readable r) (hbounded : e.all isBounded = false) :
    equal e.reread e = false := by
  induction h with
  | bool | string | integer | finite | allValues | lookup => cases hbounded
  | infinite => rfl
  | field _ _ ih =>
    rw [all, Bool.and_eq_false_iff] at hbounded
    rcases hbounded with hself | hbounded
    · cases hself
    · rw [reread, equal, ih hbounded, Bool.false_and]
  | call _ _ _ _ ih =>
    rw [all, Bool.and_eq_false_iff] at hbounded
    rcases hbounded with hself | hbounded
    · cases hself
    · rw [reread, equal, equalLists_rereadEach ih hbounded, Bool.and_false, Bool.false_and]
  | method _ _ _ _ ihparent ih =>
    rw [all, Bool.and_eq_false_iff, Bool.and_eq_false_iff] at hbounded
    rcases hbounded with (hself | hbounded) | hbounded
    · cases hself
    · rw [reread, equal, ihparent hbounded, Bool.false_and, Bool.false_and, Bool.false_and]
    · rw [reread, equal, equalLists_rereadEach ih hbounded, Bool.and_false, Bool.false_and]

end Expr

/-! ## A float in front of a name -/

/-- Somewhere a float stands in front of an identifier. -/
def Broken (ws : List Word) : Prop :=
  ∃ before number name after, ws = before ++ ⟨.float, number⟩ :: ⟨.identifier, name⟩ :: after

theorem Broken.append_left {ws : List Word} (h : Broken ws) (ws' : List Word) :
    Broken (ws' ++ ws) := by
  obtain ⟨before, number, name, after, rfl⟩ := h
  exact ⟨ws' ++ before, number, name, after, by simp⟩

theorem Broken.append_right {ws : List Word} (h : Broken ws) (ws' : List Word) :
    Broken (ws ++ ws') := by
  obtain ⟨before, number, name, after, rfl⟩ := h
  exact ⟨before, number, name, after ++ ws', by simp⟩

namespace Reader

variable {s s' : State V} {t : Token}

theorem Step.of_float (h : Step r s t s') (hkind : t.kind = .float) :
    ∃ e pending stack, s' = ⟨.operand e, pending, stack⟩ := by
  cases h with
  | literal => exact ⟨_, _, _, rfl⟩
  | unary _ hother =>
    rw [hkind] at hother
    rcases hother with hother | hother <;> cases hother
  | openGroup _ hother | identifier _ hother | point _ hother | openIndex _ hother
  | binary _ hother | closeGroup _ hother | closeIndex _ hother | lastArgument _ hother
  | nextArgument _ hother | noArguments hother | member hother | openFunction hother
  | openMethod hother | openResultIndex hother | resultIndex hother | closeResultIndex hother =>
    rw [hkind] at hother
    cases hother

theorem Step.not_identifier {e : Expr V} {pending : Pending V} {stack : List (Open V)}
    (h : Step r ⟨.operand e, pending, stack⟩ t s') : t.kind ≠ .identifier := by
  intro hkind
  cases h with
  | unary hbegins | openGroup hbegins | identifier hbegins | literal hbegins => exact hbegins
  | point _ hother | openIndex _ hother | binary _ hother | closeGroup _ hother
  | closeIndex _ hother | lastArgument _ hother | nextArgument _ hother =>
    rw [hkind] at hother
    cases hother

end Reader

theorem exists_steps_of_isExpr {before after : List Word} {w w' : Word} {e : Expr V}
    (h : IsExpr r (before ++ w :: w' :: after) e) :
    ∃ (s s₁ s₂ : Reader.State V) (t u : Token), t.word = w ∧ u.word = w' ∧
      Reader.Step r s t s₁ ∧ Reader.Step r s₁ u s₂ := by
  obtain ⟨ts, hts⟩ := exists_tokens (before ++ w :: w' :: after)
  rw [← hts] at h
  obtain ⟨s, hrun, -⟩ := Reader.run_of_isExpr h 0
  obtain ⟨ts₁, rest, rfl, -, hrest⟩ := List.map_eq_append_iff.mp hts
  obtain ⟨t, rest, rfl, ht, hrest⟩ := List.map_eq_cons_iff.mp hrest
  obtain ⟨u, rest, rfl, hu, -⟩ := List.map_eq_cons_iff.mp hrest
  obtain ⟨s₁, -, hsteps⟩ := (Reader.run_eq_ok_iff.mp hrun).of_append
  cases hsteps with
  | cons hfirst hsteps =>
    cases hsteps with
    | cons hsecond _ => exact ⟨_, _, _, t, u, ht, hu, hfirst, hsecond⟩

theorem not_isExpr_of_broken {ws : List Word} {e : Expr V} (h : Broken ws) : ¬ IsExpr r ws e := by
  intro hexpr
  obtain ⟨before, number, name, after, rfl⟩ := h
  obtain ⟨s, s₁, s₂, t, u, ht, hu, hfloat, hname⟩ := exists_steps_of_isExpr hexpr
  obtain ⟨e', pending, stack, rfl⟩ := hfloat.of_float (congrArg Word.kind ht)
  exact hname.not_identifier (congrArg Word.kind hu)

end ExprLang
