import ExprLang.Proofs.Composition
import Mathlib.Computability.RegularExpressions

/-!
# Histories of registrations

A registry is what a history of registrations makes of the empty one. A registration that is refused
leaves the registry as it was. One that is accepted takes its name for good: the name was free, and no
later registration under it is accepted. So what a registry answers is told by the accepted calls of its
history, and how a call is answered by its name and the names that are taken.

The rule for names is said as a regular expression. It makes words of them, and a source can call every
word but the two keywords.

Main statements: `isFunctionName_iff_rmatch`, `find?_history`, `registration_history`,
`parse_registered_iff`.
-/

namespace ExprLang

variable {V : Vocabulary}

/-! ## The pattern of names -/

def between (a b : Char) : List Char :=
  (List.range' a.toNat (b.toNat + 1 - a.toNat)).map Char.ofNat

def anyOf (cs : List Char) : RegularExpression Char := cs.foldr (fun c p => .char c + p) 0

/-- The pattern `^[a-z][a-zA-Z0-9_]*$`. -/
def namePattern : RegularExpression Char :=
  anyOf (between 'a' 'z') *
    (anyOf (between 'a' 'z' ++ between 'A' 'Z' ++ between '0' '9' ++ ['_'])).star

theorem mem_between {a b c : Char} (h : a.toNat ≤ c.toNat ∧ c.toNat ≤ b.toNat) :
    c ∈ between a b := by
  refine List.mem_map.mpr ⟨c.toNat, List.mem_range'_1.mpr ⟨h.1, ?_⟩, Char.ofNat_toNat c⟩
  omega

theorem mem_matches_anyOf {cs xs : List Char} :
    xs ∈ (anyOf cs).matches' ↔ ∃ c ∈ cs, xs = [c] := by
  induction cs with
  | nil =>
    constructor
    · exact fun h => absurd h (Language.notMem_zero xs)
    · rintro ⟨c, hc, -⟩
      cases hc
  | cons c cs ih =>
    have hsplit : xs ∈ (anyOf (c :: cs)).matches' ↔ xs = [c] ∨ xs ∈ (anyOf cs).matches' := Iff.rfl
    rw [hsplit, ih]
    simp

theorem mem_matches_star_anyOf {cs xs : List Char} :
    xs ∈ (anyOf cs).star.matches' ↔ ∀ c ∈ xs, c ∈ cs := by
  rw [RegularExpression.matches'_star, Language.mem_kstar]
  constructor
  · rintro ⟨words, rfl, hwords⟩ c hc
    obtain ⟨word, hword, hc⟩ := List.mem_flatten.mp hc
    obtain ⟨d, hd, rfl⟩ := mem_matches_anyOf.mp (hwords word hword)
    rwa [List.mem_singleton.mp hc]
  · intro hall
    refine ⟨xs.map fun c => [c], by rw [← List.flatMap_def, List.flatMap_singleton'], fun word hword => ?_⟩
    obtain ⟨c, hc, rfl⟩ := List.mem_map.mp hword
    exact mem_matches_anyOf.mpr ⟨c, hall c hc, rfl⟩

theorem isLower_iff_mem {c : Char} : c.isLower = true ↔ c ∈ between 'a' 'z' := by
  have hall : (between 'a' 'z').all Char.isLower = true := by
    decide +kernel
  exact ⟨fun h => mem_between (Text.toNat_of_isLower h), List.all_eq_true.mp hall c⟩

theorem isNamePart_iff_mem {c : Char} : (c.isAlphanum || c = '_') = true ↔
    c ∈ between 'a' 'z' ++ between 'A' 'Z' ++ between '0' '9' ++ ['_'] := by
  have hall : (between 'a' 'z' ++ between 'A' 'Z' ++ between '0' '9' ++ ['_']).all
      (fun c => c.isAlphanum || c = '_') = true := by
    decide +kernel
  refine ⟨fun h => ?_, List.all_eq_true.mp hall c⟩
  change (c.isUpper || c.isLower || c.isDigit || decide (c = '_')) = true at h
  simp only [Bool.or_eq_true, decide_eq_true_eq] at h
  simp only [List.mem_append, List.mem_singleton]
  rcases h with ((h | h) | h) | h
  · exact .inl (.inl (.inr (mem_between (Text.toNat_of_isUpper h))))
  · exact .inl (.inl (.inl (mem_between (Text.toNat_of_isLower h))))
  · exact .inl (.inr (mem_between (Char.isDigit_iff_toNat.mp h)))
  · exact .inr h

/-- The names of functions are those that match the pattern to their end. -/
theorem isFunctionName_iff_rmatch {name : String} :
    isFunctionName name = true ↔ namePattern.rmatch name.toList = true := by
  rw [RegularExpression.rmatch_iff_matches', namePattern, RegularExpression.matches'_mul,
    Language.mem_mul]
  unfold isFunctionName
  constructor
  · intro h
    split at h
    · cases h
    · rename_i c rest hname
      obtain ⟨hc, hrest⟩ := Bool.and_eq_true_iff.mp h
      have hparts := List.all_eq_true.mp hrest
      refine ⟨[c], mem_matches_anyOf.mpr ⟨c, isLower_iff_mem.mp hc, rfl⟩, rest, ?_, hname.symm⟩
      exact mem_matches_star_anyOf.mpr fun d hd => isNamePart_iff_mem.mp (hparts d hd)
  · rintro ⟨first, hfirst, rest, hrest, hname⟩
    obtain ⟨c, hc, rfl⟩ := mem_matches_anyOf.mp hfirst
    have hparts := mem_matches_star_anyOf.mp hrest
    rw [← hname, List.singleton_append]
    refine Bool.and_eq_true_iff.mpr ⟨isLower_iff_mem.mpr hc, List.all_eq_true.mpr fun d hd => ?_⟩
    exact isNamePart_iff_mem.mpr (hparts d hd)

/-- The pattern goes to the end of the text, also where it ends with a line feed. -/
example : isFunctionName "ok_Name9" = true ∧ isFunctionName "ok_Name9\n" = false := by decide

namespace Registry

/-! ## One registration -/

/-- A registration that leaves the registry alone if it is refused. -/
def tryRegister (r : Registry V) (f : Function V) : Registry V × Option RegistryError :=
  match r.register f with
  | .ok s => (s, none)
  | .error e => (r, some e)

theorem tryRegister_cases (r : Registry V) (f : Function V) :
    (f.name = "" ∧ r.tryRegister f = (r, some .unnamed)) ∨
    (f.name ≠ "" ∧ isFunctionName f.name = false ∧
      r.tryRegister f = (r, some (.invalidName f.name))) ∨
    (isFunctionName f.name = true ∧ r.contains f.name = true ∧
      r.tryRegister f = (r, some (.duplicate f.name))) ∨
    (isFunctionName f.name = true ∧ r.find? f.name = none ∧
      ∃ s, r.register f = .ok s ∧ r.tryRegister f = (s, none)) := by
  by_cases hempty : f.name = ""
  · have hregister : r.register f = .error .unnamed := if_pos hempty
    exact .inl ⟨hempty, by rw [tryRegister, hregister]⟩
  · cases hname : isFunctionName f.name with
    | false =>
      have hregister : r.register f = .error (.invalidName f.name) := by
        rw [register, if_neg hempty, dif_neg (by rw [hname]; exact Bool.false_ne_true)]
      exact .inr (.inl ⟨hempty, rfl, by rw [tryRegister, hregister]⟩)
    | true =>
      cases htaken : r.contains f.name with
      | true =>
        have hregister : r.register f = .error (.duplicate f.name) := by
          rw [register, if_neg hempty, dif_pos hname, if_pos htaken]
        exact .inr (.inr (.inl ⟨rfl, rfl, by rw [tryRegister, hregister]⟩))
      | false =>
        have hfree : r.find? f.name = none :=
          Option.isNone_iff_eq_none.mp (Option.isSome_eq_false_iff.mp htaken)
        obtain ⟨s, hregister⟩ := exists_register hname hfree
        exact .inr (.inr (.inr ⟨rfl, hfree, s, hregister, by rw [tryRegister, hregister]⟩))

theorem tryRegister_refused {r : Registry V} {f : Function V} (h : (r.tryRegister f).2 ≠ none) :
    (r.tryRegister f).1 = r := by
  rcases r.tryRegister_cases f with ⟨-, htry⟩ | ⟨-, -, htry⟩ | ⟨-, -, htry⟩ | ⟨-, -, s, -, htry⟩
  · rw [htry]
  · rw [htry]
  · rw [htry]
  · rw [htry] at h
    exact absurd rfl h

theorem find?_tryRegister {r : Registry V} {f : Function V} (h : (r.tryRegister f).2 = none) :
    r.find? f.name = none ∧ ∀ name,
      (r.tryRegister f).1.find? name = if name = f.name then some f else r.find? name := by
  rcases r.tryRegister_cases f with ⟨-, htry⟩ | ⟨-, -, htry⟩ | ⟨-, -, htry⟩ |
    ⟨-, hfree, s, hregister, htry⟩
  · simp [htry] at h
  · simp [htry] at h
  · simp [htry] at h
  · rw [htry]
    exact ⟨hfree, find?_register hregister⟩

/-! ## What a registry answers -/

/-- The registry answers with the functions in `P`, each under its own name, and with nothing else. -/
structure HoldsExactly (r : Registry V) (P : Function V → Prop) : Prop where
  found : ∀ name f, r.find? name = some f ↔ P f ∧ f.name = name
  resolved : ∀ name f, r.resolve name = .ok f ↔ P f ∧ f.name = name
  missing : ∀ name e, r.resolve name = .error e ↔ e = .notFound name ∧ ∀ f, P f → f.name ≠ name
  contained : ∀ name, r.contains name = true ↔ ∃ f, P f ∧ f.name = name
  listed : ∀ name, name ∈ r.names ↔ ∃ f, P f ∧ f.name = name
  ascending : r.names.Pairwise (· < ·)

theorem mem_names_iff {r : Registry V} {name : String} :
    name ∈ r.names ↔ r.contains name = true := by
  show name ∈ r.functions.entries.map (·.1) ↔ (r.functions.entries.lookup name).isSome = true
  rw [List.lookup_isSome_iff, List.mem_map]
  simp only [beq_iff_eq, eq_comm (a := name)]

theorem holdsExactly_of_find? {r : Registry V} {P : Function V → Prop}
    (h : ∀ name f, r.find? name = some f ↔ P f ∧ f.name = name) : r.HoldsExactly P := by
  have hcontained (name : String) : r.contains name = true ↔ ∃ f, P f ∧ f.name = name := by
    have hsome : r.contains name = true ↔ ∃ f, r.find? name = some f := Option.isSome_iff_exists
    simp only [hsome, h]
  have hresolved (name : String) (f : Function V) :
      r.resolve name = .ok f ↔ P f ∧ f.name = name := by
    rw [← h, resolve]
    cases r.find? name with
    | none => simp
    | some g => simp
  have hmissing (name : String) (e : RegistryError) :
      r.resolve name = .error e ↔ e = .notFound name ∧ ∀ f, P f → f.name ≠ name := by
    have hnone : r.find? name = none ↔ ∀ f, P f → f.name ≠ name := by
      simp only [Option.eq_none_iff_forall_ne_some, ne_eq, h, not_and]
    rw [← hnone, resolve]
    cases r.find? name with
    | none => simp [eq_comm]
    | some g => simp
  exact ⟨h, hresolved, hmissing, hcontained, fun name => mem_names_iff.trans (hcontained name),
    List.pairwise_map.mpr r.functions.ascending⟩

/-! ## A history -/

/-- The registry behind a history of registrations. -/
def history (fs : List (Function V)) : Registry V := fs.foldl (fun r f => (r.tryRegister f).1) empty

/-- Some registration of the history accepted the function. -/
def Registered (fs : List (Function V)) (f : Function V) : Prop :=
  ∃ before later, fs = before ++ f :: later ∧ ((history before).tryRegister f).2 = none

variable {fs : List (Function V)} {f g : Function V}

theorem history_concat (fs : List (Function V)) (f : Function V) :
    history (fs ++ [f]) = ((history fs).tryRegister f).1 := List.foldl_concat ..

theorem Registered.append (h : Registered fs f) (later : List (Function V)) :
    Registered (fs ++ later) f := by
  obtain ⟨before, behind, rfl, haccepted⟩ := h
  exact ⟨before, behind ++ later, by simp, haccepted⟩

theorem registered_concat : Registered (fs ++ [f]) g ↔
    Registered fs g ∨ (g = f ∧ ((history fs).tryRegister f).2 = none) := by
  constructor
  · rintro ⟨before, later, hsplit, haccepted⟩
    rcases List.eq_nil_or_concat later with rfl | ⟨later, last, rfl⟩
    · obtain ⟨rfl, hlast⟩ := List.append_inj' hsplit rfl
      obtain rfl := List.singleton_inj.mp hlast
      exact .inr ⟨rfl, haccepted⟩
    · rw [List.concat_eq_append, ← List.cons_append, ← List.append_assoc] at hsplit
      obtain ⟨rfl, -⟩ := List.append_inj' hsplit rfl
      exact .inl ⟨before, later, rfl, haccepted⟩
  · rintro (h | ⟨rfl, haccepted⟩)
    · exact h.append [f]
    · exact ⟨fs, [], rfl, haccepted⟩

theorem find?_history (name : String) (g : Function V) :
    (history fs).find? name = some g ↔ Registered fs g ∧ g.name = name := by
  induction fs using List.reverseRecOn generalizing name g with
  | nil =>
    refine iff_of_false nofun ?_
    rintro ⟨⟨before, later, hsplit, -⟩, -⟩
    simp at hsplit
  | append_singleton fs f ih =>
    rw [history_concat, registered_concat]
    by_cases haccepted : ((history fs).tryRegister f).2 = none
    · obtain ⟨hfree, hfound⟩ := find?_tryRegister haccepted
      rw [hfound]
      by_cases hname : name = f.name
      · -- the name was free, so no other function is registered under it
        have hothers : ¬ (Registered fs g ∧ g.name = name) := by
          rw [← ih, hname, hfree]
          exact nofun
        rw [if_pos hname, Option.some_inj]
        constructor
        · rintro rfl
          exact ⟨.inr ⟨rfl, haccepted⟩, hname.symm⟩
        · rintro ⟨hregistered | ⟨rfl, -⟩, hg⟩
          · exact absurd ⟨hregistered, hg⟩ hothers
          · rfl
      · rw [if_neg hname, ih]
        constructor
        · exact fun ⟨hregistered, hg⟩ => ⟨.inl hregistered, hg⟩
        · rintro ⟨hregistered | ⟨rfl, -⟩, hg⟩
          · exact ⟨hregistered, hg⟩
          · exact absurd hg.symm hname
    · rw [tryRegister_refused haccepted, ih]
      simp [haccepted]

/-- How a registration is answered behind a history. The reasons of a refusal are tried in this order. -/
structure IsAnswer (fs : List (Function V)) (f : Function V) (answer : Option RegistryError) :
    Prop where
  accepted : answer = none ↔
    f.name ≠ "" ∧ namePattern.rmatch f.name.toList = true ∧ ∀ g, Registered fs g → g.name ≠ f.name
  unnamed : f.name = "" → answer = some .unnamed
  invalidName : f.name ≠ "" → namePattern.rmatch f.name.toList = false →
    answer = some (.invalidName f.name)
  duplicate : namePattern.rmatch f.name.toList = true →
    (∃ g, Registered fs g ∧ g.name = f.name) → answer = some (.duplicate f.name)

theorem isAnswer_history (fs : List (Function V)) (f : Function V) :
    IsAnswer fs f ((history fs).tryRegister f).2 := by
  have htaken : (history fs).contains f.name = true ↔ ∃ g, Registered fs g ∧ g.name = f.name :=
    (holdsExactly_of_find? find?_history).contained f.name
  have hname : isFunctionName f.name = true ↔ namePattern.rmatch f.name.toList = true :=
    isFunctionName_iff_rmatch
  have hnonempty : isFunctionName f.name = true → f.name ≠ "" := by
    rintro h hempty
    rw [hempty] at h
    cases h
  rcases (history fs).tryRegister_cases f with ⟨hempty, htry⟩ | ⟨hempty, hother, htry⟩ |
    ⟨hmatch, hused, htry⟩ | ⟨hmatch, hfree, s, -, htry⟩
  · have hother : namePattern.rmatch f.name.toList = false := by
      rw [← Bool.not_eq_true, ← hname]
      exact fun h => hnonempty h hempty
    rw [htry]
    exact ⟨by simp [hempty], fun _ => rfl, fun h => absurd hempty h, by simp [hother]⟩
  · rw [← Bool.not_eq_true, hname, Bool.not_eq_true] at hother
    rw [htry]
    exact ⟨by simp [hother], fun h => absurd h hempty, fun _ _ => rfl, by simp [hother]⟩
  · have hempty := hnonempty hmatch
    rw [hname] at hmatch
    obtain ⟨g, hg, hsame⟩ := htaken.mp hused
    rw [htry]
    refine ⟨iff_of_false nofun ?_, fun h => absurd h hempty, by simp [hmatch], fun _ _ => rfl⟩
    exact fun h => h.2.2 g hg hsame
  · have hempty := hnonempty hmatch
    rw [hname] at hmatch
    have hothers : ¬ ∃ g, Registered fs g ∧ g.name = f.name := by
      rintro ⟨g, hg⟩
      rw [← find?_history, hfree] at hg
      cases hg
    rw [htry]
    refine ⟨iff_of_true rfl ⟨hempty, hmatch, ?_⟩, fun h => absurd h hempty, by simp [hmatch],
      fun _ h => absurd h hothers⟩
    exact fun g hg hsame => hothers ⟨g, hg, hsame⟩

end Registry

open Registry

/-- A registration is accepted exactly if its name is a name and free, and otherwise it is refused for
the first reason that there is and changes nothing. Behind a history the registry holds exactly the
functions that were registered, and none of them is ever replaced. -/
theorem registration_history (fs : List (Function V)) :
    (∀ f, IsAnswer fs f ((history fs).tryRegister f).2 ∧
      (((history fs).tryRegister f).2 ≠ none → history (fs ++ [f]) = history fs)) ∧
    (history fs).HoldsExactly (Registered fs) ∧
    ∀ f later, Registered fs f → (history (fs ++ later)).find? f.name = some f := by
  refine ⟨fun f => ⟨isAnswer_history fs f, fun hrefused => ?_⟩,
    holdsExactly_of_find? find?_history, fun f later hf => ?_⟩
  · rw [history_concat, tryRegister_refused hrefused]
  · exact (find?_history f.name f).mpr ⟨hf.append later, rfl⟩

/-! ## Calls of what is registered -/

/-- The keywords are no names in a source. -/
theorem parse_keyword_call (r : Registry V) {name : String} (h : name = "true" ∨ name = "false")
    (e : Expr V) : Expr.parse r (name ++ "()") ≠ .ok e := by
  rcases h with rfl | rfl
  · exact nofun
  · exact nofun

/-- Every function that was registered can be called, except under a keyword. -/
theorem parse_registered_iff {fs : List (Function V)} {f : Function V} (h : Registered fs f) :
    Expr.parse (history fs) (f.name ++ "()") = .ok (.call f [] 0) ↔
      f.name ≠ "true" ∧ f.name ≠ "false" := by
  constructor
  · intro hparse
    constructor
    · exact fun htrue => parse_keyword_call (history fs) (.inl htrue) _ hparse
    · exact fun hfalse => parse_keyword_call (history fs) (.inr hfalse) _ hparse
  · rintro ⟨htrue, hfalse⟩
    have hfound : (history fs).find? f.name = some f := (find?_history f.name f).mpr ⟨h, rfl⟩
    have hword : ¬ Lexeme.IsKeyword f.name.toList := by
      rintro (hname | hname)
      · exact htrue (String.toList_inj.mp hname)
      · exact hfalse (String.toList_inj.mp hname)
    have htext : f.name ++ "()" = f.name ++ "(" ++ String.intercalate ", " [] ++ ")" := by
      rw [← String.toList_inj]
      simp [String.toList_append]
    rw [htext]
    exact parse_call hfound hword .nil

/-- A registered function between two registrations that are refused. -/
theorem parse_registered_iff_between :
    let f : Function Vocabulary.empty := ⟨0, "ok_Name9", ⟨"", []⟩, .builtin .nil⟩
    let invalid : Function Vocabulary.empty := ⟨0, "9lives", ⟨"", []⟩, .builtin .nil⟩
    let second : Function Vocabulary.empty := ⟨1, "ok_Name9", ⟨"", []⟩, .builtin .not⟩
    Registered [invalid, f, second] f ∧
      Expr.parse (history [invalid, f, second]) "ok_Name9()" = .ok (.call f [] 0) := by
  intro f invalid second
  have hregistered : Registered [invalid, f, second] f :=
    ⟨[invalid], [second], rfl, by decide +kernel⟩
  exact ⟨hregistered, (parse_registered_iff hregistered).mpr ⟨by decide, by decide⟩⟩

/-- A function can be registered under a keyword, and then no call finds it. -/
theorem not_parse_registered :
    let f : Function Vocabulary.empty := ⟨0, "true", ⟨"", []⟩, .builtin .nil⟩
    Registered [f] f ∧ Expr.parse (history [f]) "true()" ≠ .ok (.call f [] 0) := by
  intro f
  have hregistered : Registered [f] f := ⟨[], [], rfl, by decide +kernel⟩
  exact ⟨hregistered, parse_keyword_call (history [f]) (.inl rfl) _⟩

end ExprLang
