import ExprLang.Proofs.Correspondence
import ExprLang.Proofs.Registration

/-!
# One source, several registries

Which words are an expression, and what is wrong with those that are none, is told by the names that a
registry holds. The functions under these names only come into the tree. So a registry that grows keeps
what was read and every complaint but that of a missing function, and registries with the same names
read the same trees, each with its own functions in it.

Main statement: `parse_registries`.
-/

namespace ExprLang

open Grammar Reader

variable {V : Vocabulary} {r r' : Registry V}

/-! ## Functions under the same names -/

/-- The function that a registry holds under the name of `f`. -/
def Registry.counterpart (r : Registry V) (f : Function V) : Function V := (r.find? f.name).getD f

/-- The expression with each function replaced by that of the registry under the same name. -/
def Expr.calling (r : Registry V) (e : Expr V) : Expr V := e.withFunctions r.counterpart

theorem Registry.name_counterpart (r : Registry V) (f : Function V) :
    (r.counterpart f).name = f.name := by
  unfold counterpart
  cases hf : r.find? f.name with
  | none => rfl
  | some g => exact (r.named f.name g hf).1

theorem Expr.renderEach_eq_map (es : List (Expr V)) : renderEach es = es.map render := by
  induction es with
  | nil => rfl
  | cons e es ih => rw [renderEach, ih, List.map_cons]

theorem Expr.render_withFunctions {φ : Function V → Function V} (h : ∀ f, (φ f).name = f.name)
    (e : Expr V) : (e.withFunctions φ).render = e.render := by
  have heach (es : List (Expr V)) (hes : ∀ e ∈ es, (e.withFunctions φ).render = e.render) :
      renderEach (withFunctionsEach φ es) = renderEach es := by
    rw [withFunctionsEach_eq_map, renderEach_eq_map, renderEach_eq_map, List.map_map]
    exact List.map_congr_left hes
  induction e using induct with
  | literal | lookup => rfl
  | field parent name ih => rw [withFunctions, render, render, ih]
  | call f arguments index ih => rw [withFunctions, render, render, h, heach arguments ih]
  | method parent name arguments index ihparent ih =>
    rw [withFunctions, render, render, ihparent, heach arguments ih]

theorem Expr.render_calling (r : Registry V) (e : Expr V) : (e.calling r).render = e.render :=
  render_withFunctions r.name_counterpart e

theorem Registry.mem_names_iff_exists {name : String} :
    name ∈ r.names ↔ ∃ f, r.find? name = some f :=
  mem_names_iff.trans Option.isSome_iff_exists

/-- Where every name of `r` is a name of `r'`, the functions of `r` have their counterparts in `r'`. -/
theorem Registry.find?_counterpart (hnames : ∀ name ∈ r.names, name ∈ r'.names) (name : String)
    (f : Function V) (hf : r.find? name = some f) : r'.find? name = some (r'.counterpart f) := by
  have hname : f.name = name := (r.named name f hf).1
  obtain ⟨g, hg⟩ := mem_names_iff_exists.mp (hnames name (mem_names_iff_exists.mpr ⟨f, hf⟩))
  rw [counterpart, hname, hg, Option.getD_some]

theorem Registry.find?_eq_none (hnames : ∀ name ∈ r'.names, name ∈ r.names) (name : String)
    (hnone : r.find? name = none) : r'.find? name = none := by
  cases hg : r'.find? name with
  | none => rfl
  | some g =>
    obtain ⟨f, hf⟩ := mem_names_iff_exists.mp (hnames name (mem_names_iff_exists.mpr ⟨g, hg⟩))
    rw [hnone] at hf
    cases hf

/-! ## Registries that grow -/

theorem Registry.find?_of_register {f : Function V} (h : r.register f = .ok r') {name : String}
    {g : Function V} (hg : r.find? name = some g) : r'.find? name = some g := by
  have haccepted : (r.tryRegister f).2 = none := by
    rw [tryRegister, h]
  have hfree := (find?_tryRegister haccepted).1
  rw [find?_register h]
  split
  · rename_i hname
    rw [hname, hfree] at hg
    cases hg
  · exact hg

theorem Registry.find?_of_registerAll {fs : List (Function V)} (h : r.registerAll fs = (r', none))
    {name : String} {g : Function V} (hg : r.find? name = some g) : r'.find? name = some g := by
  induction fs generalizing r with
  | nil =>
    cases h
    exact hg
  | cons f fs ih =>
    rw [registerAll] at h
    cases hregister : r.register f with
    | ok s =>
      rw [hregister] at h
      exact ih h (find?_of_register hregister hg)
    | error e =>
      rw [hregister] at h
      cases h

/-! ## Two readings of one source -/

theorem mirrors_parse {φ : Function V → Function V}
    (hφ : ∀ name f, r.find? name = some f → r'.find? name = some (φ f)) (source : String) :
    Mirrors r r' id (Expr.withFunctions φ) (Expr.parse r source) (Expr.parse r' source) := by
  have hmirrors := mirrors_ofTokens (ω := id) hφ (scan source).marks (scan source).stop
  rwa [funext Token.moved_id, List.map_id', Stop.moved_id] at hmirrors

/-- A registry to which functions are added reads what was read before as the same expression, and
refuses what was refused before for the same reason unless a function was missing. Registries with the
same names refuse the same sources for the same reasons, and read all others as trees that differ in
their functions only and are shown alike. -/
theorem parse_registries (r r' : Registry V) (source : String) :
    (∀ fs, r.registerAll fs = (r', none) →
      (∀ e, Expr.parse r source = .ok e → Expr.parse r' source = .ok e) ∧
      (∀ err, Expr.parse r source = .error err → (∀ name offset, err ≠ .unknownFunction name offset) →
        Expr.parse r' source = .error err)) ∧
    ((∀ name, name ∈ r.names ↔ name ∈ r'.names) →
      Expr.parse r' source = (Expr.parse r source).map (Expr.calling r') ∧
      ∀ e : Expr V, (e.calling r').render = e.render) := by
  constructor
  · intro fs hfs
    have hfound : ∀ name f, r.find? name = some f → r'.find? name = some (id f) :=
      fun name f hf => Registry.find?_of_registerAll hfs hf
    have hmirrors := mirrors_parse hfound source
    constructor
    · intro e he
      rw [he] at hmirrors
      rw [hmirrors.of_ok, Expr.withFunctions_id]
    · intro err herr hknown
      rw [herr] at hmirrors
      rw [hmirrors.of_error hknown, ParseError.moved_id]
  · intro hnames
    have hfound : ∀ name f, r.find? name = some f → r'.find? name = some (r'.counterpart f) :=
      Registry.find?_counterpart fun name => (hnames name).mp
    have hmissing : ∀ name, r.find? name = none → r'.find? name = none :=
      Registry.find?_eq_none fun name => (hnames name).mpr
    refine ⟨?_, Expr.render_calling r'⟩
    rw [(mirrors_parse hfound source).eq hmissing, funext ParseError.moved_id]
    cases Expr.parse r source <;> rfl

/-- A registry with one more function, and one with a twin of the function that there is. -/
theorem parse_registries_twin :
    let f : Function Vocabulary.empty := ⟨0, "f", ⟨"", []⟩, .builtin .nil⟩
    let g : Function Vocabulary.empty := ⟨0, "g", ⟨"", []⟩, .builtin .nil⟩
    let twin : Function Vocabulary.empty := ⟨1, "f", ⟨"", []⟩, .builtin .not⟩
    let r := (Registry.empty.registerAll [f]).1
    let grown := (r.registerAll [g]).1
    let other := (Registry.empty.registerAll [twin]).1
    r.registerAll [g] = (grown, none) ∧ (∀ name, name ∈ r.names ↔ name ∈ other.names) ∧
      Expr.parse grown "f(x)" = .ok (.call f [.lookup "x"] 0) ∧
      Expr.parse grown "f(x" = .error (.unclosedParenthesis "f" 0) ∧
      Expr.parse other "f(x)" = .ok (.call twin [.lookup "x"] 0) := by
  intro f g twin r grown other
  have hgrown : r.registerAll [g] = (grown, none) := Prod.ext rfl (by decide +kernel)
  have hnames : ∀ name, name ∈ r.names ↔ name ∈ other.names := by
    have heq : r.names = other.names := by decide +kernel
    exact fun name => by rw [heq]
  have hfound : r.find? "f" = some f := by decide +kernel
  have harguments : IsArguments r
      [⟨.leftParenthesis, "("⟩, ⟨.identifier, "x"⟩, ⟨.rightParenthesis, ")"⟩] [.lookup "x"] :=
    .some (.one (.operand (.chain .lookup)))
  have hread : Expr.parse r "f(x)" = .ok (.call f [.lookup "x"] 0) :=
    parse_of_words (by decide +kernel) (by decide +kernel)
      (.operand (.chain (.call hfound harguments .absent)))
  have hrefused : Expr.parse r "f(x" = .error (.unclosedParenthesis "f" 0) :=
    map_eq_error_iff.mp (show (Expr.parse r "f(x").map (fun _ => ()) = _ by decide +kernel)
  have htwin : other.counterpart f = twin := by decide +kernel
  refine ⟨hgrown, hnames, ?_, ?_, ?_⟩
  · exact ((parse_registries r grown _).1 [g] hgrown).1 _ hread
  · exact ((parse_registries r grown _).1 [g] hgrown).2 _ hrefused nofun
  · rw [((parse_registries r other _).2 hnames).1, hread]
    exact congrArg (fun f => Except.ok (Expr.call f [.lookup "x"] 0)) htwin

end ExprLang
