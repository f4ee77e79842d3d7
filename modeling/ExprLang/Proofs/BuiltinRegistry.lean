import ExprLang.Registry

/-!
# The registry of the built-in functions

Functions with names of their own that a registry can hold are all registered, in whatever order they
come. The built-in functions are such, so a source finds every one of them under its name.

Main statement: `Registry.find?_withBuiltins`.
-/

namespace ExprLang

variable {V : Vocabulary}

namespace Registry

variable {r : Registry V} {fs : List (Function V)}

theorem exists_register {f : Function V} (hname : isFunctionName f.name = true)
    (hfresh : r.find? f.name = none) : ∃ s, r.register f = .ok s := by
  have hne : f.name ≠ "" := by
    intro hempty
    rw [hempty] at hname
    cases hname
  have hcontains : ¬ r.contains f.name = true := by
    show ¬ (r.find? f.name).isSome = true
    rw [hfresh]
    exact Bool.false_ne_true
  unfold register
  rw [if_neg hne, dif_pos hname, if_neg hcontains]
  exact ⟨_, rfl⟩

theorem find?_registerAll_of_forall_ne {name : String} (h : ∀ f ∈ fs, name ≠ f.name) :
    (r.registerAll fs).1.find? name = r.find? name := by
  induction fs generalizing r with
  | nil => rfl
  | cons f rest ih =>
    rw [registerAll]
    cases hregister : r.register f with
    | error e => rfl
    | ok s =>
      have hrest := ih (r := s) fun g hg => h g (List.mem_cons_of_mem f hg)
      exact hrest.trans (by rw [find?_register hregister, if_neg (h f List.mem_cons_self)])

theorem find?_registerAll (hnames : ∀ f ∈ fs, isFunctionName f.name = true)
    (hfresh : ∀ f ∈ fs, r.find? f.name = none) (happart : fs.Pairwise (·.name ≠ ·.name)) :
    ∀ f ∈ fs, (r.registerAll fs).1.find? f.name = some f := by
  induction fs generalizing r with
  | nil => exact nofun
  | cons f rest ih =>
    obtain ⟨hothers, hrest⟩ := List.pairwise_cons.mp happart
    obtain ⟨s, hregister⟩ := exists_register (hnames f List.mem_cons_self)
      (hfresh f List.mem_cons_self)
    rw [registerAll, hregister]
    intro g hg
    rcases List.mem_cons.mp hg with rfl | hg
    · have hkept := find?_registerAll_of_forall_ne (r := s) hothers
      exact hkept.trans (by rw [find?_register hregister, if_pos rfl])
    · refine ih (fun g hg => hnames g (List.mem_cons_of_mem f hg)) (fun g hg => ?_) hrest g hg
      rw [find?_register hregister, if_neg (hothers g hg).symm]
      exact hfresh g (List.mem_cons_of_mem f hg)

theorem find?_withBuiltins (stamp : Nat) (b : Builtin) :
    (withBuiltins stamp : Registry V).find? b.name = some (b.toFunction stamp) := by
  have hnames : ∀ b ∈ Builtin.all, isFunctionName b.name = true := by
    decide +kernel
  have happart : Builtin.all.Pairwise (·.name ≠ ·.name) := by
    decide +kernel
  refine find?_registerAll ?_ (fun f _ => rfl) (List.pairwise_map.mpr happart) _
    (List.mem_map_of_mem (Builtin.mem_all b))
  intro f hf
  obtain ⟨b, hb, rfl⟩ := List.mem_map.mp hf
  exact hnames b hb

end Registry

end ExprLang
