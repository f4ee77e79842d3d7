import ExprLang.Proofs.Completeness
import ExprLang.Proofs.TokenStream

/-!
# What is parsed

A source is parsed as an expression exactly when it is read to its end and its words derive the
expression in the grammar.

Main statement: `parse_eq_ok_iff`.
-/

namespace ExprLang

open Grammar

variable {V : Vocabulary} {r : Registry V} {e e' : Expr V}

theorem exists_tokens (ws : List Word) : ∃ ts : List Token, ts.map Token.word = ws := by
  refine ⟨ws.map fun w => ⟨w.kind, 0, w.text⟩, ?_⟩
  rw [List.map_map]
  exact List.map_id ws

/-- Words derive one expression at most. -/
theorem Grammar.IsExpr.unique {ws : List Word} (h : IsExpr r ws e) (h' : IsExpr r ws e') :
    e = e' := by
  -- Wherever the words stand, a reader of them comes to one end.
  obtain ⟨ts, rfl⟩ := exists_tokens ws
  obtain ⟨s, hrun, hfinish⟩ := Reader.run_of_isExpr h 0
  obtain ⟨s', hrun', hfinish'⟩ := Reader.run_of_isExpr h' 0
  rw [hrun] at hrun'
  cases hrun'
  rw [hfinish] at hfinish'
  exact Except.ok.inj hfinish'

theorem Grammar.IsExpr.ne_nil {ws : List Word} (h : IsExpr r ws e) : ws ≠ [] := by
  rintro rfl
  have hnil : IsExpr r (List.map Token.word []) e := h
  obtain ⟨s, hrun, hfinish⟩ := Reader.run_of_isExpr hnil 0
  cases hrun
  cases hfinish

theorem ofTokens_eq_ok_iff {tokens : List Token} {stop : Stop} :
    Expr.ofTokens r tokens stop = .ok e ↔
      stop.error? = none ∧ IsExpr r (tokens.map Token.word) e := by
  unfold Expr.ofTokens
  rw [Reader.bind_eq_ok_iff]
  constructor
  · rintro ⟨s, hrun, h⟩
    cases stop with
    | failure => cases h
    | endOfSource offset =>
      simp only at h
      split at h
      · cases h
      · exact ⟨rfl, Reader.isExpr_of_run hrun h⟩
  · rintro ⟨hstop, h⟩
    cases stop with
    | failure => cases hstop
    | endOfSource offset =>
      obtain ⟨s, hrun, hfinish⟩ := Reader.run_of_isExpr h offset
      have hne : ¬ tokens.isEmpty = true := by
        rw [List.isEmpty_iff]
        rintro rfl
        exact h.ne_nil rfl
      refine ⟨s, hrun, ?_⟩
      simp only [if_neg hne]
      exact hfinish

theorem error?_scan_eq_none_iff {source : String} :
    (scan source).stop.error? = none ↔ ∀ t ∈ (scan source).all, t.kind ≠ .error := by
  constructor
  · intro hstop t ht
    rcases List.mem_append.mp ht with ht | ht
    · exact ((partition_scan source).inner t ht).1
    · obtain rfl := List.mem_singleton.mp ht
      cases hs : (scan source).stop with
      | endOfSource offset => exact TokenKind.noConfusion
      | failure offset error =>
        rw [hs] at hstop
        cases hstop
  · intro hall
    cases hs : (scan source).stop with
    | endOfSource offset => rfl
    | failure offset error =>
      have hne := hall _ (scan source).token_mem_all
      rw [hs] at hne
      exact absurd rfl hne

theorem parse_of_words {source : String} {ws : List Word} (hstop : (scan source).stop.error? = none)
    (hwords : (scan source).words = ws) (h : IsExpr r ws e) : Expr.parse r source = .ok e := by
  subst hwords
  exact ofTokens_eq_ok_iff.mpr ⟨hstop, h⟩

/-- A source parses as `e` exactly when no token of it is an error and its words derive `e`. -/
theorem parse_eq_ok_iff (r : Registry V) (source : String) (e : Expr V) :
    Expr.parse r source = .ok e ↔
      (∀ t ∈ (scan source).all, t.kind ≠ .error) ∧ IsExpr r (scan source).words e := by
  rw [← error?_scan_eq_none_iff]
  exact ofTokens_eq_ok_iff

end ExprLang
