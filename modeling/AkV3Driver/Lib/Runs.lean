import Mathlib.Data.List.Induction

/-!
# Runs of step functions

A total machine folds its step function over a list of events; a guarded machine
may refuse an event, and then has no run. The rules below are the only inductions
over runs that a development needs: a history-indexed invariant, a simulation in
which one event answers with any number of events of the other machine, and the
erasure of events that change nothing, or nothing that a view shows.
-/

namespace Runs

variable {σ τ ε δ : Type*}

def run (step : σ → ε → σ) (s : σ) (es : List ε) : σ := es.foldl step s

@[simp] theorem run_nil (step : σ → ε → σ) (s : σ) : run step s [] = s := rfl

@[simp] theorem run_cons (step : σ → ε → σ) (s : σ) (e : ε) (es : List ε) :
    run step s (e :: es) = run step (step s e) es := rfl

theorem run_append (step : σ → ε → σ) (s : σ) (es fs : List ε) :
    run step s (es ++ fs) = run step (run step s es) fs := List.foldl_append

/-- Each event of the first machine is answered by the events `label e` of the second. -/
theorem run_simulates {step : σ → ε → σ} {step' : τ → δ → τ} (label : ε → List δ)
    {R : σ → τ → Prop} (hstep : ∀ s t e, R s t → R (step s e) (run step' t (label e)))
    (es : List ε) {s : σ} {t : τ} (h : R s t) :
    R (run step s es) (run step' t (es.flatMap label)) := by
  induction es generalizing s t with
  | nil => exact h
  | cons e es ih =>
    rw [List.flatMap_cons, run_append]
    exact ih (hstep s t e h)

theorem run_related {step : σ → ε → σ} {step' : τ → ε → τ} {R : σ → τ → Prop}
    (hstep : ∀ s t e, R s t → R (step s e) (step' t e)) (es : List ε) {s : σ} {t : τ}
    (h : R s t) : R (run step s es) (run step' t es) := by
  induction es generalizing s t with
  | nil => exact h
  | cons e es ih => exact ih (hstep s t e h)

theorem run_filter {step : σ → ε → σ} (keep : ε → Bool)
    (hskip : ∀ s e, keep e = false → step s e = s) (es : List ε) (s : σ) :
    run step s (es.filter keep) = run step s es := by
  induction es generalizing s with
  | nil => rfl
  | cons e es ih =>
    by_cases hk : keep e
    · rw [List.filter_cons_of_pos hk, run_cons, run_cons, ih]
    · rw [List.filter_cons_of_neg hk, ih, run_cons, hskip s e (by simpa using hk)]

/-- `none` when some event is refused. -/
def guardedRun (step : σ → ε → Option σ) : σ → List ε → Option σ
  | s, [] => some s
  | s, e :: es => (step s e).bind fun t => guardedRun step t es

theorem guardedRun_cons_eq_some {step : σ → ε → Option σ} {s u : σ} {e : ε} {es : List ε} :
    guardedRun step s (e :: es) = some u ↔
      ∃ t, step s e = some t ∧ guardedRun step t es = some u := Option.bind_eq_some_iff

theorem guardedRun_append (step : σ → ε → Option σ) (s : σ) (es fs : List ε) :
    guardedRun step s (es ++ fs) = (guardedRun step s es).bind fun t => guardedRun step t fs := by
  induction es generalizing s with
  | nil => rfl
  | cons e es ih => cases h : step s e <;> simp [guardedRun, h, ih]

theorem guardedRun_history {step : σ → ε → Option σ} {P : List ε → σ → Prop}
    (hstep : ∀ es s e t, P es s → step s e = some t → P (es ++ [e]) t)
    {es : List ε} {s u : σ} (pre : List ε) (h0 : P pre s) (h : guardedRun step s es = some u) :
    P (pre ++ es) u := by
  induction es generalizing s pre with
  | nil =>
    cases h
    simpa using h0
  | cons e es ih =>
    obtain ⟨t, ht, hu⟩ := guardedRun_cons_eq_some.mp h
    simpa using ih (pre ++ [e]) (hstep pre s e t h0 ht) hu

theorem guardedRun_simulates {step : σ → ε → Option σ} {step' : τ → δ → τ} (label : ε → List δ)
    {R : σ → τ → Prop}
    (hstep : ∀ s t e s', R s t → step s e = some s' → R s' (run step' t (label e)))
    {es : List ε} {s u : σ} {t : τ} (h : R s t) (hrun : guardedRun step s es = some u) :
    R u (run step' t (es.flatMap label)) := by
  induction es generalizing s t with
  | nil =>
    cases hrun
    exact h
  | cons e es ih =>
    obtain ⟨s', hs', hu⟩ := guardedRun_cons_eq_some.mp hrun
    rw [List.flatMap_cons, run_append]
    exact ih (hstep s t e s' h hs') hu

/-- Both machines may refuse; the second one accepts the answer to every accepted event. -/
theorem guardedRun_refines {step : σ → ε → Option σ} {step' : τ → δ → Option τ}
    (label : ε → List δ) {R : σ → τ → Prop}
    (hstep : ∀ s t e s', R s t → step s e = some s' →
      ∃ t', guardedRun step' t (label e) = some t' ∧ R s' t')
    {es : List ε} {s u : σ} {t : τ} (h : R s t) (hrun : guardedRun step s es = some u) :
    ∃ v, guardedRun step' t (es.flatMap label) = some v ∧ R u v := by
  induction es generalizing s t with
  | nil =>
    cases hrun
    exact ⟨t, rfl, h⟩
  | cons e es ih =>
    obtain ⟨s', hs', hu⟩ := guardedRun_cons_eq_some.mp hrun
    obtain ⟨t', ht', hR⟩ := hstep s t e s' h hs'
    obtain ⟨v, hv, hRv⟩ := ih hR hu
    refine ⟨v, ?_, hRv⟩
    rw [List.flatMap_cons, guardedRun_append, ht']
    exact hv

theorem guardedRun_map {step : σ → ε → Option σ} {step' : σ → δ → Option σ} (f : ε → δ)
    (hstep : ∀ s e s', step s e = some s' → step' s (f e) = some s') {es : List ε} {s u : σ}
    (hrun : guardedRun step s es = some u) : guardedRun step' s (es.map f) = some u := by
  have hlabel : ∀ s t e s', s = t → step s e = some s' →
      ∃ t', guardedRun step' t [f e] = some t' ∧ s' = t' := by
    rintro s t e s' rfl hs
    exact ⟨s', by simp [guardedRun, hstep s e s' hs], rfl⟩
  obtain ⟨v, hv, rfl⟩ := guardedRun_refines (fun e => [f e]) hlabel rfl hrun
  rwa [← List.map_eq_flatMap] at hv

theorem guardedRun_filter {step step' : σ → ε → Option σ} {R : σ → σ → Prop} (keep : ε → Bool)
    (hskip : ∀ s t e s', R s t → keep e = false → step s e = some s' → R s' t)
    (hkeep : ∀ s t e s', R s t → keep e → step s e = some s' →
      ∃ t', step' t e = some t' ∧ R s' t')
    {es : List ε} {s t u : σ} (h : R s t) (hrun : guardedRun step s es = some u) :
    ∃ v, guardedRun step' t (es.filter keep) = some v ∧ R u v := by
  induction es generalizing s t with
  | nil =>
    cases hrun
    exact ⟨t, rfl, h⟩
  | cons e es ih =>
    obtain ⟨s', hs', hu⟩ := guardedRun_cons_eq_some.mp hrun
    by_cases hk : keep e
    · obtain ⟨t', ht', hR⟩ := hkeep s t e s' h hk hs'
      obtain ⟨v, hv, hRv⟩ := ih hR hu
      refine ⟨v, ?_, hRv⟩
      rw [List.filter_cons_of_pos hk]
      exact guardedRun_cons_eq_some.mpr ⟨t', ht', hv⟩
    · rw [List.filter_cons_of_neg hk]
      exact ih (hskip s t e s' h (by simpa using hk) hs') hu

section Views
variable {ρ : Type*} {step : σ → ε → Option σ} {view : σ → ρ} {keep : ε → Bool}

/-- The events outside `keep` are always accepted and never seen; the others depend on
nothing but the view. -/
structure Unseen (step : σ → ε → Option σ) (view : σ → ρ) (keep : ε → Bool) : Prop where
  skips : ∀ s e, keep e = false → ∃ s', step s e = some s' ∧ view s' = view s
  respects : ∀ s s' e, view s = view s' → (step s e).map view = (step s' e).map view

theorem Unseen.guardedRun_filter (h : Unseen step view keep) (es : List ε) {s s' : σ}
    (hs : view s = view s') :
    (guardedRun step s es).map view = (guardedRun step s' (es.filter keep)).map view := by
  induction es generalizing s s' with
  | nil => exact congrArg some hs
  | cons e es ih =>
    by_cases hk : keep e
    · have hview := h.respects s s' e hs
      rw [List.filter_cons_of_pos hk, guardedRun, guardedRun]
      cases hstep : step s e with
      | none =>
        have hstep' : step s' e = none := by simpa [hstep] using hview.symm
        rw [hstep']
        rfl
      | some u =>
        obtain ⟨u', hstep', hu⟩ : ∃ u', step s' e = some u' ∧ view u' = view u := by
          simpa [hstep] using hview.symm
        rw [hstep']
        exact ih hu.symm
    · obtain ⟨u, hstep, hu⟩ := h.skips s e (by simpa using hk)
      rw [List.filter_cons_of_neg hk, guardedRun, hstep]
      exact ih (hu.trans hs)

end Views

end Runs
