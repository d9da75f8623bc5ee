import Mathlib.Logic.Basic

/-!
# Finite runs of a partial step function

A system is given by a partial step function: a label picks one of the moves
that are open in a state, and `none` says that the move cannot be made there.
A run is a list of labels.  This file has the rules every safety proof of the
development goes through: a property kept by each step is kept by a whole run,
a system whose steps cannot get stuck has a result for every run, and a run may
be cut at any label.  `Along` restricts a run to steps that meet a condition on
the state they start from; without a condition the rules are used at
`fun _ _ => True`.
-/

namespace Runs

variable {σ ℓ : Type*}

/-- The state after a list of labels. -/
def exec (step : σ → ℓ → Option σ) : σ → List ℓ → Option σ
  | s, [] => some s
  | s, a :: as => (step s a).bind (fun t => exec step t as)

/-- Every step of the run starts in a state that meets `ok` for its label. -/
def Along (step : σ → ℓ → Option σ) (ok : σ → ℓ → Prop) : σ → List ℓ → Prop
  | _, [] => True
  | s, a :: as => ok s a ∧ ∀ t, step s a = some t → Along step ok t as

@[simp] theorem exec_nil (step : σ → ℓ → Option σ) (s : σ) :
    exec step s [] = some s := rfl

theorem exec_cons_some {step : σ → ℓ → Option σ} {s u : σ} {a : ℓ} {as : List ℓ} :
    exec step s (a :: as) = some u ↔
      ∃ t, step s a = some t ∧ exec step t as = some u := by
  simp [exec, Option.bind_eq_some_iff]

/-- A condition that always holds restricts no run. -/
theorem along_true (step : σ → ℓ → Option σ) (s : σ) (as : List ℓ) :
    Along step (fun _ _ => True) s as := by
  induction as generalizing s with
  | nil => trivial
  | cons a as ih => exact ⟨trivial, fun t _ => ih t⟩

/-- A decidable condition is decided along a whole run. -/
instance decidableAlong {step : σ → ℓ → Option σ} {ok : σ → ℓ → Prop}
    [∀ s a, Decidable (ok s a)] : ∀ s as, Decidable (Along step ok s as)
  | _, [] => isTrue trivial
  | s, a :: as =>
      match hstep : step s a with
      | none => decidable_of_iff (ok s a) (by simp [Along, hstep])
      | some t =>
          have := @decidableAlong step ok _ t as
          decidable_of_iff (ok s a ∧ Along step ok t as) (by simp [Along, hstep])

/-- A run that meets a condition meets every weaker one. -/
theorem along_imp {step : σ → ℓ → Option σ} {ok ok' : σ → ℓ → Prop} {s : σ} {as : List ℓ}
    (himp : ∀ s a, ok s a → ok' s a) (h : Along step ok s as) : Along step ok' s as := by
  induction as generalizing s with
  | nil => trivial
  | cons a as ih => exact ⟨himp s a h.1, fun t ht => ih (h.2 t ht)⟩

/-- Two conditions on one run, the second of them under a hypothesis. -/
theorem along_and_imp {step : σ → ℓ → Option σ} {ok ok' : σ → ℓ → Prop} {Q : Prop} {s : σ}
    {as : List ℓ} (h : Along step ok s as) (h' : Q → Along step ok' s as) :
    Along step (fun s a => ok s a ∧ (Q → ok' s a)) s as := by
  induction as generalizing s with
  | nil => trivial
  | cons a as ih =>
      exact ⟨⟨h.1, fun hq => (h' hq).1⟩, fun t ht => ih (h.2 t ht) (fun hq => (h' hq).2 t ht)⟩

/-- Cut a run at a label. -/
theorem exec_append {step : σ → ℓ → Option σ} {s u : σ} {as bs : List ℓ} :
    exec step s (as ++ bs) = some u ↔
      ∃ t, exec step s as = some t ∧ exec step t bs = some u := by
  induction as generalizing s with
  | nil => simp
  | cons a as ih =>
      simp only [List.cons_append, exec_cons_some, ih]
      constructor
      · rintro ⟨t, ht, v, hv, hu⟩
        exact ⟨v, ⟨t, ht, hv⟩, hu⟩
      · rintro ⟨v, ⟨t, ht, hv⟩, hu⟩
        exact ⟨t, ht, v, hv, hu⟩

/-- **The invariant rule.**  A property of the start that every step keeps,
taken from a state meeting the condition, holds at the end of the run. -/
theorem exec_invariant {step : σ → ℓ → Option σ} {ok : σ → ℓ → Prop}
    {inv : σ → Prop}
    (hstep : ∀ s a t, inv s → ok s a → step s a = some t → inv t)
    {s u : σ} {as : List ℓ} (hs : inv s) (hok : Along step ok s as)
    (hrun : exec step s as = some u) : inv u := by
  induction as generalizing s with
  | nil =>
      cases hrun
      exact hs
  | cons a as ih =>
      obtain ⟨t, ht, hu⟩ := exec_cons_some.mp hrun
      exact ih (hstep s a t hs hok.1 ht) (hok.2 t ht) hu

/-- **The progress rule.**  If every step that meets the condition has a
result and keeps a property, so does every run. -/
theorem exec_progress {step : σ → ℓ → Option σ} {ok : σ → ℓ → Prop}
    (inv : σ → Prop)
    (hstep : ∀ s a, inv s → ok s a → ∃ t, step s a = some t ∧ inv t)
    {s : σ} {as : List ℓ} (hs : inv s) (hok : Along step ok s as) :
    ∃ u, exec step s as = some u ∧ inv u := by
  induction as generalizing s with
  | nil => exact ⟨s, rfl, hs⟩
  | cons a as ih =>
      obtain ⟨t, ht, htinv⟩ := hstep s a hs hok.1
      obtain ⟨u, hu, huinv⟩ := ih htinv (hok.2 t ht)
      exact ⟨u, exec_cons_some.mpr ⟨t, ht, hu⟩, huinv⟩

end Runs
