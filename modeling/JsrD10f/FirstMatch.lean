import Mathlib.Data.List.MinMax

/-!
# The first rule that fits and the best one

A table of rules is searched from the top, and the first rule that fits is taken.
Every rule also has a weight, and the best rules are the heaviest of those that fit.
The two agree on a value of the rules if no rule stands above one that may fit at
the same time, has no less weight and has another value (`Ordered`).
-/

namespace FirstMatch

variable {ρ β : Type} (fits : ρ → Bool) (weight : ρ → Nat) (value : ρ → β)

/-- A rule that fits, and none that fits is heavier. -/
structure Best (rules : List ρ) (best : ρ) : Prop where
  mem : best ∈ rules
  applies : fits best = true
  heaviest : ∀ r ∈ rules, fits r = true → weight r ≤ weight best

/-- No rule hides a rule that fits as well, has at least its weight and another value. -/
def Ordered (rules : List ρ) : Prop :=
  rules.Pairwise fun r r' =>
    fits r = true → fits r' = true → weight r ≤ weight r' → value r = value r'

variable {fits weight value}

/-- There is a best rule as soon as one fits. -/
theorem exists_best {rules : List ρ} {r : ρ} (hr : r ∈ rules) (hfits : fits r = true) :
    ∃ best, Best fits weight rules best := by
  have hmem : r ∈ rules.filter fits := List.mem_filter.mpr ⟨hr, hfits⟩
  cases hbest : (rules.filter fits).argmax weight with
  | none =>
      rw [List.argmax_eq_none.mp hbest] at hmem
      exact absurd hmem List.not_mem_nil
  | some best =>
      obtain ⟨hmemBest, hfitsBest⟩ := List.mem_filter.mp (List.argmax_mem hbest)
      refine ⟨best, hmemBest, hfitsBest, fun r' hr' hfits' => ?_⟩
      exact List.le_of_mem_argmax (List.mem_filter.mpr ⟨hr', hfits'⟩) hbest

/-- The first rule that fits has the value of every best rule. -/
theorem value_first_eq {rules : List ρ} (hordered : Ordered fits weight value rules)
    {first best : ρ} (hfirst : rules.find? fits = some first)
    (hbest : Best fits weight rules best) : value first = value best := by
  obtain ⟨hfits, before, after, rfl, hbefore⟩ := List.find?_eq_some_iff_append.mp hfirst
  have hweight := hbest.heaviest first (by simp) hfits
  rcases List.mem_append.mp hbest.mem with hearly | hlate
  · -- nothing above the first rule fits
    have hno := hbefore best hearly
    rw [hbest.applies] at hno
    cases hno
  · rcases List.mem_cons.mp hlate with rfl | hafter
    · rfl
    · obtain ⟨-, htail, -⟩ := List.pairwise_append.mp hordered
      exact (List.pairwise_cons.mp htail).1 best hafter hfits hbest.applies hweight

end FirstMatch
