import Mathlib.Data.List.Basic

/-!
# Reading what was written

A reader takes a value off the front of a list and leaves the rest to the next one.
`Takes r w a` says that `r` finds `a` in the word `w` with anything behind it, and
takes `w` and nothing else.  Readers are put together with `<$>` and `<*>`, and the
words they take are appended in the same order, so that a writer and a reader of a
record can be compared field by field.
-/

namespace Reading

/-- A reader takes a value off the front of a list, or fails. -/
abbrev Reader (σ : Type) := StateT (List σ) Option

variable {σ α β ι : Type}

/-- The reader finds `a` in `w`, whatever stands behind it, and takes exactly `w`. -/
def Takes (r : Reader σ α) (w : List σ) (a : α) : Prop :=
  ∀ rest, r.run (w ++ rest) = some (a, rest)

/-- The same reader `n` times. -/
def times : Nat → Reader σ α → Reader σ (List α)
  | 0, _ => pure []
  | n + 1, r => do
      let a ← r
      let as ← times n r
      pure (a :: as)

namespace Takes

theorem pure (a : α) : Takes (Pure.pure a : Reader σ α) [] a :=
  fun _ => rfl

theorem bind {r : Reader σ α} {f : α → Reader σ β} {w w' : List σ} {a : α} {b : β}
    (h : Takes r w a) (h' : Takes (f a) w' b) : Takes (r >>= f) (w ++ w') b := by
  intro rest
  rw [StateT.run_bind, List.append_assoc, h (w' ++ rest)]
  exact h' rest

theorem map {r : Reader σ α} {w : List σ} {a : α} (f : α → β) (h : Takes r w a) :
    Takes (f <$> r) w (f a) := by
  intro rest
  rw [StateT.run_map, h rest]
  rfl

/-- A record is read as it is written, one field after the other. -/
theorem seq {rf : Reader σ (α → β)} {r : Reader σ α} {w w' : List σ} {f : α → β} {a : α}
    (h : Takes rf w f) (h' : Takes r w' a) : Takes (rf <*> r) (w ++ w') (f a) := by
  rw [seq_eq_bind_map]
  exact h.bind (h'.map f)

/-- A list whose entries are written one after the other. -/
theorem times {r : Reader σ α} {word : ι → List σ} {value : ι → α} (l : List ι)
    (h : ∀ i ∈ l, Takes r (word i) (value i)) :
    Takes (Reading.times l.length r) (l.flatMap word) (l.map value) := by
  induction l with
  | nil => exact pure []
  | cons i l ih =>
      have hfirst := h i List.mem_cons_self
      have hrest := ih fun j hj => h j (List.mem_cons_of_mem i hj)
      rw [List.flatMap_cons, List.map_cons, List.length_cons, Reading.times]
      refine hfirst.bind ?_
      rw [← List.append_nil (l.flatMap word)]
      exact hrest.bind (pure _)

/-- Nothing has to be known of what is behind: the word alone is read as well. -/
theorem whole {r : Reader σ α} {w : List σ} {a : α} (h : Takes r w a) :
    r.run w = some (a, []) := by
  have hw := h []
  rwa [List.append_nil] at hw

end Takes

end Reading
