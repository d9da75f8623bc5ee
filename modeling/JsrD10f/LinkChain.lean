import Mathlib.Logic.Function.Basic

/-!
# NULL-terminated singly linked chains

`Chain next p l` says that following the `next` pointers from `p` visits
exactly the cells of `l`, in order, and then meets NULL.  The pointers are a
plain function, so a heap of any layout can be read through it.  The file has
the three updates a hand-rolled list makes: a push at the front, an unlink at
the front and an unlink behind a predecessor.
-/

namespace LinkChain

variable {α : Type*}

/-- The cells met from `p` before NULL. -/
def Chain (next : α → Option α) : Option α → List α → Prop
  | p, [] => p = none
  | p, a :: l => p = some a ∧ Chain next (next a) l

@[simp] theorem chain_nil {next : α → Option α} {p : Option α} :
    Chain next p [] ↔ p = none := Iff.rfl

@[simp] theorem chain_cons {next : α → Option α} {p : Option α} {a : α} {l : List α} :
    Chain next p (a :: l) ↔ p = some a ∧ Chain next (next a) l := Iff.rfl

theorem chain_none {next : α → Option α} {l : List α} (h : Chain next none l) :
    l = [] := by
  cases l with
  | nil => rfl
  | cons a l => exact absurd h.1 (by simp)

theorem chain_some {next : α → Option α} {a : α} {l : List α}
    (h : Chain next (some a) l) : ∃ t, l = a :: t ∧ Chain next (next a) t := by
  cases l with
  | nil => exact absurd h (by simp)
  | cons b t =>
      obtain ⟨hab, ht⟩ := h
      cases hab
      exact ⟨t, rfl, ht⟩

theorem chain_head {next : α → Option α} {p : Option α} {l : List α}
    (h : Chain next p l) : p = l.head? := by
  cases l with
  | nil => exact h
  | cons a l => exact h.1

/-- The pointer of a cell leads to the cell behind it. -/
theorem chain_next {next : α → Option α} {p : Option α} {l r : List α} {b : α}
    (h : Chain next p (l ++ b :: r)) : next b = r.head? := by
  induction l generalizing p with
  | nil => exact chain_head h.2
  | cons a l ih => exact ih h.2

/-- The pointers determine the visited cells. -/
theorem chain_unique {next : α → Option α} {p : Option α} {l m : List α}
    (hl : Chain next p l) (hm : Chain next p m) : l = m := by
  induction l generalizing p m with
  | nil =>
      cases hl
      exact (chain_none hm).symm
  | cons a l ih =>
      obtain ⟨rfl, hl⟩ := hl
      obtain ⟨t, rfl, ht⟩ := chain_some hm
      rw [ih hl ht]

/-- A chain continues as a chain from each of its cells. -/
theorem chain_suffix {next : α → Option α} {p : Option α} {l r : List α}
    (h : Chain next p (l ++ r)) : ∃ q, Chain next q r := by
  induction l generalizing p with
  | nil => exact ⟨p, h⟩
  | cons a l ih => exact ih h.2

/-- A chain that reaches NULL repeats no cell: from a repeated cell the walk
would have two different lengths. -/
theorem chain_nodup {next : α → Option α} {p : Option α} {l : List α}
    (h : Chain next p l) : l.Nodup := by
  induction l generalizing p with
  | nil => exact List.nodup_nil
  | cons a l ih =>
      refine List.nodup_cons.mpr ⟨?_, ih h.2⟩
      intro ha
      obtain ⟨l₁, l₂, rfl⟩ := List.append_of_mem ha
      obtain ⟨q, hq⟩ := chain_suffix h.2
      obtain ⟨rfl, htail⟩ := hq
      have heq := chain_unique h.2 htail
      have hlen := congrArg List.length heq
      simp at hlen
      omega

/-- Only the pointers of the visited cells matter. -/
theorem chain_congr {next next' : α → Option α} {p : Option α} {l : List α}
    (heq : ∀ a ∈ l, next' a = next a) (h : Chain next p l) : Chain next' p l := by
  induction l generalizing p with
  | nil => exact h
  | cons a l ih =>
      refine ⟨h.1, ?_⟩
      rw [heq a List.mem_cons_self]
      exact ih (fun b hb => heq b (List.mem_cons_of_mem _ hb)) h.2

variable [DecidableEq α]

/-- Push a cell that is not yet on the chain. -/
theorem chain_push {next : α → Option α} {p : Option α} {l : List α} {a : α}
    (ha : a ∉ l) (h : Chain next p l) :
    Chain (Function.update next a p) (some a) (a :: l) := by
  refine ⟨rfl, ?_⟩
  rw [Function.update_self]
  refine chain_congr ?_ h
  intro b hb
  refine Function.update_of_ne ?_ _ _
  rintro rfl
  exact ha hb

/-- Unlink the cell behind a predecessor by redirecting the predecessor. -/
theorem chain_unlink {next : α → Option α} {p : Option α} {l r : List α} {b a : α}
    (h : Chain next p (l ++ b :: a :: r)) :
    Chain (Function.update next b (next a)) p (l ++ b :: r) := by
  have hnd := chain_nodup h
  induction l generalizing p with
  | nil =>
      refine ⟨h.1, ?_⟩
      rw [Function.update_self]
      refine chain_congr ?_ h.2.2
      intro c hc
      refine Function.update_of_ne ?_ _ _
      rintro rfl
      simp only [List.nil_append, List.nodup_cons, List.mem_cons] at hnd
      exact hnd.1 (Or.inr hc)
  | cons c l ih =>
      refine ⟨h.1, ?_⟩
      have hcb : c ≠ b := by
        rintro rfl
        exact (List.nodup_cons.mp hnd).1 (by simp)
      rw [Function.update_of_ne hcb]
      exact ih h.2 (List.nodup_cons.mp hnd).2

end LinkChain
