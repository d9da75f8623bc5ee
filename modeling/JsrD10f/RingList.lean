import Mathlib.Data.List.Basic
import Mathlib.Logic.Function.Basic
import Mathlib.Tactic.Tauto

/-!
# Circular doubly linked lists with a sentinel

An intrusive list keeps its `next` and `prev` pointers inside the listed
records, and an empty list is a sentinel that points to itself.  `Seg` is a
stretch of such a list between two end nodes, with both pointers of every
neighbouring pair; `Ring` closes a stretch at the sentinel.  Both read the
pointers through a `Links` value, so that several lists may share one memory.

The two updates are the ones intrusive list code makes: `insertBefore` writes
four pointers, `unlink` writes four.  Each has one lemma for the list it
changes and one frame lemma for a ring it does not meet.
-/

namespace RingList

variable {α : Type*}

/-- The pointer fields of all nodes; `none` is NULL. -/
@[ext] structure Links (α : Type*) where
  next : α → Option α
  prev : α → Option α

/-- The nodes of `l` lie, in order, between `a` and `b`, and neighbouring
nodes point to each other. -/
def Seg (k : Links α) : α → List α → α → Prop
  | a, [], b => k.next a = some b ∧ k.prev b = some a
  | a, x :: l, b => k.next a = some x ∧ k.prev x = some a ∧ Seg k x l b

/-- A circular list: the sentinel `s`, then the members `l`, then `s` again. -/
structure Ring (k : Links α) (s : α) (l : List α) : Prop where
  seg : Seg k s l s
  nodup : (s :: l).Nodup

theorem seg_append {k : Links α} {a x b : α} {l r : List α} :
    Seg k a (l ++ x :: r) b ↔ Seg k a l x ∧ Seg k x r b := by
  induction l generalizing a with
  | nil => simp [Seg, and_assoc]
  | cons y l ih => simp [Seg, ih, and_assoc]

/-- The pointers determine what lies between two nodes. -/
theorem seg_unique {k : Links α} {a b : α} {l l' : List α} (h : Seg k a l b)
    (h' : Seg k a l' b) (hb : b ∉ l) (hb' : b ∉ l') : l = l' := by
  induction l generalizing a l' with
  | nil =>
      cases l' with
      | nil => rfl
      | cons x l' =>
          have hx : b = x := Option.some.inj (h.1.symm.trans h'.1)
          exact absurd (hx ▸ List.mem_cons_self) hb'
  | cons x l ih =>
      cases l' with
      | nil =>
          have hx : b = x := Option.some.inj (h'.1.symm.trans h.1)
          exact absurd (hx ▸ List.mem_cons_self) hb
      | cons y l' =>
          have hxy : x = y := Option.some.inj (h.1.symm.trans h'.1)
          subst hxy
          rw [ih h.2.2 h'.2.2 (fun hm => hb (List.mem_cons_of_mem x hm))
            (fun hm => hb' (List.mem_cons_of_mem x hm))]

/-- A circular list has one list of members. -/
theorem ring_unique {k : Links α} {s : α} {l l' : List α} (h : Ring k s l) (h' : Ring k s l') :
    l = l' :=
  seg_unique h.seg h'.seg (List.nodup_cons.mp h.nodup).1 (List.nodup_cons.mp h'.nodup).1

/-- The first pointer of a stretch. -/
theorem Seg.next_eq {k : Links α} {a b : α} {l : List α} (h : Seg k a l b) :
    k.next a = some ((l ++ [b]).head (by simp)) := by
  cases l with
  | nil => exact h.1
  | cons x l => exact h.1

/-- The last pointer of a stretch. -/
theorem Seg.prev_eq {k : Links α} {a b : α} {l : List α} (h : Seg k a l b) :
    k.prev b = some ((a :: l).getLast (by simp)) := by
  induction l generalizing a with
  | nil => exact h.2
  | cons x l ih =>
      rw [List.getLast_cons_cons]
      exact ih h.2.2

/-- Every node of a stretch but the end has a successor. -/
theorem Seg.next_isSome {k : Links α} {a b : α} {l : List α} (h : Seg k a l b) :
    ∀ x ∈ a :: l, (k.next x).isSome := by
  induction l generalizing a with
  | nil =>
      intro x hx
      have hxa : x = a := by simpa using hx
      rw [hxa, h.1]
      rfl
  | cons y l ih =>
      intro x hx
      rcases List.mem_cons.mp hx with hxa | hxl
      · rw [hxa, h.1]
        rfl
      · exact ih h.2.2 x hxl

/-- A stretch reads `next` everywhere but at its end and `prev` everywhere but
at its start. -/
theorem seg_congr {k k' : Links α} {a b : α} {l : List α}
    (hnext : ∀ x ∈ a :: l, k'.next x = k.next x)
    (hprev : ∀ x ∈ l ++ [b], k'.prev x = k.prev x) (h : Seg k a l b) :
    Seg k' a l b := by
  induction l generalizing a with
  | nil =>
      refine ⟨?_, ?_⟩
      · rw [hnext a (by simp)]
        exact h.1
      · rw [hprev b (by simp)]
        exact h.2
  | cons x l ih =>
      refine ⟨?_, ?_, ?_⟩
      · rw [hnext a (by simp)]
        exact h.1
      · rw [hprev x (by simp)]
        exact h.2.1
      · refine ih ?_ ?_ h.2.2
        · exact fun y hy => hnext y (List.mem_cons_of_mem _ hy)
        · exact fun y hy => hprev y (by simp at hy ⊢; tauto)

/-- Rings only read the pointers of their own nodes. -/
theorem ring_congr {k k' : Links α} {s : α} {l : List α}
    (hnext : ∀ x ∈ s :: l, k'.next x = k.next x)
    (hprev : ∀ x ∈ s :: l, k'.prev x = k.prev x) (h : Ring k s l) :
    Ring k' s l := by
  refine ⟨seg_congr hnext ?_ h.seg, h.nodup⟩
  intro x hx
  exact hprev x (by simp at hx ⊢; tauto)

/-- Redirect the end of a stretch to another node. -/
theorem seg_retarget {k k' : Links α} {a b c : α} {l : List α}
    (hnd : (a :: l).Nodup) (hb : b ∉ l)
    (hlast : k'.next ((a :: l).getLast (by simp)) = some c)
    (hc : k'.prev c = some ((a :: l).getLast (by simp)))
    (hnext : ∀ x ∈ a :: l, x ≠ (a :: l).getLast (by simp) → k'.next x = k.next x)
    (hprev : ∀ x ∈ l, x ≠ b → k'.prev x = k.prev x)
    (h : Seg k a l b) : Seg k' a l c := by
  induction l generalizing a with
  | nil => exact ⟨hlast, hc⟩
  | cons x l ih =>
      have hnd' := List.nodup_cons.mp hnd
      rw [List.getLast_cons_cons] at hlast hc
      have hxb : x ≠ b := by
        rintro rfl
        exact hb (by simp)
      refine ⟨?_, ?_, ?_⟩
      · rw [hnext a (by simp)]
        · exact h.1
        · intro heq
          apply hnd'.1
          rw [heq]
          exact List.getLast_mem _
      · rw [hprev x (by simp) hxb]
        exact h.2.1
      · refine ih hnd'.2 (fun hbl => hb (List.mem_cons_of_mem _ hbl)) hlast hc ?_ ?_ h.2.2
        · intro y hy hne
          refine hnext y (List.mem_cons_of_mem _ hy) ?_
          rwa [List.getLast_cons_cons]
        · exact fun y hy => hprev y (List.mem_cons_of_mem _ hy)

theorem nodup_middle {e : α} {m r : List α} :
    (m ++ e :: r).Nodup ↔ e ∉ m ++ r ∧ (m ++ r).Nodup := by
  rw [List.perm_middle.nodup_iff, List.nodup_cons]

/-- In a ring `s, l, x, r` without `e`, the part from `x` on meets neither the
end of the part before it nor `e`, and `x` does not come again. -/
theorem tail_apart {s e x : α} {l r : List α} (hnd : (s :: l ++ x :: r).Nodup)
    (he : e ∉ s :: l ++ x :: r) :
    (∀ y ∈ x :: r, y ≠ (s :: l).getLast (by simp) ∧ y ≠ e) ∧
      ∀ y ∈ r ++ [s], y ≠ x ∧ y ≠ e := by
  obtain ⟨hndl, hndr, hdis⟩ := List.nodup_append.mp hnd
  have hxl : x ∉ s :: l := fun hm => hdis x hm x List.mem_cons_self rfl
  constructor
  · intro y hy
    refine ⟨fun heq => hdis y (heq ▸ List.getLast_mem _) y hy rfl, ?_⟩
    rintro rfl
    exact he (List.mem_append_right (s :: l) hy)
  · intro y hy
    rcases List.mem_append.mp hy with hyr | hys
    · refine ⟨?_, ?_⟩
      · rintro rfl
        exact (List.nodup_cons.mp hndr).1 hyr
      · rintro rfl
        exact he (by simp [hyr])
    · obtain rfl : y = s := by simpa using hys
      refine ⟨?_, ?_⟩
      · rintro rfl
        exact hxl (by simp)
      · rintro rfl
        exact he (by simp)

variable [DecidableEq α]

/-- Put `e` between `p` and `x`, in the order list code writes the pointers. -/
def Links.insertBefore (k : Links α) (e p x : α) : Links α where
  next := Function.update (Function.update k.next e (some x)) p (some e)
  prev := Function.update (Function.update k.prev e (some p)) x (some e)

/-- Take `e` out from between `p` and `x` and clear its own pointers. -/
def Links.unlink (k : Links α) (e p x : α) : Links α where
  next := Function.update (Function.update k.next p (some x)) e none
  prev := Function.update (Function.update k.prev x (some p)) e none

/-- A new node at the end of a stretch. -/
theorem seg_insertBefore {k : Links α} {a x e : α} {l : List α}
    (hnd : (a :: l).Nodup) (hx : x ∉ l) (he : e ∉ a :: l) (hex : e ≠ x)
    (h : Seg k a l x) :
    Seg (k.insertBefore e ((a :: l).getLast (by simp)) x) a (l ++ [e]) x := by
  have hlast : (a :: l).getLast (by simp) ≠ e :=
    fun heq => he (heq ▸ List.getLast_mem _)
  refine seg_append.mpr ⟨seg_retarget hnd hx ?_ ?_ ?_ ?_ h, ?_, ?_⟩
  · simp [Links.insertBefore]
  · simp [Links.insertBefore, hex]
  · intro y hy hne
    have hye : y ≠ e := fun heq => he (heq ▸ hy)
    simp [Links.insertBefore, hne, hye]
  · intro y hy hne
    have hye : y ≠ e := fun heq => he (heq ▸ List.mem_cons_of_mem _ hy)
    simp [Links.insertBefore, hne, hye]
  · simp [Links.insertBefore, hlast.symm]
  · simp [Links.insertBefore]

/-- Taking out the last node of a stretch. -/
theorem seg_unlink {k : Links α} {a x e : α} {l : List α}
    (hnd : (a :: l).Nodup) (hx : x ∉ l) (he : e ∉ a :: l) (hex : e ≠ x)
    (h : Seg k a (l ++ [e]) x) :
    Seg (k.unlink e ((a :: l).getLast (by simp)) x) a l x := by
  have hlast : (a :: l).getLast (by simp) ≠ e :=
    fun heq => he (heq ▸ List.getLast_mem _)
  refine seg_retarget hnd (fun hm => he (List.mem_cons_of_mem _ hm)) ?_ ?_ ?_ ?_
    (seg_append.mp h).1
  · simp [Links.unlink, hlast]
  · simp [Links.unlink, hex.symm]
  · intro y hy hne
    have hye : y ≠ e := fun heq => he (heq ▸ hy)
    simp [Links.unlink, hne, hye]
  · intro y hy hne
    have hyx : y ≠ x := fun heq => hx (heq ▸ hy)
    simp [Links.unlink, hne, hyx]

/-- Neither update touches a ring that holds none of the three nodes. -/
theorem ring_frame {k : Links α} {s e p x : α} {l : List α}
    (he : e ∉ s :: l) (hp : p ∉ s :: l) (hx : x ∉ s :: l) (h : Ring k s l) :
    Ring (k.insertBefore e p x) s l ∧ Ring (k.unlink e p x) s l := by
  have hne : ∀ y ∈ s :: l, y ≠ e ∧ y ≠ p ∧ y ≠ x := by
    intro y hy
    exact ⟨fun heq => he (heq ▸ hy), fun heq => hp (heq ▸ hy), fun heq => hx (heq ▸ hy)⟩
  constructor
  · refine ring_congr ?_ ?_ h
    · intro y hy
      simp [Links.insertBefore, hne y hy]
    · intro y hy
      simp [Links.insertBefore, hne y hy]
  · refine ring_congr ?_ ?_ h
    · intro y hy
      simp [Links.unlink, hne y hy]
    · intro y hy
      simp [Links.unlink, hne y hy]

/-- Inserting before the node that follows `l` puts the new node behind `l`. -/
theorem ring_insertBefore {k : Links α} {s e : α} {l r : List α}
    (he : e ∉ s :: (l ++ r)) (h : Ring k s (l ++ r)) :
    Ring (k.insertBefore e ((s :: l).getLast (by simp)) ((r ++ [s]).head (by simp)))
      s (l ++ e :: r) := by
  have hnd : ((s :: l) ++ r).Nodup := h.nodup
  obtain ⟨hndl, hndr, hdis⟩ := List.nodup_append.mp hnd
  have hel : e ∉ s :: l := fun hm => he (List.mem_append_left r hm)
  refine ⟨?_, nodup_middle.mpr ⟨he, hnd⟩⟩
  cases r with
  | nil =>
      have hseg : Seg k s l s := by simpa using h.seg
      have hes : e ≠ s := fun heq => hel (heq ▸ List.mem_cons_self)
      exact seg_insertBefore hndl (List.nodup_cons.mp hndl).1 hel hes hseg
  | cons x r =>
      obtain ⟨hleft, hright⟩ := seg_append.mp h.seg
      have hxl : x ∉ s :: l := fun hm => hdis x hm x List.mem_cons_self rfl
      have hex : e ≠ x := fun heq => he (by simp [heq])
      have hnew := seg_insertBefore hndl (fun hm => hxl (List.mem_cons_of_mem _ hm))
        hel hex hleft
      have hsplit : l ++ e :: x :: r = (l ++ [e]) ++ x :: r := by simp
      rw [hsplit]
      obtain ⟨hapart, hback⟩ := tail_apart hnd he
      refine seg_append.mpr ⟨hnew, seg_congr ?_ ?_ hright⟩
      · intro y hy
        simp [Links.insertBefore, hapart y hy]
      · intro y hy
        simp [Links.insertBefore, hback y hy]

/-- Unlinking a member leaves the ring of the others. -/
theorem ring_unlink {k : Links α} {s e : α} {l r : List α}
    (h : Ring k s (l ++ e :: r)) :
    Ring (k.unlink e ((s :: l).getLast (by simp)) ((r ++ [s]).head (by simp)))
      s (l ++ r) := by
  obtain ⟨he, hnd⟩ := (nodup_middle (m := s :: l)).mp h.nodup
  obtain ⟨hndl, hndr, hdis⟩ := List.nodup_append.mp hnd
  have hel : e ∉ s :: l := fun hm => he (List.mem_append_left r hm)
  refine ⟨?_, hnd⟩
  cases r with
  | nil =>
      have hes : e ≠ s := fun heq => hel (heq ▸ List.mem_cons_self)
      have hnew := seg_unlink hndl (List.nodup_cons.mp hndl).1 hel hes h.seg
      simpa using hnew
  | cons x r =>
      have hseg := h.seg
      have hsplit : l ++ e :: x :: r = (l ++ [e]) ++ x :: r := by simp
      rw [hsplit] at hseg
      obtain ⟨hleft, hright⟩ := seg_append.mp hseg
      have hxl : x ∉ s :: l := fun hm => hdis x hm x List.mem_cons_self rfl
      have hex : e ≠ x := fun heq => he (by simp [heq])
      obtain ⟨hapart, hback⟩ := tail_apart hnd he
      refine seg_append.mpr ⟨seg_unlink hndl (fun hm => hxl (List.mem_cons_of_mem _ hm))
        hel hex hleft, seg_congr ?_ ?_ hright⟩
      · intro y hy
        simp [Links.unlink, hapart y hy]
      · intro y hy
        simp [Links.unlink, hback y hy]

end RingList
