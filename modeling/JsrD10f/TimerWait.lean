import JsrD10f.TimerRuns

/-!
# Waiting for the next timer

Before it calls `select` the event loop asks `calcNextTimeout` how long to wait, and
behind `select` it runs `processTimeouts`.  The first function takes a timer as expired
from its deadline on, the second only behind its deadline.  At the deadline itself the
loop is told not to wait, and nothing is moved.

This file compares the two for every list of timers, and says when they agree.
-/

namespace RilEvent

open RingList

def timersub (a b : Timeval) : Timeval :=
  let sec := a.tvSec - b.tvSec
  let usec := a.tvUsec - b.tvUsec
  if usec < 0 then ⟨sec - 1, usec + 1000000⟩ else ⟨sec, usec⟩

theorem timersub_normal {a b : Timeval} (ha : a.Normal) (hb : b.Normal) :
    (timersub a b).Normal := by
  obtain ⟨ha₀, ha₁⟩ := ha
  obtain ⟨hb₀, hb₁⟩ := hb
  unfold timersub Timeval.Normal
  by_cases hborrow : a.tvUsec - b.tvUsec < 0
  · simp only [hborrow, if_true]
    omega
  · simp only [hborrow, if_false]
    omega

/-- The borrow keeps the difference exact. -/
theorem timersub_micros (a b : Timeval) : (timersub a b).micros = a.micros - b.micros := by
  unfold timersub Timeval.micros
  by_cases hborrow : a.tvUsec - b.tvUsec < 0
  · simp only [hborrow, if_true]
    omega
  · simp only [hborrow, if_false]
    omega

theorem Timeval.Normal.sec_nonneg {t : Timeval} (ht : t.Normal) (h : 0 ≤ t.micros) :
    0 ≤ t.tvSec := by
  obtain ⟨h₀, h₁⟩ := ht
  unfold Timeval.micros at h
  omega

variable {ι : Type} [DecidableEq ι]

/-- `calcNextTimeout` at the instant `now`: `none` for the result -1, else the wait. -/
def calcNextTimeout (now : Timeval) (s : State ι) : Option (Option Timeval) := do
  let l ← s.mem .timerList
  let tev ← l.next
  if tev = .timerList then some none
  else do
    let v ← s.mem tev
    if timercmp v.timeout now (fun x y => x > y) then some (some (timersub v.timeout now))
    else some (some ⟨0, 0⟩)

/-- `processTimeouts` at the instant `t` takes the timer to `pending_list`. -/
def Moves (fuel : Nat) (s : State ι) (t : Timeval) (e : ι) : Prop :=
  InList s .timerList e ∧ ∃ s', processTimeouts fuel t s = some s' ∧
    ¬InList s' .timerList e ∧ InList s' .pendingList e

/-- **The wait agrees with the expiry**: no wait is reported exactly for an empty list, a
wait of zero exactly when a timer would be moved at once, and a longer one ends at the
instant from which on the first timer is moved. -/
structure WaitAgrees (fuel : Nat) (s : State ι) (now : Timeval) : Prop where
  noTimers : calcNextTimeout now s = some none ↔ ∀ e, ¬InList s .timerList e
  noWait : calcNextTimeout now s = some (some ⟨0, 0⟩) ↔ ∃ e, Moves fuel s now e
  normal : ∀ w, calcNextTimeout now s = some (some w) → w ≠ ⟨0, 0⟩ →
    w.Normal ∧ 0 ≤ w.tvSec
  before : ∀ w, calcNextTimeout now s = some (some w) → w ≠ ⟨0, 0⟩ →
    ∀ t, t.Normal → t.micros < (timeradd now w).micros → ∀ e, ¬Moves fuel s t e
  after : ∀ w, calcNextTimeout now s = some (some w) → w ≠ ⟨0, 0⟩ →
    ∀ t, t.Normal → (timeradd now w).micros ≤ t.micros →
      ∀ e, s.links.next .timerList = some (.event e) → Moves fuel s t e

section Timers

variable {s : State ι} {tl pl : List ι}

/-- The wait until a deadline. -/
def waitUntil (now deadline : Timeval) : Timeval :=
  if now.micros < deadline.micros then timersub deadline now else ⟨0, 0⟩

theorem calcNextTimeout_eq (h : Rings s tl pl) (hnormal : ∀ e ∈ tl, (s.timeout e).Normal)
    {now : Timeval} (hnow : now.Normal) :
    calcNextTimeout now s = some (tl.head?.map fun e => waitUntil now (s.timeout e)) := by
  obtain ⟨lv, hlv⟩ := Option.isSome_iff_exists.mp (ring_live h.timer List.mem_cons_self)
  have hlnext : lv.next = some (firstNode .timerList tl) := by
    rw [← next_of_mem hlv, ring_next_head h.timer]
  cases tl with
  | nil => simp [calcNextTimeout, hlv, hlnext, firstNode]
  | cons e tl =>
      obtain ⟨v, hv⟩ := Option.isSome_iff_exists.mp
        (ring_live h.timer (List.mem_cons_of_mem _ (event_mem_map.mpr List.mem_cons_self)))
      have htime := timeout_of_mem hv
      have hgt := timercmp_gt (hnormal e List.mem_cons_self) hnow
      rw [htime] at hgt
      by_cases hlate : now.micros < v.timeout.micros
      · simp [calcNextTimeout, hlv, hlnext, firstNode, hv, hgt, htime, waitUntil, hlate]
      · simp [calcNextTimeout, hlv, hlnext, firstNode, hv, hgt, htime, waitUntil, hlate]

/-- A timer is moved behind its deadline. -/
theorem moves_iff (h : Rings s tl pl) (hnormal : ∀ e ∈ tl, (s.timeout e).Normal)
    (hsorted : tl.Pairwise (fun a b => (s.timeout a).micros ≤ (s.timeout b).micros))
    {fuel : Nat} (hfuel : tl.length < fuel) {t : Timeval} (ht : t.Normal) {e : ι} :
    Moves fuel s t e ↔ e ∈ tl ∧ (s.timeout e).micros < t.micros := by
  obtain ⟨s', hrun, -, hrings⟩ := processTimeouts_rings h hnormal hsorted ht
  unfold Moves
  rw [inList_iff h.timer]
  constructor
  · rintro ⟨hmem, s'', hrun', -, hpending⟩
    rw [hrun fuel hfuel] at hrun'
    cases hrun'
    rw [inList_iff hrings.pending, List.mem_append, State.expired, List.mem_filter] at hpending
    rcases hpending with hpending | ⟨-, hexpired⟩
    · exact absurd hpending (h.disjoint e hmem)
    · exact ⟨hmem, of_decide_eq_true hexpired⟩
  · rintro ⟨hmem, hexpired⟩
    refine ⟨hmem, s', hrun fuel hfuel, ?_, ?_⟩
    · rw [inList_iff hrings.timer, State.unexpired, List.mem_filter]
      simp [hexpired]
    · rw [inList_iff hrings.pending, List.mem_append, State.expired, List.mem_filter]
      exact Or.inr ⟨hmem, decide_eq_true hexpired⟩

theorem waitUntil_eq_zero {now deadline : Timeval} :
    waitUntil now deadline = ⟨0, 0⟩ ↔ deadline.micros ≤ now.micros := by
  unfold waitUntil
  by_cases hlate : now.micros < deadline.micros
  · rw [if_pos hlate]
    constructor
    · intro hzero
      have hmicros := timersub_micros deadline now
      rw [hzero] at hmicros
      simp only [Timeval.micros] at hmicros hlate ⊢
      omega
    · intro hle
      omega
  · simp only [hlate, if_false, true_iff]
    omega

omit [DecidableEq ι] in
/-- The first timer has the earliest deadline. -/
theorem head_earliest {e a : ι}
    (hsorted : (e :: tl).Pairwise (fun a b => (s.timeout a).micros ≤ (s.timeout b).micros))
    (ha : a ∈ e :: tl) : (s.timeout e).micros ≤ (s.timeout a).micros := by
  rcases List.mem_cons.mp ha with rfl | ha
  · exact Int.le_refl _
  · exact (List.pairwise_cons.mp hsorted).1 a ha

/-- At its deadline the first timer asks for no wait, and no timer is moved. -/
theorem spins_at_deadline {e : ι} (h : Rings s (e :: tl) pl)
    (hnormal : ∀ a ∈ e :: tl, (s.timeout a).Normal)
    (hsorted : (e :: tl).Pairwise (fun a b => (s.timeout a).micros ≤ (s.timeout b).micros))
    {fuel : Nat} (hfuel : (e :: tl).length < fuel) {now : Timeval} (hnow : now.Normal)
    (hat : now.micros = (s.timeout e).micros) :
    calcNextTimeout now s = some (some ⟨0, 0⟩) ∧ ∀ a, ¬Moves fuel s now a := by
  constructor
  · rw [calcNextTimeout_eq h hnormal hnow, List.head?_cons, Option.map_some,
      waitUntil_eq_zero.mpr (Int.le_of_eq hat.symm)]
  · intro a hmoves
    obtain ⟨ha, hlt⟩ := (moves_iff h hnormal hsorted hfuel hnow).mp hmoves
    have hle := head_earliest hsorted ha
    omega

/-- Ahead of its deadline the wait for the first timer is normalised and ends at the
deadline, and no timer is moved up to there. -/
theorem wait_ahead {e : ι} (h : Rings s (e :: tl) pl)
    (hnormal : ∀ a ∈ e :: tl, (s.timeout a).Normal)
    (hsorted : (e :: tl).Pairwise (fun a b => (s.timeout a).micros ≤ (s.timeout b).micros))
    {fuel : Nat} (hfuel : (e :: tl).length < fuel) {now : Timeval} (hnow : now.Normal)
    (hahead : now.micros < (s.timeout e).micros) :
    ∃ w, calcNextTimeout now s = some (some w) ∧ w ≠ ⟨0, 0⟩ ∧ w.Normal ∧ 0 ≤ w.tvSec ∧
      (timeradd now w).micros = (s.timeout e).micros ∧
      ∀ t, t.Normal → ∀ a, Moves fuel s t a → (timeradd now w).micros < t.micros := by
  have hdue := hnormal e List.mem_cons_self
  have hwait : waitUntil now (s.timeout e) = timersub (s.timeout e) now := if_pos hahead
  have hlength := timersub_micros (s.timeout e) now
  have hend : (timeradd now (timersub (s.timeout e) now)).micros = (s.timeout e).micros := by
    rw [timeradd_micros, hlength]
    omega
  have hwaitNormal := timersub_normal hdue hnow
  refine ⟨timersub (s.timeout e) now, ?_, ?_, hwaitNormal, hwaitNormal.sec_nonneg (by omega),
    hend, ?_⟩
  · rw [calcNextTimeout_eq h hnormal hnow, List.head?_cons, Option.map_some, hwait]
  · rw [← hwait]
    intro hzero
    have hle := waitUntil_eq_zero.mp hzero
    omega
  · intro t ht a hmoves
    obtain ⟨ha, hlt⟩ := (moves_iff h hnormal hsorted hfuel ht).mp hmoves
    have hle := head_earliest hsorted ha
    omega

/-- Up to its deadline, and at it, the first timer keeps wait and expiry apart. -/
theorem not_waitAgrees {e : ι} (h : Rings s (e :: tl) pl)
    (hnormal : ∀ a ∈ e :: tl, (s.timeout a).Normal)
    (hsorted : (e :: tl).Pairwise (fun a b => (s.timeout a).micros ≤ (s.timeout b).micros))
    {fuel : Nat} (hfuel : (e :: tl).length < fuel) {now : Timeval} (hnow : now.Normal)
    (hearly : now.micros ≤ (s.timeout e).micros) : ¬WaitAgrees fuel s now := by
  intro hagrees
  have hdue := hnormal e List.mem_cons_self
  rcases Int.lt_or_eq_of_le hearly with hahead | hat
  · -- the wait ends at the deadline, where the timer is not moved
    obtain ⟨w, hcalc, hne, -, -, hend, hmoved⟩ :=
      wait_ahead h hnormal hsorted hfuel hnow hahead
    have hmoves := hagrees.after w hcalc hne _ hdue (Int.le_of_eq hend) e (ring_next_head h.timer)
    have hbehind := hmoved _ hdue e hmoves
    omega
  · -- no wait is reported, so some timer would have to be moved
    obtain ⟨hcalc, hstays⟩ := spins_at_deadline h hnormal hsorted hfuel hnow hat
    obtain ⟨a, hmoves⟩ := hagrees.noWait.mp hcalc
    exact hstays a hmoves

/-- Behind its deadline no wait is reported, and the first timer is moved. -/
theorem waitAgrees_behind {e : ι} (h : Rings s (e :: tl) pl)
    (hnormal : ∀ a ∈ e :: tl, (s.timeout a).Normal)
    (hsorted : (e :: tl).Pairwise (fun a b => (s.timeout a).micros ≤ (s.timeout b).micros))
    {fuel : Nat} (hfuel : (e :: tl).length < fuel) {now : Timeval} (hnow : now.Normal)
    (hbehind : (s.timeout e).micros < now.micros) : WaitAgrees fuel s now := by
  have hcalc := calcNextTimeout_eq h hnormal hnow
  rw [List.head?_cons, Option.map_some, waitUntil_eq_zero.mpr (Int.le_of_lt hbehind)] at hcalc
  have hmem : e ∈ e :: tl := List.mem_cons_self
  have hnone : ∀ w, calcNextTimeout now s = some (some w) → w ≠ ⟨0, 0⟩ → False := by
    intro w hw hne
    rw [hcalc] at hw
    exact hne (Option.some.inj (Option.some.inj hw)).symm
  refine ⟨?_, ?_, fun w hw hne => (hnone w hw hne).elim,
    fun w hw hne => (hnone w hw hne).elim, fun w hw hne => (hnone w hw hne).elim⟩
  · rw [hcalc]
    refine iff_of_false (by simp) ?_
    intro hempty
    exact hempty e ((inList_iff h.timer).mpr hmem)
  · exact iff_of_true hcalc ⟨e, (moves_iff h hnormal hsorted hfuel hnow).mpr ⟨hmem, hbehind⟩⟩

/-- **When wait and expiry agree**: for an empty list, and behind the deadline of the first
timer. -/
theorem wait_agrees_iff (h : Rings s tl pl) (hnormal : ∀ e ∈ tl, (s.timeout e).Normal)
    (hsorted : tl.Pairwise (fun a b => (s.timeout a).micros ≤ (s.timeout b).micros))
    {fuel : Nat} (hfuel : tl.length < fuel) {now : Timeval} (hnow : now.Normal) :
    WaitAgrees fuel s now ↔ ∀ e, tl.head? = some e → (s.timeout e).micros < now.micros := by
  cases tl with
  | nil =>
      have hcalc := calcNextTimeout_eq h hnormal hnow
      rw [List.head?_nil, Option.map_none] at hcalc
      refine iff_of_true ⟨?_, ?_, ?_, ?_, ?_⟩ (fun e he => by cases he)
      · simp [hcalc, inList_iff h.timer]
      · simp [hcalc, moves_iff h hnormal hsorted hfuel hnow]
      · simp [hcalc]
      · simp [hcalc]
      · simp [hcalc]
  | cons e tl =>
      constructor
      · intro hagrees a ha
        cases ha
        by_contra hearly
        exact not_waitAgrees h hnormal hsorted hfuel hnow (by omega) hagrees
      · intro hbehind
        exact waitAgrees_behind h hnormal hsorted hfuel hnow (hbehind e rfl)

end Timers

/-- One timer, added at 5 s for 1 s later. -/
def oneTimer : Option (State Nat) :=
  rilTimerAdd 2 7 (some ⟨1, 0⟩) ⟨5, 0⟩ (rilEventSet 7 0 false 11 70 (rilEventInit State.blank))

theorem oneTimer_rings : ∃ s, oneTimer = some s ∧ Rings s [7] [] ∧ s.timeout 7 = ⟨6, 0⟩ := by
  have hstart : TimerInv (rilEventInit (State.blank : State Nat)) [] [] :=
    (start_run State.blank).inv
  have hset : Rings (rilEventSet 7 0 false 11 70 (rilEventInit (State.blank : State Nat))) [] [] :=
    hstart.rings.update_unlisted List.not_mem_nil List.not_mem_nil _
  obtain ⟨d, hd⟩ : ∃ d, (rilEventSet 7 0 false 11 70
      (rilEventInit (State.blank : State Nat))).data (.event 7) = some d := ⟨_, rfl⟩
  obtain ⟨s, l, r, hrun, hsplit, hrings, -, -, hdata, -⟩ :=
    rilTimerAdd_result ⟨1, 0⟩ ⟨5, 0⟩ hset hd List.not_mem_nil List.not_mem_nil
  obtain ⟨rfl, rfl⟩ := List.append_eq_nil_iff.mp hsplit.symm
  refine ⟨s, hrun 2 (by decide), hrings, ?_⟩
  rw [State.timeout, hdata, Function.update_self]
  rfl

/-- A second behind its deadline. -/
theorem wait_agrees_late : ∃ s, oneTimer = some s ∧ WaitAgrees 2 s ⟨7, 0⟩ := by
  obtain ⟨s, hs, hrings, htime⟩ := oneTimer_rings
  refine ⟨s, hs, (wait_agrees_iff hrings ?_ (List.pairwise_singleton _ _) (by decide)
    (by decide)).mpr ?_⟩
  · intro e he
    rw [List.mem_singleton.mp he, htime]
    decide
  · intro e he
    cases he
    rw [htime]
    decide

/-- At the deadline the loop does not wait and does not move the timer. -/
theorem wait_disagrees_at_deadline : ∃ s, oneTimer = some s ∧ ¬WaitAgrees 2 s ⟨6, 0⟩ := by
  obtain ⟨s, hs, hrings, htime⟩ := oneTimer_rings
  have hnormal : ∀ e ∈ [7], (s.timeout e).Normal := by
    intro e he
    rw [List.mem_singleton.mp he, htime]
    decide
  have hfuel : [7].length < 2 := by decide
  have hat : (⟨6, 0⟩ : Timeval).micros ≤ (s.timeout 7).micros := by
    rw [htime]
  exact ⟨s, hs, not_waitAgrees hrings hnormal (List.pairwise_singleton _ _) hfuel (by decide) hat⟩

end RilEvent
