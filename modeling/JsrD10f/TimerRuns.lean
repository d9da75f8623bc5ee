import JsrD10f.Runs
import JsrD10f.TimerList

/-!
# Timers over whole runs

A run starts at `ril_event_init` and is made of clients that set, free and add
timers, of `processTimeouts`, and of `firePending` taken one turn at a time, so
that additions may fall between two of its callbacks.  The clock readings are
arguments of the operations; no order between them is assumed.
-/

namespace RilEvent

open RingList Runs

variable {ι : Type} [DecidableEq ι]

/-- The event layer, the local variable of `firePending` while it runs, and
the events passed to `ril_timer_add` so far. -/
structure TimerState (ι : Type) where
  events : State ι
  cur : Option (Node ι)
  added : List ι

inductive TimerOp (ι : Type) where
  | set (ev : ι) (fd : Int) (persist : Bool) (func param : Nat)
  | free (ev : ι)
  | timerAdd (ev : ι) (tv now : Timeval)
  | processTimeouts (now : Timeval)
  | fire
deriving DecidableEq, Repr

/-- The state after `ril_event_init`, whatever the memory held before. -/
def TimerState.start (s : State ι) : TimerState ι :=
  ⟨{ rilEventInit s with calls := [] }, none, []⟩

/-- One operation.  `fire` is one turn of `firePending`: it enters the loop,
calls the next event or leaves the loop. -/
def timerStep (fuel : Nat) (m : TimerState ι) : TimerOp ι → Option (TimerState ι)
  | .set ev fd persist func param =>
      some { m with events := rilEventSet ev fd persist func param m.events }
  | .free ev => some { m with events := m.events.free ev }
  | .timerAdd ev tv now =>
      (rilTimerAdd fuel ev (some tv) now m.events).map fun s =>
        { m with events := s, added := m.added ++ [ev] }
  | .processTimeouts now =>
      (processTimeouts fuel now m.events).map fun s => { m with events := s }
  | .fire =>
      match m.cur with
      | none => do
          let l ← m.events.mem .pendingList
          let ev ← l.next
          some { m with cur := some ev }
      | some ev =>
          if ev = .pendingList then some { m with cur := none }
          else (fireHead m.events ev).map fun r =>
            { m with events := r.1, cur := some r.2 }

/-- The client writes, frees or adds only events that are on no list, adds
normalised times, and the loop does not look for timeouts inside
`firePending`. -/
def TimerOp.Legal (m : TimerState ι) : TimerOp ι → Prop
  | .set ev _ _ _ _ => Unlisted m.events ev
  | .free ev => Unlisted m.events ev
  | .timerAdd ev tv now =>
      Unlisted m.events ev ∧ (m.events.mem (.event ev)).isSome ∧ tv.Normal ∧ now.Normal
  | .processTimeouts now => m.cur = none ∧ now.Normal
  | .fire => True

/-- What holds between operations: the lists are in order, `firePending`
stands on the first pending event, and every addition is accounted for. -/
structure TimerRun (m : TimerState ι) (tl pl : List ι) : Prop where
  inv : TimerInv m.events tl pl
  cur : ∀ n, m.cur = some n → n = firstNode .pendingList pl
  balance : ∀ e, m.added.count e =
    (m.events.calls.map (·.event)).count e + (tl ++ pl).count e

theorem start_run (s : State ι) : TimerRun (TimerState.start s) [] [] where
  inv := by
    refine ⟨⟨⟨?_, by simp⟩, ⟨?_, by simp⟩, by simp⟩, by simp, by simp, by simp⟩
    · simp [Seg, State.links, TimerState.start, rilEventInit, initList]
    · simp [Seg, State.links, TimerState.start, rilEventInit, initList]
  cur := by simp [TimerState.start]
  balance := by simp [TimerState.start]

theorem TimerInv.update_unlisted {s : State ι} {tl pl : List ι} {e : ι}
    (h : TimerInv s tl pl) (htl : e ∉ tl) (hpl : e ∉ pl) (v : Option (Event ι)) :
    TimerInv { s with mem := Function.update s.mem (.event e) v } tl pl := by
  refine h.transfer (h.rings.update_unlisted htl hpl v) (List.Sublist.refl _) ?_
  intro a ha
  have hae : a ≠ e := fun heq => htl (heq ▸ ha)
  simp [State.data, hae]

theorem count_append_cons {l r pl : List ι} {a e : ι} :
    (l ++ e :: r ++ pl).count a = (l ++ r ++ pl).count a + [e].count a := by
  simp only [List.count_append, List.count_cons, List.count_nil]
  omega

section Steps

variable {m : TimerState ι} {tl pl : List ι} {fuel : Nat}

theorem TimerRun.timerAdd (h : TimerRun m tl pl) {ev : ι} {tv now : Timeval}
    (hlegal : (TimerOp.timerAdd ev tv now).Legal m) (hfuel : tl.length < fuel) :
    ∃ m' tl', timerStep fuel m (.timerAdd ev tv now) = some m' ∧ TimerRun m' tl' pl ∧
      tl'.length ≤ tl.length + 1 := by
  obtain ⟨hunlisted, hlive, htv, hnow⟩ := hlegal
  obtain ⟨htl, hpl⟩ := hunlisted.not_mem h.inv.rings
  obtain ⟨s', l, r, hrun, hsplit, hinv, hrest⟩ :=
    rilTimerAdd_spec h.inv hlive htl hpl htv hnow hfuel
  refine ⟨{ m with events := s', added := m.added ++ [ev] }, l ++ ev :: r,
    by simp [timerStep, hrun], ⟨hinv, h.cur, ?_⟩, ?_⟩
  · intro a
    have hb := h.balance a
    have hcalls : s'.calls = m.events.calls := by rw [hrest]
    rw [hsplit] at hb
    rw [List.count_append, hcalls, count_append_cons, hb]
    omega
  · rw [hsplit]
    simp only [List.length_append, List.length_cons]
    omega

theorem TimerRun.processTimeouts (h : TimerRun m tl pl) {now : Timeval}
    (hlegal : (TimerOp.processTimeouts now : TimerOp ι).Legal m) (hfuel : tl.length < fuel) :
    ∃ m' tl' pl', timerStep fuel m (.processTimeouts now) = some m' ∧ TimerRun m' tl' pl' ∧
      tl'.length ≤ tl.length + 1 := by
  obtain ⟨hcur, hnow⟩ := hlegal
  obtain ⟨s', hrun, hrel, hinv⟩ := processTimeouts_spec h.inv hnow
  refine ⟨{ m with events := s' }, _, _, by simp [timerStep, hrun fuel hfuel], ⟨hinv, ?_, ?_⟩, ?_⟩
  · intro n hn
    rw [show m.cur = none from hcur] at hn
    cases hn
  · intro a
    have hb := h.balance a
    have hparts : tl.count a = (m.events.expired now tl).count a +
        (m.events.unexpired now tl).count a := by
      have hsum := List.countP_eq_countP_filter_add tl (· == a)
        (fun e => decide ((m.events.timeout e).micros < now.micros))
      simpa only [List.count, State.expired, State.unexpired] using hsum
    rw [hrel.calls]
    simp only [List.count_append] at hb ⊢
    omega
  · have hle : (m.events.unexpired now tl).length ≤ tl.length := List.length_filter_le _ _
    omega

/-- One turn of `firePending`: it enters the loop, calls the first pending event, or
leaves the loop because there is none. -/
theorem TimerRun.fire (h : TimerRun m tl pl) (fuel : Nat) :
    ∃ m' pl', timerStep fuel m .fire = some m' ∧ TimerRun m' tl pl' := by
  cases hcur : m.cur with
  | none =>
      obtain ⟨lv, hlv⟩ := Option.isSome_iff_exists.mp
        (ring_live h.inv.rings.pending List.mem_cons_self)
      have hlnext : lv.next = some (firstNode .pendingList pl) := by
        rw [← next_of_mem hlv, ring_next_head h.inv.rings.pending]
      refine ⟨{ m with cur := some (firstNode .pendingList pl) }, pl,
        by simp [timerStep, hcur, hlv, hlnext], ⟨h.inv, ?_, h.balance⟩⟩
      intro n hn
      exact (Option.some.inj hn).symm
  | some ev =>
      have hev := h.cur ev hcur
      cases pl with
      | nil =>
          refine ⟨{ m with cur := none }, [], ?_, ⟨h.inv, by simp, h.balance⟩⟩
          simp [timerStep, hcur, hev, firstNode]
      | cons e pl =>
          obtain ⟨s', v, hrun, -, hkeep, -, hdata, hrest⟩ := fireHead_spec h.inv.rings.pending
          have hcalls : s'.calls = m.events.calls ++
              [⟨e, v.func, v.fd, v.param, decide (m.events.Watched e)⟩] := by rw [hrest]
          have hinv : TimerInv s' tl pl := h.inv.transfer (hkeep tl h.inv.rings)
            (List.Sublist.refl _) (fun a _ => by rw [hdata])
          refine ⟨{ m with events := s', cur := some (firstNode .pendingList pl) }, pl, ?_,
            ⟨hinv, ?_, ?_⟩⟩
          · simp [timerStep, hcur, hev, firstNode, hrun]
          · intro n hn
            exact (Option.some.inj hn).symm
          · intro a
            have hb := h.balance a
            rw [hcalls]
            simp only [List.map_append, List.map_cons, List.map_nil, List.count_append,
              List.count_cons, List.count_nil] at hb ⊢
            omega

end Steps

end RilEvent
