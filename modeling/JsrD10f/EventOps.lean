import JsrD10f.EventLoop
import Mathlib.Data.Fintype.Card

/-!
# The event layer as its clients see it

A client of the event layer cares about which events are watched, with which
descriptor, and which callbacks are still to come.  `LoopInv s pl` says that
the watch table is sound and that the events `pl` are pending.  Each operation
has one lemma here that keeps `LoopInv` and gives the watched events and the
data afterwards, so that a client never looks at slots or pointers.
-/

namespace RilEvent

open RingList

variable {ι : Type}

/-- A sound watch table, and `pl` pending. -/
structure LoopInv (s : State ι) (pl : List ι) : Prop where
  watch : WatchInv s
  ring : Ring s.links .pendingList (pl.map .event)
  timers : Ring s.links .timerList []

theorem LoopInv.rings {s : State ι} {pl : List ι} (h : LoopInv s pl) : Rings s [] pl :=
  ⟨h.timers, h.ring, by simp⟩

theorem SameButIndex.fdOf_eq {s s' : State ι} (h : SameButIndex s s') {e : ι} {fd : Int}
    (hfd : s.fdOf e = some fd) : s'.fdOf e = some fd := by
  cases hd : s.data (.event e) with
  | none => simp [State.fdOf, hd] at hfd
  | some d =>
      obtain ⟨k, hk⟩ := h _ d hd
      simpa [State.fdOf, hd, hk] using hfd

theorem SameButIndex.persistOf_eq {s s' : State ι} (h : SameButIndex s s') {e : ι} {b : Bool}
    (hb : s.persistOf e = some b) : s'.persistOf e = some b := by
  cases hd : s.data (.event e) with
  | none => simp [State.persistOf, hd] at hb
  | some d =>
      obtain ⟨k, hk⟩ := h _ d hd
      simpa [State.persistOf, hd, hk] using hb

theorem data_of_fdOf {s : State ι} {e : ι} {fd : Int} (h : s.fdOf e = some fd) :
    ∃ d, s.data (.event e) = some d ∧ d.fd = fd := by
  simpa [State.fdOf] using h

/-- No event is in two slots, so a table with more slots than events has a
free one. -/
theorem WatchInv.exists_free [Fintype ι] {s : State ι} (h : WatchInv s)
    (hcard : Fintype.card ι < maxFdEvents) : ∃ i, s.watchTable i = none := by
  apply exists_free_slot
  have hnd : s.watchedEvents.Nodup := by
    refine List.Nodup.filterMap ?_ (List.nodup_finRange _)
    intro i j e hi hj
    exact h.slot_unique hi hj
  exact Nat.lt_of_le_of_lt hnd.length_le_card hcard

variable [DecidableEq ι]

section Ops

variable {s : State ι} {pl : List ι} {e : ι}

theorem LoopInv.set (h : LoopInv s pl) (hnew : ¬ s.Watched e) (hpl : e ∉ pl) (fd : Int)
    (persist : Bool) (func param : Nat) :
    LoopInv (rilEventSet e fd persist func param s) pl where
  watch := h.watch.set hnew fd persist func param
  ring := ring_update h.ring (by simp) hpl _
  timers := ring_update (l := []) h.timers (by simp) (by simp) _

theorem rilEventSet_data_ne {a : ι} (ha : a ≠ e) (fd : Int) (persist : Bool)
    (func param : Nat) :
    (rilEventSet e fd persist func param s).data (.event a) = s.data (.event a) := by
  simp [State.data, rilEventSet, ha]

theorem rilEventSet_fdOf (fd : Int) (persist : Bool) (func param : Nat) :
    (rilEventSet e fd persist func param s).fdOf e = some fd ∧
      (rilEventSet e fd persist func param s).persistOf e = some persist := by
  simp [State.fdOf, State.persistOf, State.data, rilEventSet]

/-- `ril_event_add` of an event that is not watched. -/
theorem LoopInv.add [Fintype ι] (h : LoopInv s pl) (hcard : Fintype.card ι < maxFdEvents)
    {fd : Int} (hfd : s.fdOf e = some fd) (hpos : 0 ≤ fd) (hnew : ¬ s.Watched e)
    (hfresh : ∀ a, s.Watched a → s.fdOf a ≠ some fd) :
    ∃ s', rilEventAdd e s = some s' ∧ LoopInv s' pl ∧ SameButIndex s s' ∧
      ∀ a, s'.Watched a ↔ s.Watched a ∨ a = e := by
  obtain ⟨d, hd, rfl⟩ := data_of_fdOf hfd
  rcases rilEventAdd_result hd with ⟨-, hfull⟩ | ⟨s', i, hrun, hfree, hw⟩
  · obtain ⟨i, hi⟩ := h.watch.exists_free hcard
    exact absurd hi (hfull i)
  · refine ⟨s', hrun, ⟨h.watch.watching hfree hd hnew hpos hfresh hw, hw.links ▸ h.ring,
      hw.links ▸ h.timers⟩, ?_, fun a => hw.watched_iff hfree⟩
    intro n dn hn
    by_cases hne : n = .event e
    · rw [hne, hd] at hn
      cases hn
      exact ⟨i.val, by rw [hne, hw.data, Function.update_self]⟩
    · exact ⟨dn.index, by rw [hw.data, Function.update_of_ne hne, hn]⟩

/-- `ril_event_set` and `ril_event_add` of a new event. -/
theorem LoopInv.arm [Fintype ι] (h : LoopInv s pl) (hcard : Fintype.card ι < maxFdEvents)
    (hnew : ¬ s.Watched e) (hpl : e ∉ pl) {fd : Int} (hpos : 0 ≤ fd)
    (hfresh : ∀ a, s.Watched a → s.fdOf a ≠ some fd) (persist : Bool) (func param : Nat) :
    ∃ s', rilEventAdd e (rilEventSet e fd persist func param s) = some s' ∧ LoopInv s' pl ∧
      s'.fdOf e = some fd ∧ s'.persistOf e = some persist ∧
      (∀ a fd' b, a ≠ e → s.fdOf a = some fd' → s.persistOf a = some b →
        s'.fdOf a = some fd' ∧ s'.persistOf a = some b) ∧
      ∀ a, s'.Watched a ↔ s.Watched a ∨ a = e := by
  have hset := h.set hnew hpl fd persist func param
  obtain ⟨hfd, hper⟩ := rilEventSet_fdOf (s := s) (e := e) fd persist func param
  have hunused : ∀ a, (rilEventSet e fd persist func param s).Watched a →
      (rilEventSet e fd persist func param s).fdOf a ≠ some fd := by
    intro a hw
    have hae : a ≠ e := fun hae => hnew (hae ▸ hw)
    rw [State.fdOf, rilEventSet_data_ne hae]
    exact hfresh a hw
  obtain ⟨s', hrun, hloop, hdata, hwatch⟩ := hset.add hcard hfd hpos hnew hunused
  refine ⟨s', hrun, hloop, hdata.fdOf_eq hfd, hdata.persistOf_eq hper, ?_, hwatch⟩
  intro a fd' b hae hafd hab
  rw [State.fdOf, ← rilEventSet_data_ne hae fd persist func param] at hafd
  rw [State.persistOf, ← rilEventSet_data_ne hae fd persist func param] at hab
  exact ⟨hdata.fdOf_eq hafd, hdata.persistOf_eq hab⟩

/-- `ril_event_del` of a watched event. -/
theorem LoopInv.del (h : LoopInv s pl) (hw : s.Watched e) :
    ∃ s', rilEventDel e s = some s' ∧ LoopInv s' pl ∧ SameButIndex s s' ∧
      ∀ a, s'.Watched a ↔ s.Watched a ∧ a ≠ e := by
  obtain ⟨i, hi⟩ := hw
  obtain ⟨d, hd, hidx, -⟩ := h.watch.slot i e hi
  rcases rilEventDel_result (fun j a hj => h.watch.live hj) hd (Or.inr ⟨i, hi, hidx⟩) with
    ⟨hneg, -⟩ | ⟨s', j, hj, hrun, hu⟩
  · omega
  · exact ⟨s', hrun, ⟨h.watch.unwatched hj hd hu, hu.links ▸ h.ring, hu.links ▸ h.timers⟩,
      hu.sameButIndex hd, fun a => hu.watched_iff h.watch hj⟩

/-- `processReadReadies` behind a `select` that returned the descriptors `R`. -/
theorem LoopInv.readies {R : Finset Int} (h : LoopInv s [])
    (hR : ∀ fd ∈ R, s.readFds fd = true) :
    ∃ s', processReadReadies (bitsOf R) R.card s = some s' ∧
      LoopInv s' (s.ready (bitsOf R)) ∧ SameButIndex s s' ∧
      ∀ a, s'.Watched a ↔
        s.Watched a ∧ ¬ (a ∈ s.ready (bitsOf R) ∧ s.persistOf a = some false) := by
  have hlen := h.watch.ready_length (R := R) (fun fd hfd => h.watch.bit fd (hR fd hfd))
  obtain ⟨s', hrun, hready⟩ := processReadReadiesLoop_spec (n := R.card)
    h.watch h.rings (List.nodup_finRange _) (by simp) (by rw [← hlen]; rfl)
  exact ⟨s', hrun, ⟨hready.watch, hready.rings.pending, hready.rings.timer⟩, hready.data,
    hready.watched⟩

/-- One turn of `firePending`, up to the callback. -/
theorem LoopInv.fire (h : LoopInv s (e :: pl)) :
    ∃ s' v, fireHead s (.event e) = some (s', firstNode .pendingList pl) ∧ LoopInv s' pl ∧
      s.mem (.event e) = some v ∧ SameButIndex s s' ∧ ∀ a, s'.Watched a ↔ s.Watched a := by
  obtain ⟨s', v, hrun, hring, hrings, hv, hdata, hrest⟩ := fireHead_spec h.ring
  have htable : s'.watchTable = s.watchTable := by rw [hrest]
  refine ⟨s', v, hrun, ⟨h.watch.congr hdata htable (by rw [hrest]) (by rw [hrest]), hring,
    (hrings [] h.rings).timer⟩, hv, SameButIndex.of_eq hdata, ?_⟩
  intro a
  rw [State.Watched, State.Watched, htable]

end Ops

end RilEvent
