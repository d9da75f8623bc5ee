import JsrD10f.EventOps
import JsrD10f.TimerWait

/-!
# The event layer with watches and timers together

A descriptor event is recorded in the watch table and a timer in `timer_list`, and both
kinds meet in `pending_list`.  `EventsInv` joins the two invariants, and each call a
client can make keeps it.  `OnlyTouches` is the frame of such a call: it changes the data
and the watch of the event it is given, and of no other.
-/

namespace RilEvent

open RingList

variable {ι : Type}

/-- A sound watch table, the timers `tl` in order, and `pl` pending. -/
structure EventsInv (s : State ι) (tl pl : List ι) : Prop where
  watch : WatchInv s
  timers : TimerInv s tl pl

/-- From `s` to `s'` only the event `e` was touched. -/
structure OnlyTouches (s s' : State ι) (e : ι) : Prop where
  data : ∀ a, a ≠ e → s'.data (.event a) = s.data (.event a)
  watched : ∀ a, a ≠ e → (s'.Watched a ↔ s.Watched a)

theorem OnlyTouches.fdOf {s s' : State ι} {e a : ι} (h : OnlyTouches s s' e) (ha : a ≠ e) :
    s'.fdOf a = s.fdOf a := by
  rw [State.fdOf, State.fdOf, h.data a ha]

theorem OnlyTouches.persistOf {s s' : State ι} {e a : ι} (h : OnlyTouches s s' e)
    (ha : a ≠ e) : s'.persistOf a = s.persistOf a := by
  rw [State.persistOf, State.persistOf, h.data a ha]

theorem OnlyTouches.timeout {s s' : State ι} {e a : ι} (h : OnlyTouches s s' e)
    (ha : a ≠ e) : s'.timeout a = s.timeout a := by
  rw [State.timeout, State.timeout, h.data a ha]

/-- Changing an event that is not watched, to one that knows no slot or to a freed
record, does not disturb the table. -/
theorem WatchInv.update_unwatched {s s' : State ι} {e : ι} (h : WatchInv s)
    (hnew : ¬ s.Watched e) (htouch : ∀ a, a ≠ e → s'.data (.event a) = s.data (.event a))
    (hindex : ∀ d, s'.data (.event e) = some d → d.index = -1)
    (htable : s'.watchTable = s.watchTable) (hbits : s'.readFds = s.readFds)
    (hn : s'.nfds = s.nfds) : WatchInv s' := by
  have hne : ∀ a, s.Watched a → a ≠ e := fun a hw hae => hnew (hae ▸ hw)
  have hfd : ∀ a, s.Watched a → s'.fdOf a = s.fdOf a := by
    intro a hw
    rw [State.fdOf, State.fdOf, htouch a (hne a hw)]
  have hwatch : ∀ a, s'.Watched a ↔ s.Watched a := by
    intro a
    rw [State.Watched, State.Watched, htable]
  refine ⟨?_, ?_, ?_, ?_⟩
  · intro i a hi
    rw [htable] at hi
    rw [htouch a (hne a ⟨i, hi⟩), hbits, hn]
    exact h.slot i a hi
  · intro a d hd
    rw [htable]
    by_cases hae : a = e
    · rw [hae] at hd
      exact Or.inl (hindex d hd)
    · rw [htouch a hae] at hd
      exact h.index a d hd
  · intro fd hbit
    rw [hbits] at hbit
    obtain ⟨a, hw, hafd⟩ := h.bit fd hbit
    exact ⟨a, (hwatch a).mpr hw, by rw [hfd a hw, hafd]⟩
  · intro a b ha hb heq
    have ha := (hwatch a).mp ha
    have hb := (hwatch b).mp hb
    rw [hfd a ha, hfd b hb] at heq
    exact h.distinct a b ha hb heq

theorem WatchInv.index_of_unwatched {s : State ι} {e : ι} {d : Event ι} (h : WatchInv s)
    (hnew : ¬ s.Watched e) (hd : s.data (.event e) = some d) : d.index = -1 := by
  rcases h.index e d hd with hneg | ⟨i, hi, -⟩
  · exact hneg
  · exact absurd ⟨i, hi⟩ hnew

/-- Slot numbers do not matter to the timers. -/
theorem TimerInv.sameButIndex {s s' : State ι} {tl pl pl' : List ι} (h : TimerInv s tl pl)
    (hsame : SameButIndex s s') (hrings : Rings s' tl pl') : TimerInv s' tl pl' := by
  have hlive : ∀ e ∈ tl, ∃ d k, s.data (.event e) = some d ∧
      s'.data (.event e) = some { d with index := k } := by
    intro e he
    cases hd : s.data (.event e) with
    | none =>
        have hfd := h.noFd e he
        simp [hd] at hfd
    | some d =>
        obtain ⟨k, hk⟩ := hsame _ d hd
        exact ⟨d, k, rfl, hk⟩
  have htime : ∀ e ∈ tl, s'.timeout e = s.timeout e := by
    intro e he
    obtain ⟨d, k, hd, hk⟩ := hlive e he
    simp [State.timeout, hd, hk]
  refine ⟨hrings, ?_, ?_, ?_⟩
  · intro e he
    rw [htime e he]
    exact h.normal e he
  · refine h.sorted.imp_of_mem ?_
    intro a b ha hb hab
    rw [htime a ha, htime b hb]
    exact hab
  · intro e he
    obtain ⟨d, k, hd, hk⟩ := hlive e he
    have hfd := h.noFd e he
    rw [hd] at hfd
    rw [hk]
    exact hfd

/-- The event a call is made for. -/
def ApiOp.event : ApiOp ι → ι
  | .set ev _ _ _ _ => ev
  | .add ev => ev
  | .del ev => ev
  | .timerAdd ev _ _ => ev
  | .free ev => ev

/-- What a client keeps to: a record is written, armed or freed while it is neither
watched nor on a list, and a descriptor is watched by one event only. -/
def ApiOp.Permitted (s : State ι) : ApiOp ι → Prop
  | .set ev _ _ _ _ => ¬ s.Watched ev ∧ Unlisted s ev
  | .add ev => Addable s ev
  | .del ev => (s.mem (.event ev)).isSome
  | .timerAdd ev tv now => (s.mem (.event ev)).isSome ∧ ¬ s.Watched ev ∧ Unlisted s ev ∧
      tv.Normal ∧ now.Normal
  | .free ev => ¬ s.Watched ev ∧ Unlisted s ev

variable [DecidableEq ι]

section Ops

variable {s : State ι} {tl pl : List ι} {e : ι} {fuel : Nat}

omit [DecidableEq ι] in
/-- A watched event has a descriptor, and a timer has none. -/
theorem EventsInv.watched_not_timer (h : EventsInv s tl pl) (hw : s.Watched e) : e ∉ tl :=
  fun he => h.timers.not_watched h.watch he hw

/-- Replacing the record of an event that is neither watched nor listed. -/
theorem EventsInv.replace (h : EventsInv s tl pl) (hnew : ¬ s.Watched e) (htl : e ∉ tl)
    (hpl : e ∉ pl) {v : Option (Event ι)} (hv : ∀ d, v = some d → d.index = -1) :
    EventsInv { s with mem := Function.update s.mem (.event e) v } tl pl ∧
      OnlyTouches s { s with mem := Function.update s.mem (.event e) v } e := by
  have htouch : ∀ a, a ≠ e →
      State.data { s with mem := Function.update s.mem (.event e) v } (.event a) =
        s.data (.event a) := by
    intro a ha
    simp [State.data, ha]
  refine ⟨⟨?_, h.timers.update_unlisted htl hpl v⟩, htouch, fun a _ => Iff.rfl⟩
  refine h.watch.update_unwatched hnew htouch ?_ rfl rfl rfl
  intro d hd
  cases v with
  | none => simp [State.data] at hd
  | some w =>
      have hw : w.core = d := by simpa [State.data] using hd
      rw [← hw]
      exact hv w rfl

theorem Watching.sameButIndex {s' : State ι} {i : Fin maxFdEvents} {d : Event ι}
    (hw : Watching s s' i e d) (hd : s.data (.event e) = some d) : SameButIndex s s' := by
  intro n dn hn
  by_cases hne : n = .event e
  · rw [hne, hd] at hn
    cases hn
    exact ⟨i.val, by rw [hne, hw.data, Function.update_self]⟩
  · exact ⟨dn.index, by rw [hw.data, Function.update_of_ne hne, hn]⟩

/-- `ril_event_set` of an event that is neither watched nor listed. -/
theorem EventsInv.set (h : EventsInv s tl pl) (hnew : ¬ s.Watched e) (htl : e ∉ tl)
    (hpl : e ∉ pl) (fd : Int) (persist : Bool) (func param : Nat) :
    EventsInv (rilEventSet e fd persist func param s) tl pl ∧
      OnlyTouches s (rilEventSet e fd persist func param s) e :=
  h.replace hnew htl hpl (by rintro d ⟨⟩; rfl)

/-- `ril_event_add`.  With a full table nothing happens. -/
theorem EventsInv.add (h : EventsInv s tl pl) (hadd : Addable s e) :
    ∃ s', rilEventAdd e s = some s' ∧ EventsInv s' tl pl ∧ OnlyTouches s s' e ∧
      SameButIndex s s' ∧ (∀ fd, s'.readFds fd = true ↔
        s.readFds fd = true ∨ (s'.Watched e ∧ s.fdOf e = some fd)) ∧
      ((∃ i, s.watchTable i = none) → s'.Watched e) := by
  obtain ⟨d, hd, hpos, hnew, hfresh⟩ := hadd.data
  have hfd : s.fdOf e = some d.fd := by simp [State.fdOf, hd]
  rcases rilEventAdd_result hd with ⟨hrun, hfull⟩ | ⟨s', i, hrun, hfree, hw⟩
  · refine ⟨s, hrun, h, ⟨fun a _ => rfl, fun a _ => Iff.rfl⟩, SameButIndex.of_eq rfl, ?_, ?_⟩
    · intro fd
      simp [hnew]
    · rintro ⟨i, hi⟩
      exact absurd hi (hfull i)
  · have hwe : s'.Watched e := (hw.watched_iff hfree).mpr (Or.inr rfl)
    refine ⟨s', hrun, ⟨h.watch.watching hfree hd hnew hpos hfresh hw,
      h.timers.sameButIndex (hw.sameButIndex hd) (h.timers.rings.congr hw.links)⟩,
      ⟨fun a ha => hw.data_ne ha, ?_⟩, hw.sameButIndex hd, ?_, fun _ => hwe⟩
    · intro a ha
      rw [hw.watched_iff hfree]
      simp [ha]
    · intro fd
      rw [hw.bits, hfd]
      by_cases heq : fd = d.fd
      · simp [heq, hwe]
      · rw [Function.update_of_ne heq]
        simp [Ne.symm heq]

theorem EventsInv.del (h : EventsInv s tl pl) (hlive : (s.mem (.event e)).isSome) :
    ∃ s', rilEventDel e s = some s' ∧ EventsInv s' tl pl ∧ OnlyTouches s s' e := by
  obtain ⟨d, hd⟩ := Option.isSome_iff_exists.mp (data_isSome ▸ hlive)
  rcases rilEventDel_result (fun j a hj => h.watch.live hj) hd (h.watch.index e d hd) with
    ⟨-, hrun⟩ | ⟨s', i, hi, hrun, hu⟩
  · exact ⟨s, hrun, h, fun a _ => rfl, fun a _ => Iff.rfl⟩
  · refine ⟨s', hrun, ⟨h.watch.unwatched hi hd hu, h.timers.sameButIndex
      (hu.sameButIndex hd) (h.timers.rings.congr hu.links)⟩, ?_, ?_⟩
    · intro a ha
      exact hu.data_ne ha
    · intro a ha
      rw [hu.watched_iff h.watch hi]
      simp [ha]

theorem EventsInv.timerAdd (h : EventsInv s tl pl) (hlive : (s.mem (.event e)).isSome)
    (hnew : ¬ s.Watched e) (hout : Unlisted s e) {tv now : Timeval} (htv : tv.Normal)
    (hnow : now.Normal) (hfuel : tl.length < fuel) :
    ∃ s' tl', rilTimerAdd fuel e (some tv) now s = some s' ∧ EventsInv s' tl' pl ∧
      tl'.length = tl.length + 1 ∧ OnlyTouches s s' e ∧ s'.readFds = s.readFds ∧
      ∀ a, a ∈ tl' → a ∈ tl ∨ a = e := by
  obtain ⟨htl, hpl⟩ := hout.not_mem h.timers.rings
  obtain ⟨s', l, r, hrun, hsplit, hinv, hrest⟩ :=
    rilTimerAdd_spec h.timers hlive htl hpl htv hnow hfuel
  obtain ⟨d, hd⟩ := Option.isSome_iff_exists.mp (data_isSome ▸ hlive)
  obtain ⟨s'', -, -, hrun', -, -, -, -, hdata, -⟩ :=
    rilTimerAdd_result tv now h.timers.rings hd htl hpl
  obtain rfl : s' = s'' := Option.some.inj (hrun.symm.trans (hrun' fuel hfuel))
  have htouch : ∀ a, a ≠ e → s'.data (.event a) = s.data (.event a) := by
    intro a ha
    rw [hdata, Function.update_of_ne (event_ne ha)]
  have htable : s'.watchTable = s.watchTable := by rw [hrest]
  have hbits : s'.readFds = s.readFds := by rw [hrest]
  have hn : s'.nfds = s.nfds := by rw [hrest]
  refine ⟨s', l ++ e :: r, hrun, ⟨?_, hinv⟩, ?_, ⟨htouch, ?_⟩, hbits, ?_⟩
  · refine h.watch.update_unwatched hnew htouch ?_ htable hbits hn
    intro d' hd'
    rw [hdata, Function.update_self] at hd'
    rw [← Option.some.inj hd']
    show d.index = -1
    exact h.watch.index_of_unwatched hnew hd
  · rw [hsplit]
    simp only [List.length_append, List.length_cons]
    omega
  · intro a _
    rw [State.Watched, State.Watched, htable]
  · intro a ha
    rw [hsplit]
    exact (mem_insert.mp ha).symm

/-- **A permitted call** has a result as soon as the fuel exceeds the number of timers,
keeps both invariants and touches its own event only. -/
theorem EventsInv.apply (h : EventsInv s tl pl) {op : ApiOp ι} (hop : op.Permitted s)
    (hfuel : tl.length < fuel) :
    ∃ s' tl', op.apply fuel s = some s' ∧ EventsInv s' tl' pl ∧
      tl'.length ≤ tl.length + 1 ∧ OnlyTouches s s' op.event := by
  cases op with
  | set ev fd persist func param =>
      obtain ⟨htl, hpl⟩ := Unlisted.not_mem hop.2 h.timers.rings
      obtain ⟨hinv, htouch⟩ := h.set hop.1 htl hpl fd persist func param
      exact ⟨_, tl, rfl, hinv, by omega, htouch⟩
  | add ev =>
      obtain ⟨s', hrun, hinv, htouch, -⟩ := h.add (e := ev) hop
      exact ⟨s', tl, hrun, hinv, by omega, htouch⟩
  | del ev =>
      obtain ⟨s', hrun, hinv, htouch⟩ := h.del hop
      exact ⟨s', tl, hrun, hinv, by omega, htouch⟩
  | timerAdd ev tv now =>
      obtain ⟨hlive, hnew, hout, htv, hnow⟩ := hop
      obtain ⟨s', tl', hrun, hinv, hlen, htouch, -⟩ :=
        h.timerAdd hlive hnew hout htv hnow hfuel
      exact ⟨s', tl', hrun, hinv, by omega, htouch⟩
  | free ev =>
      obtain ⟨htl, hpl⟩ := Unlisted.not_mem hop.2 h.timers.rings
      obtain ⟨hinv, htouch⟩ := h.replace hop.1 htl hpl (v := none) (by rintro d ⟨⟩)
      exact ⟨_, tl, rfl, hinv, by omega, htouch⟩

/-- `processTimeouts`: the expired timers become pending. -/
theorem EventsInv.timeouts (h : EventsInv s tl pl) {now : Timeval} (hnow : now.Normal)
    (hfuel : tl.length < fuel) :
    ∃ s', processTimeouts fuel now s = some s' ∧
      EventsInv s' (s.unexpired now tl) (pl ++ s.expired now tl) ∧ s'.data = s.data ∧
      s'.watchTable = s.watchTable ∧ s'.readFds = s.readFds := by
  obtain ⟨s', hrun, hrel, hinv⟩ := processTimeouts_spec h.timers hnow
  exact ⟨s', hrun fuel hfuel,
    ⟨h.watch.congr hrel.data hrel.watchTable hrel.readFds hrel.nfds, hinv⟩, hrel.data,
    hrel.watchTable, hrel.readFds⟩

/-- `processReadReadies` behind a `select` that returned the descriptors `R`, while no
watched event is pending. -/
theorem EventsInv.readies {R : Finset Int} (h : EventsInv s tl pl)
    (hpl : ∀ e ∈ pl, ¬ s.Watched e) (hR : ∀ fd ∈ R, s.readFds fd = true) :
    ∃ s', processReadReadies (bitsOf R) R.card s = some s' ∧
      EventsInv s' tl (pl ++ s.ready (bitsOf R)) ∧ SameButIndex s s' ∧
      ∀ a, s'.Watched a ↔
        s.Watched a ∧ ¬ (a ∈ s.ready (bitsOf R) ∧ s.persistOf a = some false) := by
  have hlen := h.watch.ready_length (R := R) (fun fd hfd => h.watch.bit fd (hR fd hfd))
  have hout : ∀ j ∈ List.finRange maxFdEvents, ∀ e, s.watchTable j = some e →
      e ∉ tl ∧ e ∉ pl := by
    intro j _ e hj
    exact ⟨h.watched_not_timer ⟨j, hj⟩, fun he => hpl e he ⟨j, hj⟩⟩
  obtain ⟨s', hrun, hready⟩ := processReadReadiesLoop_spec (n := R.card)
    h.watch h.timers.rings (List.nodup_finRange _) hout (by rw [← hlen]; rfl)
  exact ⟨s', hrun, ⟨hready.watch, h.timers.sameButIndex hready.data hready.rings⟩,
    hready.data, hready.watched⟩

/-- One turn of `firePending`, up to the callback. -/
theorem EventsInv.fire (h : EventsInv s tl (e :: pl)) :
    ∃ s', fireHead s (.event e) = some (s', firstNode .pendingList pl) ∧
      EventsInv s' tl pl ∧ s'.data = s.data ∧ s'.watchTable = s.watchTable := by
  obtain ⟨s', v, hrun, -, hkeep, -, hdata, hrest⟩ := fireHead_spec h.timers.rings.pending
  have htable : s'.watchTable = s.watchTable := by rw [hrest]
  refine ⟨s', hrun, ⟨h.watch.congr hdata htable (by rw [hrest]) (by rw [hrest]), ?_⟩, hdata,
    htable⟩
  exact h.timers.transfer (hkeep tl h.timers.rings) (List.Sublist.refl _)
    (fun a _ => by rw [hdata])

omit [DecidableEq ι] in
/-- Every watched descriptor lies below `nfds`, and so does every bit. -/
theorem EventsInv.bit_lt (h : EventsInv s tl pl) {fd : Int} (hfd : s.readFds fd = true) :
    fd < s.nfds := by
  obtain ⟨a, ⟨i, hi⟩, hafd⟩ := h.watch.bit fd hfd
  obtain ⟨d, hd, -, -, -, hlt⟩ := h.watch.slot i a hi
  have hdfd : d.fd = fd := by simpa [State.fdOf, hd] using hafd
  omega

end Ops

end RilEvent
