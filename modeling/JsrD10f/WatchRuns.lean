import JsrD10f.Runs
import JsrD10f.WatchTable

/-!
# The watch table over whole runs

Clients set, add and delete events in any order, and the loop hands over ready
events with any `fd_set` and count; `firePending` need not run in between.
Two things are asked of the clients: an event is written or added only while
it is not watched, and events watched at the same time have different
descriptors.
-/

namespace RilEvent

open RingList Runs

variable {ι : Type}

/-- The event was set before and is not watched, and no watched event has its
descriptor. -/
def Addable (s : State ι) (e : ι) : Prop :=
  ∃ fd, s.fdOf e = some fd ∧ 0 ≤ fd ∧ ¬ s.Watched e ∧ ∀ a, s.Watched a → s.fdOf a ≠ some fd

theorem Addable.data {s : State ι} {e : ι} (h : Addable s e) :
    ∃ d, s.data (.event e) = some d ∧ 0 ≤ d.fd ∧ ¬ s.Watched e ∧
      ∀ a, s.Watched a → s.fdOf a ≠ some d.fd := by
  obtain ⟨fd, hfd, hpos, hnew, hfresh⟩ := h
  cases hd : s.data (.event e) with
  | none => simp [State.fdOf, hd] at hfd
  | some d =>
      have hdfd : d.fd = fd := by simpa [State.fdOf, hd] using hfd
      exact ⟨d, rfl, by rw [hdfd]; exact hpos, hnew, by rw [hdfd]; exact hfresh⟩

/-- The watched events, in slot order. -/
def State.watchedEvents (s : State ι) : List ι :=
  (List.finRange maxFdEvents).filterMap s.watchTable

/-- With fewer watched events than slots, a slot is free. -/
theorem exists_free_slot {s : State ι} (h : s.watchedEvents.length < maxFdEvents) :
    ∃ i, s.watchTable i = none := by
  by_cases hex : ∃ i, s.watchTable i = none
  · exact hex
  · have hall : ∀ i ∈ List.finRange maxFdEvents, (s.watchTable i).isSome = true := by
      intro i _
      cases hi : s.watchTable i with
      | none => exact absurd ⟨i, hi⟩ hex
      | some e => rfl
    have hlen : s.watchedEvents.length = maxFdEvents := by
      rw [State.watchedEvents, List.length_filterMap_eq_countP, List.countP_eq_length.mpr hall,
        List.length_finRange]
    omega

theorem TailLive.relinked {s s' : State ι} {e p : Node ι} [DecidableEq ι]
    (hr : Relinked s s' (s.links.insertBefore e p .pendingList)) (he : (s.mem e).isSome) :
    TailLive s' := by
  refine ⟨e, ?_, by rw [hr.live]; exact he⟩
  rw [hr.links]
  simp [Links.insertBefore]

variable [DecidableEq ι]

/-- `ril_event_set` on an unwatched event keeps the invariant. -/
theorem WatchInv.set {s : State ι} (h : WatchInv s) {e : ι} (hnew : ¬ s.Watched e)
    (fd : Int) (persist : Bool) (func param : Nat) :
    WatchInv (rilEventSet e fd persist func param s) := by
  have hne : ∀ a, a ≠ e →
      (rilEventSet e fd persist func param s).data (.event a) = s.data (.event a) := by
    intro a ha
    simp [State.data, rilEventSet, ha]
  have hwatch : ∀ a, s.Watched a → a ≠ e := fun a hw hae => hnew (hae ▸ hw)
  refine ⟨?_, ?_, ?_, ?_⟩
  · intro i a hi
    obtain ⟨d, hd, hrest⟩ := h.slot i a hi
    exact ⟨d, by rw [hne a (hwatch a ⟨i, hi⟩), hd], hrest⟩
  · intro a d hd
    by_cases hae : a = e
    · left
      subst hae
      have hd : { Event.zero ι with
          fd := fd, index := -1, persist := persist, func := func, param := param } = d := by
        simpa [State.data, rilEventSet, Event.core, Event.zero] using hd
      rw [← hd]
    · rw [hne a hae] at hd
      exact h.index a d hd
  · intro b hbit
    obtain ⟨a, hw, hfd⟩ := h.bit b hbit
    refine ⟨a, hw, ?_⟩
    rw [State.fdOf, hne a (hwatch a hw)]
    exact hfd
  · intro a b hwa hwb heq
    refine h.distinct a b hwa hwb ?_
    rw [State.fdOf, State.fdOf, hne a (hwatch a hwa), hne b (hwatch b hwb)] at heq
    exact heq

/-- The walk over the ready events keeps the invariant. -/
theorem processReadReadiesLoop_keeps {s : State ι} (rfds : Int → Bool)
    (is : List (Fin maxFdEvents)) (n : Int) (h : WatchInv s) (htail : TailLive s) :
    ∃ s', processReadReadiesLoop rfds is n s = some s' ∧ WatchInv s' ∧ TailLive s' := by
  induction is generalizing s n with
  | nil => exact ⟨s, rfl, h, htail⟩
  | cons i is ih =>
      by_cases hn : n > 0
      · cases hi : s.watchTable i with
        | none =>
            obtain ⟨s', hrun, h', htail'⟩ := ih n h htail
            exact ⟨s', by simpa [processReadReadiesLoop, hn, hi] using hrun, h', htail'⟩
        | some rev =>
            obtain ⟨d, hd, -⟩ := h.slot i rev hi
            obtain ⟨v, hv, hvd⟩ := mem_of_data hd
            by_cases hset : rfds v.fd = true
            · obtain ⟨p, hp, hplive⟩ := htail
              have hhead : (s.mem .pendingList).isSome := by
                cases hm : s.mem .pendingList with
                | none => simp [State.links, hm] at hp
                | some w => rfl
              have hlive : (s.mem (.event rev)).isSome := by rw [hv]; rfl
              obtain ⟨s₁, hadd, hrel⟩ := addToList_spec hlive hhead hplive hp
              have h₁ : WatchInv s₁ :=
                h.congr hrel.data hrel.watchTable hrel.readFds hrel.nfds
              have htail₁ := TailLive.relinked hrel hlive
              have hi₁ : s₁.watchTable i = some rev := by rw [hrel.watchTable, hi]
              have hd₁ : s₁.data (.event rev) = some d := by rw [hrel.data, hd]
              cases hper : v.persist with
              | true =>
                  obtain ⟨s', hrun, h', htail'⟩ := ih (n - 1) h₁ htail₁
                  refine ⟨s', ?_, h', htail'⟩
                  simpa [processReadReadiesLoop, hn, hi, hv, hset, hadd, hper] using hrun
              | false =>
                  obtain ⟨s₂, hremove, hu⟩ := removeWatch_result i
                    (fun j a hj => h₁.live hj) hd₁
                  have htail₂ : TailLive s₂ := by
                    obtain ⟨q, hq, hqlive⟩ := htail₁
                    refine ⟨q, by rw [hu.links]; exact hq, ?_⟩
                    rw [← data_isSome, hu.data]
                    by_cases hqe : q = .event rev
                    · simp [hqe]
                    · rw [Function.update_of_ne hqe, data_isSome]
                      exact hqlive
                  obtain ⟨s', hrun, h', htail'⟩ := ih (n - 1) (h₁.unwatched hi₁ hd₁ hu) htail₂
                  refine ⟨s', ?_, h', htail'⟩
                  simpa [processReadReadiesLoop, hn, hi, hv, hset, hadd, hper, hremove] using hrun
            · obtain ⟨s', hrun, h', htail'⟩ := ih n h htail
              refine ⟨s', ?_, h', htail'⟩
              simpa [processReadReadiesLoop, hn, hi, hv, hset] using hrun
      · exact ⟨s, by simp [processReadReadiesLoop, hn], h, htail⟩

/-! ## Runs -/

inductive WatchOp (ι : Type) where
  | set (ev : ι) (fd : Int) (persist : Bool) (func param : Nat)
  | add (ev : ι)
  | del (ev : ι)
  | readies (rfds : Int → Bool) (n : Int)

def watchStep (s : State ι) : WatchOp ι → Option (State ι)
  | .set ev fd persist func param => some (rilEventSet ev fd persist func param s)
  | .add ev => rilEventAdd ev s
  | .del ev => rilEventDel ev s
  | .readies rfds n => processReadReadies rfds n s

/-- What is asked of the clients.  An event is live once it was set. -/
def WatchOp.Legal (s : State ι) : WatchOp ι → Prop
  | .set ev _ _ _ _ => ¬ s.Watched ev
  | .add ev => Addable s ev
  | .del ev => (s.mem (.event ev)).isSome
  | .readies _ _ => True

/-- **The step lemma.**  A legal operation has a result and keeps the
invariant. -/
theorem watchStep_keeps {s : State ι} {op : WatchOp ι} (h : WatchInv s) (htail : TailLive s)
    (hlegal : op.Legal s) :
    ∃ s', watchStep s op = some s' ∧ WatchInv s' ∧ TailLive s' := by
  have hsame : ∀ {s' : State ι}, s'.links = s.links → (∀ n, (s.mem n).isSome →
      (s'.mem n).isSome) → TailLive s' := by
    intro s' hlinks hlive
    obtain ⟨p, hp, hplive⟩ := htail
    exact ⟨p, by rw [hlinks]; exact hp, hlive p hplive⟩
  cases op with
  | set ev fd persist func param =>
      refine ⟨_, rfl, h.set hlegal fd persist func param, ?_⟩
      obtain ⟨p, hp, hplive⟩ := htail
      refine ⟨p, by simpa [State.links, rilEventSet] using hp, ?_⟩
      by_cases hpe : p = .event ev
      · simp [rilEventSet, hpe]
      · simpa [rilEventSet, hpe] using hplive
  | add ev =>
      obtain ⟨d, hd, hpos, hnew, hfresh⟩ := Addable.data hlegal
      rcases rilEventAdd_result hd with ⟨hrun, -⟩ | ⟨s', i, hrun, hfree, hw⟩
      · exact ⟨s, hrun, h, htail⟩
      · refine ⟨s', hrun, h.watching hfree hd hnew hpos hfresh hw, hsame hw.links ?_⟩
        intro n hn
        rw [← data_isSome, hw.data]
        by_cases hne : n = .event ev
        · simp [hne]
        · rw [Function.update_of_ne hne, data_isSome]
          exact hn
  | del ev =>
      obtain ⟨v, hv⟩ := Option.isSome_iff_exists.mp hlegal
      have hd : s.data (.event ev) = some v.core := by simp [State.data, hv]
      rcases rilEventDel_result (fun j a hj => h.live hj) hd (h.index ev v.core hd) with
        ⟨-, hrun⟩ | ⟨s', i, hi, hrun, hu⟩
      · exact ⟨s, hrun, h, htail⟩
      · refine ⟨s', hrun, h.unwatched hi hd hu, hsame hu.links ?_⟩
        intro n hn
        rw [← data_isSome, hu.data]
        by_cases hne : n = .event ev
        · simp [hne]
        · rw [Function.update_of_ne hne, data_isSome]
          exact hn
  | readies rfds n => exact processReadReadiesLoop_keeps rfds _ n h htail

/-- How the four records of a watched descriptor agree, and what the next
`ril_event_add` or `ril_event_del` does. -/
structure WatchSound (s : State ι) : Prop where
  /-- A slot holds an event whose `index` is that slot. -/
  slotIndex : ∀ i e, s.watchTable i = some e → s.indexOf e = some (i.val : Int)
  /-- No event occupies two slots. -/
  oneSlot : ∀ i j e, s.watchTable i = some e → s.watchTable j = some e → i = j
  /-- An event with `index` -1 occupies no slot. -/
  noSlot : ∀ e, s.indexOf e = some (-1) → ¬ s.Watched e
  /-- The set bits are the descriptors of the watched events. -/
  bits : ∀ fd, s.readFds fd = true ↔ ∃ e, s.Watched e ∧ s.fdOf e = some fd
  /-- Watched descriptors lie below `nfds`. -/
  below : ∀ e fd, s.Watched e → s.fdOf e = some fd → fd < s.nfds
  /-- `ril_event_add` finds room as long as a slot is left. -/
  addWatches : ∀ e, Addable s e → s.watchedEvents.length < maxFdEvents →
    ∃ s', rilEventAdd e s = some s' ∧ s'.Watched e
  /-- `ril_event_del` of a watched event touches its own slot and bit only. -/
  delOwn : ∀ e, s.Watched e → ∃ s' fd, rilEventDel e s = some s' ∧ s.fdOf e = some fd ∧
    ¬ s'.Watched e ∧ s'.readFds fd = false ∧
    (∀ j, s.watchTable j ≠ some e → s'.watchTable j = s.watchTable j) ∧
    ∀ b, b ≠ fd → s'.readFds b = s.readFds b

theorem WatchInv.sound {s : State ι} (h : WatchInv s) : WatchSound s where
  slotIndex := by
    intro i e hi
    obtain ⟨d, hd, hidx, -⟩ := h.slot i e hi
    simp [State.indexOf, hd, hidx]
  oneSlot := fun i j e hi hj => h.slot_unique hi hj
  noSlot := by
    intro e hneg hw
    obtain ⟨i, hi⟩ := hw
    obtain ⟨d, hd, hidx, -⟩ := h.slot i e hi
    have hd1 : d.index = -1 := by simpa [State.indexOf, hd] using hneg
    omega
  bits := by
    intro fd
    constructor
    · exact h.bit fd
    · intro hex
      obtain ⟨e, ⟨i, hi⟩, hfd⟩ := hex
      obtain ⟨d, hd, -, -, hbit, -⟩ := h.slot i e hi
      have hdfd : d.fd = fd := by simpa [State.fdOf, hd] using hfd
      rw [← hdfd]
      exact hbit
  below := by
    intro e fd hw hfd
    obtain ⟨i, hi⟩ := hw
    obtain ⟨d, hd, -, -, -, hlt⟩ := h.slot i e hi
    have hdfd : d.fd = fd := by simpa [State.fdOf, hd] using hfd
    rw [← hdfd]
    exact hlt
  addWatches := by
    intro e hadd hroom
    obtain ⟨d, hd, -⟩ := hadd.data
    obtain ⟨j, hj⟩ := exists_free_slot hroom
    rcases rilEventAdd_result hd with ⟨-, hfull⟩ | ⟨s', i, hrun, hfree, hw⟩
    · exact absurd hj (hfull j)
    · exact ⟨s', hrun, (hw.watched_iff hfree).mpr (Or.inr rfl)⟩
  delOwn := by
    intro e hw
    obtain ⟨i, hi⟩ := hw
    obtain ⟨d, hd, hidx, -⟩ := h.slot i e hi
    rcases rilEventDel_result (fun j a hj => h.live hj) hd (h.index e d hd) with
      ⟨hneg, -⟩ | ⟨s', j, hj, hrun, hu⟩
    · omega
    · refine ⟨s', d.fd, hrun, by simp [State.fdOf, hd], ?_, ?_, ?_, ?_⟩
      · intro hw'
        exact ((hu.watched_iff h hj).mp hw').2 rfl
      · rw [hu.bits]
        exact Function.update_self _ _ _
      · intro k hk
        have hkj : k ≠ j := fun hkj => hk (hkj ▸ hj)
        rw [hu.table, Function.update_of_ne hkj]
      · intro b hb
        rw [hu.bits, Function.update_of_ne hb]

theorem blank_watch : WatchInv (rilEventInit (State.blank : State ι)) ∧
    TailLive (rilEventInit (State.blank : State ι)) := by
  refine ⟨⟨?_, ?_, ?_, ?_⟩, ?_⟩
  · intro i e hi
    cases hi
  · intro e d hd
    cases hd
  · intro fd hfd
    cases hfd
  · intro e e' he
    obtain ⟨i, hi⟩ := he
    cases hi
  · exact ⟨.pendingList, by simp [State.links, rilEventInit, initList],
      by simp [rilEventInit]⟩

/-- **The watch table in every run.**  Legal operations from `ril_event_init`
on have a result, and the four records agree after them. -/
theorem watch_table_every_run (ops : List (WatchOp ι))
    (hlegal : Along watchStep WatchOp.Legal (rilEventInit State.blank) ops) :
    ∃ s, exec watchStep (rilEventInit State.blank) ops = some s ∧ WatchSound s := by
  obtain ⟨s', hexec, h', -⟩ := exec_progress (fun s => WatchInv s ∧ TailLive s)
    (fun s op hs hop => watchStep_keeps hs.1 hs.2 hop) blank_watch hlegal
  exact ⟨s', hexec, h'.sound⟩

/-- Two events are added, the one that is not persistent becomes ready, and
the other is deleted. -/
def twoWatches : List (WatchOp Bool) :=
  [.set true 5 true 11 0, .add true, .set false 3 false 12 0, .add false,
   .readies (fun fd => fd == 3) 1, .del true]

theorem watch_table_twoWatches :
    ∃ s, exec watchStep (rilEventInit State.blank) twoWatches = some s ∧ WatchSound s := by
  refine watch_table_every_run twoWatches ⟨?_, fun t ht => ?_⟩
  · show ¬ State.Watched _ _
    decide
  cases ht
  refine ⟨⟨5, rfl, by decide, by decide, by decide⟩, fun t ht => ?_⟩
  cases ht
  refine ⟨?_, fun t ht => ?_⟩
  · show ¬ State.Watched _ _
    decide
  cases ht
  refine ⟨⟨3, rfl, by decide, by decide, by decide⟩, fun t ht => ?_⟩
  cases ht
  refine ⟨trivial, fun t ht => ?_⟩
  cases ht
  exact ⟨rfl, fun t _ => trivial⟩

end RilEvent
