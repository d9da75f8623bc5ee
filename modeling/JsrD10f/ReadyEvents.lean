import JsrD10f.TimerList
import JsrD10f.WatchRuns

/-!
# Handing over ready events

`processReadReadies` walks over the slots and appends every watched event
whose descriptor is ready to `pending_list`; those that are not persistent
leave the table at once.  It stops as soon as it has found as many events as
`select` counted.  With pairwise different descriptors that count is the
number of ready slots, so that the early exit loses nothing.
-/

namespace RilEvent

open RingList Runs

variable {ι : Type}

/-! ## Ready events -/

/-- The `persist` flag of a live event. -/
def State.persistOf (s : State ι) (e : ι) : Option Bool :=
  (s.data (.event e)).map (·.persist)

/-- The events of the slots `is` whose descriptor is in `rfds`. -/
def State.readyIn (s : State ι) (rfds : Int → Bool) (is : List (Fin maxFdEvents)) : List ι :=
  (is.filterMap s.watchTable).filter (fun e => (s.fdOf e).any rfds)

/-- The watched events whose descriptor is in `rfds`, by slot number. -/
def State.ready (s : State ι) (rfds : Int → Bool) : List ι :=
  s.readyIn rfds (List.finRange maxFdEvents)

theorem mem_readyIn {s : State ι} {rfds : Int → Bool} {is : List (Fin maxFdEvents)} {e : ι} :
    e ∈ s.readyIn rfds is ↔
      (∃ i ∈ is, s.watchTable i = some e) ∧ ∃ fd, s.fdOf e = some fd ∧ rfds fd = true := by
  rw [State.readyIn, List.mem_filter, List.mem_filterMap, Option.any_eq_true]

theorem readyIn_congr {s s' : State ι} {rfds : Int → Bool} {is : List (Fin maxFdEvents)}
    (htable : ∀ i ∈ is, s'.watchTable i = s.watchTable i)
    (hfd : ∀ e, s'.fdOf e = s.fdOf e) : s'.readyIn rfds is = s.readyIn rfds is := by
  rw [State.readyIn, State.readyIn, List.filterMap_congr htable]
  exact List.filter_congr (fun e _ => by rw [hfd e])

/-- `s'` has the data of `s` up to slot numbers. -/
def SameButIndex (s s' : State ι) : Prop :=
  ∀ n d, s.data n = some d → ∃ k, s'.data n = some { d with index := k }

theorem SameButIndex.of_eq {s s' : State ι} (h : s'.data = s.data) : SameButIndex s s' :=
  fun _ d hd => ⟨d.index, by rw [h, hd]⟩

theorem SameButIndex.trans {s t u : State ι} (h₁ : SameButIndex s t) (h₂ : SameButIndex t u) :
    SameButIndex s u := by
  intro n d hd
  obtain ⟨k, hk⟩ := h₁ n d hd
  obtain ⟨k', hk'⟩ := h₂ n { d with index := k } hk
  exact ⟨k', hk'⟩

/-- The effect of `processReadReadies` on the slots `is`, for a count `n` that
is the number of ready events there: it appends them to `pending_list` and
takes those that are not persistent out of the table. -/
structure Readied (s s' : State ι) (tl pl : List ι) (rfds : Int → Bool)
    (is : List (Fin maxFdEvents)) : Prop where
  watch : WatchInv s'
  rings : Rings s' tl (pl ++ s.readyIn rfds is)
  calls : s'.calls = s.calls
  data : SameButIndex s s'
  watched : ∀ e, s'.Watched e ↔
    s.Watched e ∧ ¬ (e ∈ s.readyIn rfds is ∧ s.persistOf e = some false)

theorem Readied.refl {s : State ι} {tl pl : List ι} {rfds : Int → Bool}
    {is : List (Fin maxFdEvents)} (h : WatchInv s) (hr : Rings s tl pl)
    (hnone : s.readyIn rfds is = []) : Readied s s tl pl rfds is where
  watch := h
  rings := by simpa [hnone] using hr
  calls := rfl
  data := SameButIndex.of_eq rfl
  watched := by simp [hnone]

/-- The effect of one turn, for the slot `i` with the ready event `rev`. -/
structure Turned (s t : State ι) (tl pl : List ι) (i : Fin maxFdEvents) (rev : ι) : Prop where
  watch : WatchInv t
  rings : Rings t tl (pl ++ [rev])
  calls : t.calls = s.calls
  data : SameButIndex s t
  table : ∀ j, j ≠ i → t.watchTable j = s.watchTable j
  fd : ∀ e, t.fdOf e = s.fdOf e
  persist : ∀ e, t.persistOf e = s.persistOf e
  watched : ∀ e, t.Watched e ↔ s.Watched e ∧ ¬ (e = rev ∧ s.persistOf e = some false)

/-- The slots behind are as they were. -/
theorem Turned.readyIn_eq {s t : State ι} {tl pl : List ι} {rfds : Int → Bool}
    {i : Fin maxFdEvents} {is : List (Fin maxFdEvents)} {rev : ι} (h : Turned s t tl pl i rev)
    (hi : i ∉ is) : t.readyIn rfds is = s.readyIn rfds is :=
  readyIn_congr (fun j hj => h.table j fun hji => hi (hji ▸ hj)) h.fd

/-- What the rest of the walk does behind a turn is what the whole walk does. -/
theorem Turned.readied {s t s' : State ι} {tl pl : List ι} {rfds : Int → Bool}
    {i : Fin maxFdEvents} {is : List (Fin maxFdEvents)} {rev : ι} (h : Turned s t tl pl i rev)
    (hi : i ∉ is) (hready : s.readyIn rfds (i :: is) = rev :: s.readyIn rfds is)
    (h' : Readied t s' tl (pl ++ [rev]) rfds is) : Readied s s' tl pl rfds (i :: is) where
  watch := h'.watch
  rings := by
    rw [hready]
    have hr := h'.rings
    rw [h.readyIn_eq hi] at hr
    simpa using hr
  calls := h'.calls.trans h.calls
  data := h.data.trans h'.data
  watched := by
    intro e
    rw [h'.watched, h.watched, h.readyIn_eq hi, h.persist, hready, List.mem_cons]
    tauto

variable [DecidableEq ι]

theorem Unwatched.sameButIndex {s s' : State ι} {i : Fin maxFdEvents} {e : ι} {d : Event ι}
    (hu : Unwatched s s' i e d) (hd : s.data (.event e) = some d) : SameButIndex s s' := by
  intro n dn hn
  by_cases hne : n = .event e
  · rw [hne, hd] at hn
    cases hn
    exact ⟨-1, by rw [hne, hu.data, Function.update_self]⟩
  · exact ⟨dn.index, by rw [hu.data, Function.update_of_ne hne, hn]⟩

theorem Unwatched.persistOf_eq {s s' : State ι} {i : Fin maxFdEvents} {e : ι} {d : Event ι}
    (hu : Unwatched s s' i e d) (hd : s.data (.event e) = some d) (a : ι) :
    s'.persistOf a = s.persistOf a := by
  by_cases hae : a = e
  · simp [State.persistOf, hae, hu.data, hd]
  · rw [State.persistOf, State.persistOf, hu.data_ne hae]

theorem Unwatched.fdOf_eq {s s' : State ι} {i : Fin maxFdEvents} {e : ι} {d : Event ι}
    (hu : Unwatched s s' i e d) (hd : s.data (.event e) = some d) (a : ι) :
    s'.fdOf a = s.fdOf a := by
  by_cases hae : a = e
  · simp [State.fdOf, hae, hu.data, hd]
  · exact hu.fdOf_ne hae

/-- One turn with a ready event: it goes to the end of `pending_list`, and leaves the table
unless it is persistent. -/
theorem processReadReadiesLoop_turn {s : State ι} {rfds : Int → Bool} {tl pl : List ι}
    {i : Fin maxFdEvents} (is : List (Fin maxFdEvents)) {n : Int} (h : WatchInv s)
    (hr : Rings s tl pl) (hpos : n > 0) {rev : ι} (hi : s.watchTable i = some rev)
    {fd : Int} (hfd : s.fdOf rev = some fd) (hset : rfds fd = true)
    (htl : rev ∉ tl) (hpl : rev ∉ pl) :
    ∃ t, processReadReadiesLoop rfds (i :: is) n s = processReadReadiesLoop rfds is (n - 1) t ∧
      Turned s t tl pl i rev := by
  obtain ⟨d, hd, -⟩ := h.slot i rev hi
  obtain ⟨v, hv, hvd⟩ := mem_of_data hd
  have hvfd : v.fd = fd := by
    simpa [State.fdOf, State.data, hv] using hfd
  have hpersist : s.persistOf rev = some v.persist := by
    simp [State.persistOf, State.data, hv]
  obtain ⟨s₁, hadd, hrel, hrings₁⟩ := addToList_pending hr (by rw [hv]; rfl) htl hpl
  have h₁ : WatchInv s₁ := h.congr hrel.data hrel.watchTable hrel.readFds hrel.nfds
  have hfd₁ : ∀ e, s₁.fdOf e = s.fdOf e := by
    intro e
    rw [State.fdOf, State.fdOf, hrel.data]
  have hper₁ : ∀ e, s₁.persistOf e = s.persistOf e := by
    intro e
    rw [State.persistOf, State.persistOf, hrel.data]
  have hwatch₁ : ∀ e, s₁.Watched e ↔ s.Watched e := by
    intro e
    rw [State.Watched, State.Watched, hrel.watchTable]
  cases hper : v.persist with
  | true =>
      refine ⟨s₁, ?_, h₁, hrings₁, hrel.calls, SameButIndex.of_eq hrel.data, ?_, hfd₁, hper₁, ?_⟩
      · simp [processReadReadiesLoop, hpos, hi, hv, hvfd, hset, hadd, hper]
      · intro j _
        rw [hrel.watchTable]
      · intro e
        rw [hwatch₁]
        constructor
        · intro hw
          refine ⟨hw, ?_⟩
          rintro ⟨her, hfalse⟩
          rw [her, hpersist, hper] at hfalse
          cases hfalse
        · exact fun hw => hw.1
  | false =>
      have hd₁ : s₁.data (.event rev) = some d := by rw [hrel.data, hd]
      have hi₁ : s₁.watchTable i = some rev := by rw [hrel.watchTable, hi]
      obtain ⟨s₂, hremove, hu⟩ := removeWatch_result i (fun j a hj => h₁.live hj) hd₁
      refine ⟨s₂, ?_, h₁.unwatched hi₁ hd₁ hu, hrings₁.congr hu.links, hu.calls.trans hrel.calls,
        (SameButIndex.of_eq hrel.data).trans (hu.sameButIndex hd₁), ?_, ?_, ?_, ?_⟩
      · simp [processReadReadiesLoop, hpos, hi, hv, hvfd, hset, hadd, hper, hremove]
      · intro j hji
        rw [hu.table, Function.update_of_ne hji, hrel.watchTable]
      · intro e
        rw [hu.fdOf_eq hd₁, hfd₁]
      · intro e
        rw [hu.persistOf_eq hd₁, hper₁]
      · intro e
        rw [hu.watched_iff h₁ hi₁, hwatch₁]
        constructor
        · intro hw
          exact ⟨hw.1, fun hrev => hw.2 hrev.1⟩
        · intro hw
          refine ⟨hw.1, ?_⟩
          intro her
          exact hw.2 ⟨her, by rw [her, hpersist, hper]⟩

theorem processReadReadiesLoop_spec {s : State ι} {rfds : Int → Bool} {tl pl : List ι}
    {is : List (Fin maxFdEvents)} {n : Int} (h : WatchInv s) (hr : Rings s tl pl)
    (hnd : is.Nodup) (hout : ∀ j ∈ is, ∀ e, s.watchTable j = some e → e ∉ tl ∧ e ∉ pl)
    (hn : n = (s.readyIn rfds is).length) :
    ∃ s', processReadReadiesLoop rfds is n s = some s' ∧ Readied s s' tl pl rfds is := by
  induction is generalizing s pl n with
  | nil => exact ⟨s, rfl, Readied.refl h hr rfl⟩
  | cons i is ih =>
      by_cases hpos : n > 0
      · obtain ⟨hinot, hnd⟩ := List.nodup_cons.mp hnd
        -- a slot without a ready event is passed over
        have hskip : s.readyIn rfds (i :: is) = s.readyIn rfds is →
            processReadReadiesLoop rfds (i :: is) n s = processReadReadiesLoop rfds is n s →
            ∃ s', processReadReadiesLoop rfds (i :: is) n s = some s' ∧
              Readied s s' tl pl rfds (i :: is) := by
          intro hready hloop
          rw [hready] at hn
          obtain ⟨s', hrun, h'⟩ := ih h hr hnd
            (fun j hj => hout j (List.mem_cons_of_mem _ hj)) hn
          refine ⟨s', hloop.trans hrun, h'.watch, ?_, h'.calls, h'.data, ?_⟩
          · rw [hready]
            exact h'.rings
          · rw [hready]
            exact h'.watched
        cases hi : s.watchTable i with
        | none =>
            apply hskip
            · simp [State.readyIn, hi]
            · simp [processReadReadiesLoop, hpos, hi]
        | some rev =>
            obtain ⟨d, hd, -⟩ := h.slot i rev hi
            obtain ⟨v, hv, -⟩ := mem_of_data hd
            have hfd : s.fdOf rev = some v.fd := by simp [State.fdOf, State.data, hv]
            by_cases hset : rfds v.fd = true
            · have hready : s.readyIn rfds (i :: is) = rev :: s.readyIn rfds is := by
                simp [State.readyIn, hi, hfd, hset]
              have hother : ∀ j ∈ is, ∀ e, s.watchTable j = some e → e ≠ rev := by
                intro j hj e hje her
                exact hinot (h.slot_unique hi (her ▸ hje) ▸ hj)
              obtain ⟨htl, hpl⟩ := hout i List.mem_cons_self rev hi
              obtain ⟨t, hturn, ht⟩ :=
                processReadReadiesLoop_turn is h hr hpos hi hfd hset htl hpl
              have hout' : ∀ j ∈ is, ∀ e, t.watchTable j = some e → e ∉ tl ∧ e ∉ pl ++ [rev] := by
                intro j hj e hje
                rw [ht.table j fun hji => hinot (hji ▸ hj)] at hje
                obtain ⟨hetl, hepl⟩ := hout j (List.mem_cons_of_mem _ hj) e hje
                exact ⟨hetl, by simpa [hepl] using hother j hj e hje⟩
              have hn' : n - 1 = (t.readyIn rfds is).length := by
                rw [ht.readyIn_eq hinot]
                rw [hready, List.length_cons] at hn
                omega
              obtain ⟨s', hrun, h'⟩ := ih ht.watch ht.rings hnd hout' hn'
              exact ⟨s', hturn.trans hrun, ht.readied hinot hready h'⟩
            · apply hskip
              · simp [State.readyIn, hi, hfd, hset]
              · simp [processReadReadiesLoop, hpos, hi, hv, hset]
      · have hnil : s.readyIn rfds (i :: is) = [] := by
          apply List.length_eq_zero_iff.mp
          omega
        exact ⟨s, by simp [processReadReadiesLoop, hpos], Readied.refl h hr hnil⟩

end RilEvent
