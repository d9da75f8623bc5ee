import JsrD10f.ReadyEvents
import Mathlib.Data.Finset.Card

/-!
# One iteration of the event loop

Behind `select` the loop runs `processTimeouts`, `processReadReadies` and
`firePending`.  The first two fill `pending_list` with the expired timers and
then the ready events; the third calls them while their callbacks set, add,
delete and free other events.  The theorem at the end says that the callbacks
made are exactly those, once each and in that order.

`FireInv` is what survives a callback.  It asks less than `WatchInv`, because
callbacks may watch two events with one descriptor or add an event twice: the
only thing a later callback depends on is that an event with a slot number is
the one in that slot.
-/

namespace RilEvent

open RingList Runs

variable {ι : Type}

/-- The callback that `firePending` makes for an event, from the data the event
has in `s`. -/
def State.callOf (s : State ι) (e : ι) (watched : Bool) : Call ι :=
  let d := (s.data (.event e)).getD (Event.zero ι)
  ⟨e, d.func, d.fd, d.param, watched⟩

variable [DecidableEq ι]

/-! ## Callbacks -/

/-- `timer_list` is a ring apart from the pending events. -/
def TimersApart (s : State ι) : Prop :=
  ∃ tl : List ι, Ring s.links .timerList (tl.map .event) ∧
    ∀ e ∈ tl, ¬ InList s .pendingList e

/-- What a callback may do: set, add or delete an event that is not still
pending, arm one that is on no list while `timer_list` can be walked, and free
one that is neither pending nor watched, such as its own. -/
def ApiOp.Legal (s : State ι) : ApiOp ι → Prop
  | .set ev _ _ _ _ => ¬ InList s .pendingList ev
  | .add ev => (s.mem (.event ev)).isSome ∧ ¬ InList s .pendingList ev
  | .del ev => (s.mem (.event ev)).isSome ∧ ¬ InList s .pendingList ev
  | .timerAdd ev _ _ => (s.mem (.event ev)).isSome ∧ Unlisted s ev ∧ TimersApart s
  | .free ev => ¬ InList s .pendingList ev ∧ ¬ s.Watched ev

/-- The callbacks of one `firePending` make legal operations only. -/
def FireLegal (body : State ι → List (ApiOp ι)) : Nat → Node ι → State ι → Prop
  | 0, _, _ => True
  | fuel + 1, ev, s => ev = .pendingList ∨ ∀ s₁ next, fireHead s ev = some (s₁, next) →
      Along (fun s op => op.apply fuel s) ApiOp.Legal s₁ (body s₁) ∧
      ∀ s₂, applyAll fuel (body s₁) s₁ = some s₂ → FireLegal body fuel next s₂

/-- The state while the events `pl` are still pending: they have the data
`info` and are watched as `w` says. -/
structure FireInv (s : State ι) (pl : List ι) (info : ι → Event ι) (w : ι → Bool) :
    Prop where
  ring : Ring s.links .pendingList (pl.map .event)
  live : ∀ i e, s.watchTable i = some e → (s.data (.event e)).isSome
  index : ∀ e d, s.data (.event e) = some d → d.index = -1 ∨
    ∃ i : Fin maxFdEvents, s.watchTable i = some e ∧ d.index = (i.val : Int)
  data : ∀ e ∈ pl, s.data (.event e) = some (info e)
  watched : ∀ e ∈ pl, s.Watched e ↔ w e = true

section Keeps

variable {s : State ι} {pl : List ι} {info : ι → Event ι} {w : ι → Bool}

/-- Replacing the record of an event that is not pending, in a table that is
left alone. -/
theorem FireInv.update {s' : State ι} {e : ι}
    (h : FireInv s pl info w) (he : e ∉ pl)
    (hring : Ring s'.links .pendingList (pl.map .event))
    (htable : s'.watchTable = s.watchTable)
    (hdata : ∀ a, a ≠ e → s'.data (.event a) = s.data (.event a))
    (hlive : s.Watched e → (s'.data (.event e)).isSome)
    (hindex : ∀ d, s'.data (.event e) = some d → d.index = -1 ∨
      ∃ i : Fin maxFdEvents, s.watchTable i = some e ∧ d.index = (i.val : Int)) :
    FireInv s' pl info w where
  ring := hring
  live := by
    intro i a hi
    rw [htable] at hi
    by_cases hae : a = e
    · rw [hae]
      exact hlive ⟨i, hae ▸ hi⟩
    · rw [hdata a hae]
      exact h.live i a hi
  index := by
    intro a d hd
    rw [htable]
    by_cases hae : a = e
    · subst hae
      exact hindex d hd
    · rw [hdata a hae] at hd
      exact h.index a d hd
  data := by
    intro a ha
    rw [hdata a (fun hae => he (hae ▸ ha))]
    exact h.data a ha
  watched := by
    intro a ha
    rw [State.Watched, htable]
    exact h.watched a ha

theorem FireInv.watching {s' : State ι} {i : Fin maxFdEvents} {e : ι} {d : Event ι}
    (h : FireInv s pl info w) (he : e ∉ pl) (hfree : s.watchTable i = none)
    (hw : Watching s s' i e d) : FireInv s' pl info w where
  ring := hw.links ▸ h.ring
  live := by
    intro j a hj
    by_cases hae : a = e
    · rw [hae, hw.data]
      simp
    · rw [hw.data_ne hae]
      rcases (hw.slot_iff hfree).mp hj with hold | ⟨-, heq⟩
      · exact h.live j a hold
      · exact absurd heq hae
  index := by
    intro a da hda
    by_cases hae : a = e
    · right
      refine ⟨i, (hw.slot_iff hfree).mpr (Or.inr ⟨rfl, hae⟩), ?_⟩
      rw [hae, hw.data, Function.update_self] at hda
      rw [← Option.some.inj hda]
    · rw [hw.data_ne hae] at hda
      rcases h.index a da hda with hneg | ⟨j, hj, hidx⟩
      · exact Or.inl hneg
      · exact Or.inr ⟨j, (hw.slot_iff hfree).mpr (Or.inl hj), hidx⟩
  data := by
    intro a ha
    rw [hw.data_ne (fun hae => he (hae ▸ ha))]
    exact h.data a ha
  watched := by
    intro a ha
    rw [hw.watched_iff hfree, ← h.watched a ha]
    constructor
    · intro hwa
      rcases hwa with hwa | hae
      · exact hwa
      · exact absurd (hae ▸ ha) he
    · exact Or.inl

theorem FireInv.unwatched {s' : State ι} {i : Fin maxFdEvents} {e : ι} {d : Event ι}
    (h : FireInv s pl info w) (he : e ∉ pl) (hslot : s.watchTable i = some e)
    (hu : Unwatched s s' i e d) : FireInv s' pl info w := by
  have hback : ∀ j a, s'.watchTable j = some a → s.watchTable j = some a := by
    intro j a hj
    rw [hu.table] at hj
    by_cases hji : j = i
    · rw [hji, Function.update_self] at hj
      cases hj
    · rwa [Function.update_of_ne hji] at hj
  have hkeep : ∀ j a, a ≠ e → s.watchTable j = some a → s'.watchTable j = some a := by
    intro j a hae hj
    have hji : j ≠ i := by
      intro hji
      rw [hji, hslot] at hj
      exact hae (Option.some.inj hj).symm
    rw [hu.table, Function.update_of_ne hji]
    exact hj
  refine ⟨hu.links ▸ h.ring, ?_, ?_, ?_, ?_⟩
  · intro j a hj
    by_cases hae : a = e
    · rw [hae, hu.data]
      simp
    · rw [hu.data_ne hae]
      exact h.live j a (hback j a hj)
  · intro a da hda
    by_cases hae : a = e
    · left
      rw [hae, hu.data, Function.update_self] at hda
      rw [← Option.some.inj hda]
    · rw [hu.data_ne hae] at hda
      rcases h.index a da hda with hneg | ⟨j, hj, hidx⟩
      · exact Or.inl hneg
      · exact Or.inr ⟨j, hkeep j a hae hj, hidx⟩
  · intro a ha
    rw [hu.data_ne (fun hae => he (hae ▸ ha))]
    exact h.data a ha
  · intro a ha
    rw [← h.watched a ha]
    constructor
    · intro hwa
      obtain ⟨j, hj⟩ := hwa
      exact ⟨j, hback j a hj⟩
    · intro hwa
      obtain ⟨j, hj⟩ := hwa
      exact ⟨j, hkeep j a (fun hae => he (hae ▸ ha)) hj⟩

omit [DecidableEq ι] in
theorem FireInv.not_pending {e : ι} (h : FireInv s pl info w)
    (hnot : ¬ InList s .pendingList e) : e ∉ pl :=
  fun hm => hnot ⟨pl, h.ring, hm⟩

/-- Setting an event that is not pending. -/
theorem FireInv.set {ev : ι} (h : FireInv s pl info w) (hpl : ev ∉ pl) (fd : Int)
    (persist : Bool) (func param : Nat) :
    FireInv (rilEventSet ev fd persist func param s) pl info w := by
  refine h.update hpl (ring_update h.ring (by simp) hpl _) rfl ?_ ?_ ?_
  · intro a hae
    simp [State.data, rilEventSet, hae]
  · intro _
    simp [State.data, rilEventSet]
  · intro d hd
    left
    simp only [State.data, rilEventSet, Function.update_self, Option.map_some] at hd
    rw [← Option.some.inj hd]
    rfl

/-- Adding a timer that is on no list. -/
theorem FireInv.timerAdd {tl : List ι} {ev : ι} {d : Event ι} (h : FireInv s pl info w)
    (hrings : Rings s tl pl) (hd : s.data (.event ev) = some d) (htl : ev ∉ tl) (hpl : ev ∉ pl)
    (tv now : Timeval) :
    ∃ s', (∀ fuel, tl.length + 1 ≤ fuel → rilTimerAdd fuel ev (some tv) now s = some s') ∧
      FireInv s' pl info w ∧ s'.calls = s.calls := by
  obtain ⟨s', l, r, hrun, -, hrings', -, -, hdata, hrest⟩ :=
    rilTimerAdd_result tv now hrings hd htl hpl
  refine ⟨s', fun fuel hfuel => hrun fuel (by omega), ?_, by rw [hrest]⟩
  refine h.update hpl hrings'.pending (by rw [hrest]) ?_ ?_ ?_
  · intro a hae
    rw [hdata, Function.update_of_ne (event_ne hae)]
  · intro _
    rw [hdata]
    simp
  · intro d' hd'
    rw [hdata, Function.update_self] at hd'
    rw [← Option.some.inj hd']
    exact h.index ev d hd

/-- Freeing an event that is neither pending nor watched. -/
theorem FireInv.free {ev : ι} (h : FireInv s pl info w) (hpl : ev ∉ pl)
    (hunwatched : ¬ s.Watched ev) : FireInv (s.free ev) pl info w := by
  refine h.update hpl (ring_update h.ring (by simp) hpl _) rfl ?_ ?_ ?_
  · intro a hae
    simp [State.data, State.free, hae]
  · exact fun hw => absurd hw hunwatched
  · intro d hd
    simp [State.data, State.free] at hd

/-- **One operation of a callback.**  It has a result for all sufficient fuel,
and that result keeps `FireInv` and makes no call. -/
theorem apply_keeps {op : ApiOp ι} (h : FireInv s pl info w) (hlegal : op.Legal s) :
    ∃ N s', (∀ fuel, N ≤ fuel → op.apply fuel s = some s') ∧
      FireInv s' pl info w ∧ s'.calls = s.calls := by
  cases op with
  | set ev fd persist func param =>
      exact ⟨0, _, fun _ _ => rfl, h.set (h.not_pending hlegal) fd persist func param, rfl⟩
  | add ev =>
      obtain ⟨hlive, hnot⟩ := hlegal
      have hpl := h.not_pending hnot
      obtain ⟨d, hd⟩ := Option.isSome_iff_exists.mp (data_isSome ▸ hlive)
      rcases rilEventAdd_result hd with ⟨hrun, -⟩ | ⟨s', i, hrun, hfree, hw⟩
      · exact ⟨0, s, fun _ _ => hrun, h, rfl⟩
      · exact ⟨0, s', fun _ _ => hrun, h.watching hpl hfree hw, hw.calls⟩
  | del ev =>
      obtain ⟨hlive, hnot⟩ := hlegal
      have hpl := h.not_pending hnot
      obtain ⟨d, hd⟩ := Option.isSome_iff_exists.mp (data_isSome ▸ hlive)
      rcases rilEventDel_result h.live hd (h.index ev d hd) with
        ⟨-, hrun⟩ | ⟨s', i, hi, hrun, hu⟩
      · exact ⟨0, s, fun _ _ => hrun, h, rfl⟩
      · exact ⟨0, s', fun _ _ => hrun, h.unwatched hpl hi hu, hu.calls⟩
  | timerAdd ev tv now =>
      obtain ⟨hlive, hunlisted, tl, htimer, hapart⟩ := hlegal
      obtain ⟨d, hd⟩ := Option.isSome_iff_exists.mp (data_isSome ▸ hlive)
      have hrings : Rings s tl pl := ⟨htimer, h.ring, fun e he => h.not_pending (hapart e he)⟩
      obtain ⟨htl, hpl⟩ := hunlisted.not_mem hrings
      exact ⟨tl.length + 1, h.timerAdd hrings hd htl hpl tv now⟩
  | free ev =>
      obtain ⟨hnot, hunwatched⟩ := hlegal
      exact ⟨0, _, fun _ _ => rfl, h.free (h.not_pending hnot) hunwatched, rfl⟩

theorem applyAll_keeps {ops : List (ApiOp ι)} {M : Nat} (h : FireInv s pl info w)
    (hlegal : ∀ fuel, M ≤ fuel →
      Along (fun s op => op.apply fuel s) ApiOp.Legal s ops) :
    ∃ N s', (∀ fuel, N ≤ fuel → applyAll fuel ops s = some s') ∧
      FireInv s' pl info w ∧ s'.calls = s.calls := by
  induction ops generalizing s M with
  | nil => exact ⟨0, s, fun _ _ => rfl, h, rfl⟩
  | cons op ops ih =>
      obtain ⟨N₁, s₁, hrun₁, h₁, hcalls₁⟩ := apply_keeps h (hlegal M (Nat.le_refl M)).1
      obtain ⟨N₂, s₂, hrun₂, h₂, hcalls₂⟩ := ih (M := max M N₁) h₁
        (fun fuel hfuel => (hlegal fuel (by omega)).2 s₁ (hrun₁ fuel (by omega)))
      refine ⟨max N₁ N₂, s₂, ?_, h₂, hcalls₂.trans hcalls₁⟩
      intro fuel hfuel
      exact exec_cons_some.mpr ⟨s₁, hrun₁ fuel (by omega), hrun₂ fuel (by omega)⟩

end Keeps

/-- The first pending event is taken off the list and called with its own data. -/
theorem FireInv.fire_head {s : State ι} {e : ι} {pl : List ι} {info : ι → Event ι} {w : ι → Bool}
    (h : FireInv s (e :: pl) info w) :
    ∃ s₁, fireHead s (.event e) = some (s₁, firstNode .pendingList pl) ∧ FireInv s₁ pl info w ∧
      s₁.calls = s.calls ++ [⟨e, (info e).func, (info e).fd, (info e).param, w e⟩] := by
  obtain ⟨s₁, v, hfire, hring, -, hv, hdata, hrest⟩ := fireHead_spec h.ring
  have htable : s₁.watchTable = s.watchTable := by rw [hrest]
  refine ⟨s₁, hfire, ⟨hring, ?_, ?_, ?_, ?_⟩, ?_⟩
  · rw [hdata, htable]
    exact h.live
  · rw [hdata, htable]
    exact h.index
  · intro a ha
    rw [hdata]
    exact h.data a (List.mem_cons_of_mem _ ha)
  · intro a ha
    rw [State.Watched, htable]
    exact h.watched a (List.mem_cons_of_mem _ ha)
  · have hinfo : v.core = info e := by
      have hd := h.data e List.mem_cons_self
      rw [State.data, hv] at hd
      exact Option.some.inj hd
    have hflag : decide (s.Watched e) = w e := by
      rw [Bool.eq_iff_iff, decide_eq_true_iff]
      exact h.watched e List.mem_cons_self
    rw [hrest, ← hinfo, hflag]
    rfl

/-- **`firePending` calls every pending event.**  Callbacks that keep to legal
operations neither lose nor repeat one of the events behind them. -/
theorem firePendingLoop_spec {body : State ι → List (ApiOp ι)} {s : State ι}
    {pl : List ι} {info : ι → Event ι} {w : ι → Bool} {M : Nat}
    (h : FireInv s pl info w)
    (hlegal : ∀ fuel, M ≤ fuel → FireLegal body fuel (firstNode .pendingList pl) s) :
    ∃ N s', (∀ fuel, N ≤ fuel →
        firePendingLoop body fuel (firstNode .pendingList pl) s = some s') ∧
      Ring s'.links .pendingList [] ∧
      s'.calls = s.calls ++
        pl.map (fun e => ⟨e, (info e).func, (info e).fd, (info e).param, w e⟩) := by
  induction pl generalizing s M with
  | nil =>
      refine ⟨1, s, ?_, h.ring, by simp⟩
      intro fuel hfuel
      obtain ⟨f, rfl⟩ : ∃ f, fuel = f + 1 := ⟨fuel - 1, by omega⟩
      simp [firePendingLoop, firstNode]
  | cons e pl ih =>
      obtain ⟨s₁, hfire, h₁, hcall⟩ := h.fire_head
      have hturn : ∀ f, M ≤ f →
          Along (fun s op => op.apply f s) ApiOp.Legal s₁ (body s₁) ∧
          ∀ s₂, applyAll f (body s₁) s₁ = some s₂ →
            FireLegal body f (firstNode .pendingList pl) s₂ := by
        intro f hf
        rcases hlegal (f + 1) (by omega) with hsent | hturn
        · cases hsent
        · exact hturn s₁ _ hfire
      obtain ⟨N₁, s₂, hops, h₂, hcalls₂⟩ :=
        applyAll_keeps (M := M) h₁ (fun f hf => (hturn f hf).1)
      obtain ⟨N₂, s', hrun, hring', hcalls'⟩ := ih (M := max M N₁) h₂
        (fun f hf => (hturn f (by omega)).2 s₂ (hops f (by omega)))
      refine ⟨max N₁ N₂ + 1, s', ?_, hring', ?_⟩
      · intro fuel hfuel
        obtain ⟨f, rfl⟩ : ∃ f, fuel = f + 1 := ⟨fuel - 1, by omega⟩
        have hf := hops f (by omega)
        simpa [firePendingLoop, firstNode, hfire, hf] using hrun f (by omega)
      · rw [hcalls', hcalls₂, hcall]
        simp

/-! ## A whole iteration -/

/-- The callbacks of one iteration make legal operations only. -/
def IterationLegal (body : State ι → List (ApiOp ι)) (now : Timeval) (rfds : Int → Bool)
    (n : Int) (s : State ι) : Prop :=
  ∀ fuel s₁ s₂ ev, processTimeouts fuel now s = some s₁ →
    processReadReadies rfds n s₁ = some s₂ → s₂.links.next .pendingList = some ev →
    FireLegal body fuel ev s₂

/-- The bits of a set of descriptors. -/
def bitsOf (R : Finset Int) : Int → Bool :=
  fun fd => decide (fd ∈ R)

omit [DecidableEq ι] in
theorem WatchInv.ready_nodup {s : State ι} (h : WatchInv s) (rfds : Int → Bool) :
    (s.ready rfds).Nodup := by
  refine List.Nodup.filter _ (List.Nodup.filterMap ?_ (List.nodup_finRange _))
  intro i j e hi hj
  exact h.slot_unique hi hj

omit [DecidableEq ι] in
theorem mem_ready {s : State ι} {rfds : Int → Bool} {e : ι} :
    e ∈ s.ready rfds ↔ s.Watched e ∧ ∃ fd, s.fdOf e = some fd ∧ rfds fd = true := by
  rw [State.ready, mem_readyIn]
  simp [State.Watched]

omit [DecidableEq ι] in
/-- `select` counts each ready event once: no two of them share a
descriptor. -/
theorem WatchInv.ready_length {s : State ι} {R : Finset Int} (h : WatchInv s)
    (hR : ∀ fd ∈ R, ∃ e, s.Watched e ∧ s.fdOf e = some fd) :
    (s.ready (bitsOf R)).length = R.card := by
  have hnd : ((s.ready (bitsOf R)).map s.fdOf).Nodup := by
    refine List.Nodup.map_on ?_ (h.ready_nodup _)
    intro a ha b hb hab
    exact h.distinct a b (mem_ready.mp ha).1 (mem_ready.mp hb).1 hab
  have himage : ((s.ready (bitsOf R)).map s.fdOf).toFinset = R.image some := by
    ext fd
    rw [List.mem_toFinset, List.mem_map, Finset.mem_image]
    constructor
    · intro hfd
      obtain ⟨e, he, rfl⟩ := hfd
      obtain ⟨-, fd, hfd, hbit⟩ := mem_ready.mp he
      exact ⟨fd, of_decide_eq_true hbit, hfd.symm⟩
    · intro hfd
      obtain ⟨a, ha, rfl⟩ := hfd
      obtain ⟨e, hw, hefd⟩ := hR a ha
      exact ⟨e, mem_ready.mpr ⟨hw, a, hefd, decide_eq_true ha⟩, hefd⟩
  calc (s.ready (bitsOf R)).length
      = ((s.ready (bitsOf R)).map s.fdOf).length := (List.length_map _).symm
    _ = ((s.ready (bitsOf R)).map s.fdOf).toFinset.card :=
        (List.toFinset_card_of_nodup hnd).symm
    _ = (R.image some).card := by rw [himage]
    _ = R.card := Finset.card_image_of_injective _ (Option.some_injective _)

omit [DecidableEq ι] in
/-- Timers carry no descriptor, so none of them is watched. -/
theorem TimerInv.not_watched {s : State ι} {tl pl : List ι} (h : TimerInv s tl pl)
    (hwatch : WatchInv s) {e : ι} (he : e ∈ tl) : ¬ s.Watched e := by
  intro hw
  obtain ⟨i, hi⟩ := hw
  obtain ⟨d, hd, -, hfd, -⟩ := hwatch.slot i e hi
  have hneg := h.noFd e he
  rw [hd] at hneg
  have hneg : d.fd = -1 := Option.some.inj hneg
  omega

/-- What one iteration from `s` to `s'` did, for the timers `tl`, the instant
`now` and the ready descriptors `R`. -/
structure Dispatched (s s' : State ι) (tl : List ι) (now : Timeval) (R : Finset Int) :
    Prop where
  calls : s'.calls = s.calls ++
    ((s.expired now tl).map (fun e => s.callOf e false) ++
      (s.ready (bitsOf R)).map (fun e => s.callOf e (s.persistOf e == some true)))
  once : (s.expired now tl ++ s.ready (bitsOf R)).Nodup
  timers : ∀ e, e ∈ s.expired now tl ↔ e ∈ tl ∧ (s.timeout e).micros < now.micros
  byDeadline : (s.expired now tl).Pairwise
    (fun a b => (s.timeout a).micros ≤ (s.timeout b).micros)
  events : ∀ e, e ∈ s.ready (bitsOf R) ↔
    s.Watched e ∧ ∃ fd ∈ R, s.fdOf e = some fd
  bySlot : (s.ready (bitsOf R)).Pairwise (fun a b => ∀ i j,
    s.watchTable i = some a → s.watchTable j = some b → i < j)
  pending : Ring s'.links .pendingList []

omit [DecidableEq ι] in
/-- The ready events are listed by slot number. -/
theorem WatchInv.ready_bySlot {s : State ι} (h : WatchInv s) (rfds : Int → Bool) :
    (s.ready rfds).Pairwise (fun a b => ∀ i j,
      s.watchTable i = some a → s.watchTable j = some b → i < j) := by
  refine List.Pairwise.filter _ (List.pairwise_filterMap.mpr ?_)
  refine (List.pairwise_lt_finRange maxFdEvents).imp ?_
  intro i j hij a ha b hb i' j' hi' hj'
  rw [h.slot_unique hi' ha, h.slot_unique hj' hb]
  exact hij

omit [DecidableEq ι] in
theorem SameButIndex.callOf_eq {s s' : State ι} {e : ι} (h : SameButIndex s s')
    (hlive : (s.data (.event e)).isSome) (w : Bool) : s'.callOf e w = s.callOf e w := by
  obtain ⟨d, hd⟩ := Option.isSome_iff_exists.mp hlive
  obtain ⟨k, hk⟩ := h _ d hd
  simp only [State.callOf, hd, hk, Option.getD_some]

/-- What is pending is live, and its data and its watch stay as they are. -/
theorem fireInv_of_ring {s : State ι} {pl : List ι} (hwatch : WatchInv s)
    (hring : Ring s.links .pendingList (pl.map .event)) :
    FireInv s pl (fun e => (s.data (.event e)).getD (Event.zero ι))
      (fun e => decide (s.Watched e)) where
  ring := hring
  live := fun i e hi => hwatch.live hi
  index := hwatch.index
  data := by
    intro e he
    have hlive : (s.data (.event e)).isSome := by
      rw [data_isSome]
      exact ring_live hring (List.mem_cons_of_mem _ (event_mem_map.mpr he))
    obtain ⟨d, hd⟩ := Option.isSome_iff_exists.mp hlive
    rw [hd]
    rfl
  watched := fun e _ => decide_eq_true_iff.symm

/-- The two phases before `firePending`, together. -/
theorem readied_spec {s s₁ : State ι} {tl : List ι} {now : Timeval} {R : Finset Int}
    (hwatch : WatchInv s) (htimers : TimerInv s tl []) (hrel : Relinked s s₁ s₁.links)
    (hinv : TimerInv s₁ (s.unexpired now tl) ([] ++ s.expired now tl))
    (hR : ∀ fd ∈ R, ∃ e, s.Watched e ∧ s.fdOf e = some fd) :
    ∃ s₂, processReadReadies (bitsOf R) R.card s₁ = some s₂ ∧
      WatchInv s₂ ∧
      Ring s₂.links .pendingList
        ((s.expired now tl ++ s.ready (bitsOf R)).map .event) ∧
      s₂.calls = s.calls ∧ SameButIndex s s₂ ∧
      ∀ e, s₂.Watched e ↔
        s.Watched e ∧ ¬ (e ∈ s.ready (bitsOf R) ∧ s.persistOf e = some false) := by
  have hwatch₁ : WatchInv s₁ :=
    hwatch.congr hrel.data hrel.watchTable hrel.readFds hrel.nfds
  have hsame : s₁.ready (bitsOf R) = s.ready (bitsOf R) :=
    readyIn_congr (fun i _ => by rw [hrel.watchTable])
      (fun e => by rw [State.fdOf, State.fdOf, hrel.data])
  have hout : ∀ j ∈ List.finRange maxFdEvents, ∀ e, s₁.watchTable j = some e →
      e ∉ s.unexpired now tl ∧ e ∉ [] ++ s.expired now tl := by
    intro j _ e hj
    rw [hrel.watchTable] at hj
    have hnot : e ∉ tl := fun he => htimers.not_watched hwatch he ⟨j, hj⟩
    exact ⟨fun he => hnot (List.mem_filter.mp he).1,
      fun he => hnot (List.mem_filter.mp he).1⟩
  obtain ⟨s₂, hrun, h⟩ := processReadReadiesLoop_spec (n := R.card)
    hwatch₁ hinv.rings (List.nodup_finRange _) hout
    (by rw [← hwatch.ready_length hR, ← hsame]; rfl)
  refine ⟨s₂, hrun, h.watch, ?_, h.calls.trans hrel.calls,
    (SameButIndex.of_eq hrel.data).trans h.data, ?_⟩
  · rw [← hsame]
    exact h.rings.pending
  · intro e
    rw [← hsame, h.watched, State.Watched, State.Watched, hrel.watchTable, State.persistOf,
      State.persistOf, hrel.data]
    rfl

/-- **Exactly one callback for each expired timer and each ready event.**  From
a state with a sound watch table, sound timers and nothing pending, an
iteration calls the expired timers in the order of their deadlines and then
the ready events in the order of their slots, each once and nothing else.  An
event that is not persistent has left the table when its callback begins, a
persistent one is still there, and nothing stays pending. -/
theorem iteration_dispatches (body : State ι → List (ApiOp ι)) (s : State ι) (tl : List ι)
    (now : Timeval) (R : Finset Int) (hwatch : WatchInv s) (htimers : TimerInv s tl [])
    (hnow : now.Normal) (hR : ∀ fd ∈ R, ∃ e, s.Watched e ∧ s.fdOf e = some fd)
    (hlegal : IterationLegal body now (bitsOf R) R.card s) :
    ∃ N s', (∀ fuel, N ≤ fuel → iteration body fuel now (bitsOf R) R.card s = some s') ∧
      Dispatched s s' tl now R := by
  obtain ⟨s₁, hrun₁, hrel, hinv₁⟩ := processTimeouts_spec htimers hnow
  obtain ⟨s₂, hrun₂, hwatch₂, hring₂, hcalls₂, hsame₂, hwatched₂⟩ :=
    readied_spec hwatch htimers hrel hinv₁ hR
  have hnext : s₂.links.next .pendingList = some (firstNode .pendingList
      (s.expired now tl ++ s.ready (bitsOf R))) := ring_next_head hring₂
  obtain ⟨N, s', hrun₃, hring, hcalls⟩ :=
    firePendingLoop_spec (M := tl.length + 1) (fireInv_of_ring hwatch₂ hring₂)
      (fun fuel hfuel => hlegal fuel s₁ s₂ _ (hrun₁ fuel (by omega)) hrun₂ hnext)
  have hexp : ∀ e ∈ s.expired now tl, e ∈ tl := fun e he => (List.mem_filter.mp he).1
  refine ⟨max N (tl.length + 1), s', ?_, ?_, ?_, ?_, ?_, ?_, hwatch.ready_bySlot _, hring⟩
  · intro fuel hfuel
    obtain ⟨l, hl⟩ := Option.isSome_iff_exists.mp (ring_live hring₂ List.mem_cons_self)
    rw [next_of_mem hl] at hnext
    simp [iteration, firePending, hrun₁ fuel (by omega), hrun₂, hl, hnext,
      hrun₃ fuel (by omega)]
  · have hlive : ∀ e ∈ s.expired now tl ++ s.ready (bitsOf R), (s.data (.event e)).isSome := by
      intro e he
      rcases List.mem_append.mp he with htimer | hevent
      · have hfd := htimers.noFd e (hexp e htimer)
        cases hd : s.data (.event e) with
        | none => simp [hd] at hfd
        | some d => rfl
      · obtain ⟨⟨i, hi⟩, -⟩ := mem_ready.mp hevent
        exact hwatch.live hi
    have hcall : ∀ e ∈ s.expired now tl ++ s.ready (bitsOf R),
        s₂.callOf e (decide (s₂.Watched e)) = s.callOf e (decide (s₂.Watched e)) :=
      fun e he => hsame₂.callOf_eq (hlive e he) _
    rw [hcalls, hcalls₂, List.map_append]
    congr 2
    · apply List.map_congr_left
      intro e he
      have hnot : ¬ s₂.Watched e := fun hw =>
        htimers.not_watched hwatch (hexp e he) ((hwatched₂ e).mp hw).1
      refine (hcall e (List.mem_append_left _ he)).trans ?_
      rw [decide_eq_false hnot]
    · apply List.map_congr_left
      intro e he
      refine (hcall e (List.mem_append_right _ he)).trans ?_
      obtain ⟨d, hd⟩ := Option.isSome_iff_exists.mp (hlive e (List.mem_append_right _ he))
      have hflag : decide (s₂.Watched e) = (s.persistOf e == some true) := by
        rw [Bool.eq_iff_iff, decide_eq_true_iff, hwatched₂]
        cases hper : d.persist with
        | true => simp [State.persistOf, hd, hper, (mem_ready.mp he).1]
        | false => simp [State.persistOf, hd, hper, he]
      rw [hflag]
  · have hnd := htimers.rings.nodup
    rw [List.append_nil] at hnd
    refine List.nodup_append.mpr ⟨hnd.filter _, hwatch.ready_nodup _, ?_⟩
    intro a ha b hb hab
    exact htimers.not_watched hwatch (hexp a ha) (hab ▸ (mem_ready.mp hb).1)
  · intro e
    simp [State.expired]
  · exact htimers.sorted.filter _
  · intro e
    rw [mem_ready]
    simp [bitsOf, and_comm]

/-- One expired timer and two ready events, of which the second is not
persistent. -/
def readyState : State (Fin 3) where
  mem
    | .timerList => some ⟨some (.event 0), some (.event 0), -1, 0, false, ⟨0, 0⟩, 0, 0⟩
    | .pendingList => some (initList .pendingList)
    | .event 0 => some ⟨some .timerList, some .timerList, -1, -1, false, ⟨1, 0⟩, 10, 0⟩
    | .event 1 => some ⟨none, none, 5, 0, true, ⟨0, 0⟩, 11, 0⟩
    | .event 2 => some ⟨none, none, 6, 1, false, ⟨0, 0⟩, 12, 0⟩
  readFds := bitsOf {5, 6}
  nfds := 7
  watchTable := fun i => if i = 0 then some 1 else if i = 1 then some 2 else none
  calls := []

/-- Timer callbacks free their event, as `userTimerCallback` does. -/
def freeTimer (s : State (Fin 3)) : List (ApiOp (Fin 3)) :=
  match s.calls.getLast? with
  | some call => if call.fd = -1 then [.free call.event] else []
  | none => []

theorem readyState_slots : ∀ i e, readyState.watchTable i = some e →
    (i = 0 ∧ e = 1) ∨ (i = 1 ∧ e = 2) := by
  decide

theorem readyState_watch : WatchInv readyState where
  slot := by
    intro i e hi
    rcases readyState_slots i e hi with ⟨rfl, rfl⟩ | ⟨rfl, rfl⟩
    · refine ⟨_, rfl, ?_⟩
      decide
    · refine ⟨_, rfl, ?_⟩
      decide
  index := by
    intro e d hd
    obtain rfl : (readyState.data (.event e)).getD (Event.zero _) = d := by rw [hd]; rfl
    clear hd
    revert e
    decide
  bit := by
    intro fd hfd
    have hfd : fd = 5 ∨ fd = 6 := by simpa [readyState, bitsOf] using hfd
    rcases hfd with rfl | rfl
    · exact ⟨1, by decide⟩
    · exact ⟨2, by decide⟩
  distinct := by decide

theorem readyState_timers : TimerInv readyState [0] [] where
  rings := ⟨⟨⟨rfl, rfl, rfl, rfl⟩, by decide⟩, ⟨⟨rfl, rfl⟩, by decide⟩, by decide⟩
  normal := by simp [State.timeout, State.data, readyState, Event.core, Timeval.Normal]
  sorted := by simp
  noFd := by decide

theorem readyState_legal :
    IterationLegal freeTimer ⟨2, 0⟩ (bitsOf {5, 6}) 2 readyState := by
  intro fuel s₁ s₂ ev h₁ h₂ hev
  match fuel with
  | 0 => cases h₁
  | 1 => cases h₁
  | n + 2 =>
      cases h₁
      cases h₂
      cases hev
      right
      intro s₃ next hfire
      cases hfire
      refine ⟨⟨⟨?_, by decide⟩, fun _ _ => trivial⟩, ?_⟩
      · exact (unlisted_of_next rfl).2
      · intro s₄ h₄
        cases h₄
        right
        intro s₅ next hfire
        cases hfire
        refine ⟨trivial, ?_⟩
        intro s₆ h₆
        cases h₆
        match n with
        | 0 => trivial
        | m + 1 =>
            right
            intro s₇ next hfire
            cases hfire
            refine ⟨trivial, ?_⟩
            intro s₈ h₈
            cases h₈
            cases m with
            | zero => trivial
            | succ m => exact Or.inl rfl

theorem iteration_readyState :
    ∃ N s', (∀ fuel, N ≤ fuel →
        iteration freeTimer fuel ⟨2, 0⟩ (bitsOf {5, 6}) 2 readyState = some s') ∧
      Dispatched readyState s' [0] ⟨2, 0⟩ {5, 6} :=
  iteration_dispatches freeTimer readyState [0] ⟨2, 0⟩ {5, 6} readyState_watch
    readyState_timers (by decide) (by
      intro fd hfd
      have hfd : fd = 5 ∨ fd = 6 := by simpa using hfd
      rcases hfd with rfl | rfl
      · exact ⟨1, by decide⟩
      · exact ⟨2, by decide⟩) readyState_legal

end RilEvent
