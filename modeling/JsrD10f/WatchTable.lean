import JsrD10f.EventLists
import JsrD10f.Runs

/-!
# The watch table

A watched descriptor is recorded four times: in a slot of `watch_table`, in
the `index` of its event, as a bit of `readFds` and in the bound `nfds`.
`WatchInv` says how the four agree.  Every operation has one lemma that gives
its result and keeps `WatchInv`, and the run theorem at the end is the
induction over them.
-/

namespace RilEvent

open RingList Runs

variable {ι : Type}

/-- The descriptor stored in a live event. -/
def State.fdOf (s : State ι) (e : ι) : Option Int :=
  (s.data (.event e)).map (·.fd)

/-- The slot number stored in a live event. -/
def State.indexOf (s : State ι) (e : ι) : Option Int :=
  (s.data (.event e)).map (·.index)

/-- The occupied slots are those of live events that know their slot, have
their bit set and lie below `nfds`; an event that knows a slot is in it, a set
bit belongs to a watched event, and no two watched events share a descriptor. -/
structure WatchInv (s : State ι) : Prop where
  slot : ∀ i e, s.watchTable i = some e → ∃ d, s.data (.event e) = some d ∧
    d.index = (i.val : Int) ∧ 0 ≤ d.fd ∧ s.readFds d.fd = true ∧ d.fd < s.nfds
  index : ∀ e d, s.data (.event e) = some d → d.index = -1 ∨
    ∃ i : Fin maxFdEvents, s.watchTable i = some e ∧ d.index = (i.val : Int)
  bit : ∀ fd, s.readFds fd = true → ∃ e, s.Watched e ∧ s.fdOf e = some fd
  distinct : ∀ e e', s.Watched e → s.Watched e' → s.fdOf e = s.fdOf e' → e = e'

/-- `pending_list.prev` points to a live record, so that `addToList` can store
through it. -/
def TailLive (s : State ι) : Prop :=
  ∃ p, s.links.prev .pendingList = some p ∧ (s.mem p).isSome

/-- A slot number determines its slot. -/
theorem WatchInv.slot_unique {s : State ι} (h : WatchInv s) {i j : Fin maxFdEvents} {e : ι}
    (hi : s.watchTable i = some e) (hj : s.watchTable j = some e) : i = j := by
  obtain ⟨d, hd, hdi, -⟩ := h.slot i e hi
  obtain ⟨d', hd', hdj, -⟩ := h.slot j e hj
  have hdd : d = d' := Option.some.inj (hd.symm.trans hd')
  rw [← hdd, hdi] at hdj
  exact Fin.ext (by exact_mod_cast hdj)

theorem WatchInv.live {s : State ι} (h : WatchInv s) {i : Fin maxFdEvents} {e : ι}
    (hi : s.watchTable i = some e) : (s.data (.event e)).isSome := by
  obtain ⟨d, hd, -⟩ := h.slot i e hi
  rw [hd]
  rfl

theorem event_ne {a e : ι} (h : a ≠ e) : Node.event a ≠ Node.event e :=
  fun heq => h (Node.event.inj heq)

/-- The invariant does not read the pointers. -/
theorem WatchInv.congr {s s' : State ι} (h : WatchInv s) (hdata : s'.data = s.data)
    (htable : s'.watchTable = s.watchTable) (hbits : s'.readFds = s.readFds)
    (hn : s'.nfds = s.nfds) : WatchInv s' where
  slot := by
    rw [hdata, htable, hbits, hn]
    exact h.slot
  index := by
    rw [hdata, htable]
    exact h.index
  bit := by
    intro fd hfd
    rw [hbits] at hfd
    obtain ⟨e, he, hefd⟩ := h.bit fd hfd
    exact ⟨e, by rwa [State.Watched, htable], by rwa [State.fdOf, hdata]⟩
  distinct := by
    intro e e' he he' heq
    rw [State.Watched, htable] at he he'
    rw [State.fdOf, State.fdOf, hdata] at heq
    exact h.distinct e e' he he' heq

/-! ## What `removeWatch` and `ril_event_add` write -/

/-- The recomputed maximum is reached and bounds every scanned slot. -/
theorem maxFdLoop_spec {s : State ι}
    (hlive : ∀ i e, s.watchTable i = some e → (s.data (.event e)).isSome)
    (is : List (Fin maxFdEvents)) (n : Int) :
    ∃ m, maxFdLoop s is n = some m ∧ n ≤ m ∧
      ∀ i ∈ is, ∀ e fd, s.watchTable i = some e → s.fdOf e = some fd → fd ≤ m := by
  induction is generalizing n with
  | nil => exact ⟨n, rfl, Int.le_refl n, by simp⟩
  | cons i is ih =>
      cases hi : s.watchTable i with
      | none =>
          obtain ⟨m, hm, hle, hall⟩ := ih n
          refine ⟨m, by simp [maxFdLoop, hi, hm], hle, ?_⟩
          intro j hj e fd hje hfd
          rcases List.mem_cons.mp hj with hji | hjs
          · rw [hji, hi] at hje
            cases hje
          · exact hall j hjs e fd hje hfd
      | some rev =>
          obtain ⟨d, hd⟩ := Option.isSome_iff_exists.mp (hlive i rev hi)
          obtain ⟨v, hv, hvd⟩ := mem_of_data hd
          obtain ⟨m, hm, hle, hall⟩ := ih (if v.fd > n then v.fd else n)
          have hbig : n ≤ m ∧ v.fd ≤ m := by
            by_cases hgt : v.fd > n
            · rw [if_pos hgt] at hle
              omega
            · rw [if_neg hgt] at hle
              omega
          refine ⟨m, by simp [maxFdLoop, hi, hv, hm], hbig.1, ?_⟩
          intro j hj e fd hje hfd
          rcases List.mem_cons.mp hj with hji | hjs
          · rw [hji, hi] at hje
            cases hje
            have hfdv : v.fd = fd := by simpa [State.fdOf, State.data, hv] using hfd
            omega
          · exact hall j hjs e fd hje hfd

variable [DecidableEq ι]

/-- `s'` is `s` with event `e`, whose data are `d`, taken out of slot `i`. -/
structure Unwatched (s s' : State ι) (i : Fin maxFdEvents) (e : ι) (d : Event ι) : Prop where
  table : s'.watchTable = Function.update s.watchTable i none
  bits : s'.readFds = Function.update s.readFds d.fd false
  data : s'.data = Function.update s.data (.event e) (some { d with index := -1 })
  links : s'.links = s.links
  calls : s'.calls = s.calls
  bound : ∀ j a fd, s'.watchTable j = some a → s'.fdOf a = some fd → fd < s.nfds → fd < s'.nfds

/-- `s'` is `s` with event `e`, whose data are `d`, put into slot `i`. -/
structure Watching (s s' : State ι) (i : Fin maxFdEvents) (e : ι) (d : Event ι) : Prop where
  table : s'.watchTable = Function.update s.watchTable i (some e)
  bits : s'.readFds = Function.update s.readFds d.fd true
  data : s'.data = Function.update s.data (.event e) (some { d with index := (i.val : Int) })
  links : s'.links = s.links
  calls : s'.calls = s.calls
  bound : s'.nfds = if d.fd ≥ s.nfds then d.fd + 1 else s.nfds

theorem removeWatch_result {s : State ι} (i : Fin maxFdEvents) {e : ι} {d : Event ι}
    (hlive : ∀ j a, s.watchTable j = some a → (s.data (.event a)).isSome)
    (hd : s.data (.event e) = some d) :
    ∃ s', removeWatch s e i = some s' ∧ Unwatched s s' i e d := by
  obtain ⟨v, hv, hvd⟩ := mem_of_data hd
  have hfd : v.fd = d.fd := by rw [← hvd]; rfl
  obtain ⟨s₁, hw, hlinks, hdata, hmem, hrest⟩ := write_core
    (s := { s with watchTable := Function.update s.watchTable i none })
    (fun v => { v with index := -1 }) hv rfl rfl
  have htable : s₁.watchTable = Function.update s.watchTable i none := by rw [hrest]
  have hbits : Function.update s₁.readFds v.fd false =
      Function.update s.readFds d.fd false := by rw [hrest, hfd]
  have hdata : s₁.data = Function.update s.data (.event e) (some { d with index := -1 }) := by
    rw [hdata, ← hvd]
    rfl
  have hnfds : s₁.nfds = s.nfds := by rw [hrest]
  have hcalls : s₁.calls = s.calls := by rw [hrest]
  have hunfold : removeWatch s e i =
      (if v.fd + 1 = s₁.nfds then
        (maxFdLoop { s₁ with readFds := Function.update s₁.readFds v.fd false }
          (List.finRange maxFdEvents) 0).map fun n =>
            { s₁ with readFds := Function.update s₁.readFds v.fd false, nfds := n + 1 }
      else some { s₁ with readFds := Function.update s₁.readFds v.fd false }) := by
    unfold removeWatch
    simp only [hw, hmem, Option.bind_eq_bind, Option.bind_some]
  by_cases htop : v.fd + 1 = s₁.nfds
  · have hlive₁ : ∀ j a, s₁.watchTable j = some a → (s₁.data (.event a)).isSome := by
      intro j a hj
      rw [hdata]
      by_cases hae : a = e
      · simp [hae]
      · rw [Function.update_of_ne (fun heq => hae (Node.event.inj heq))]
        by_cases hji : j = i
        · rw [htable, hji, Function.update_self] at hj
          cases hj
        · rw [htable, Function.update_of_ne hji] at hj
          exact hlive j a hj
    obtain ⟨m, hm, -, hall⟩ := maxFdLoop_spec
      (s := { s₁ with readFds := Function.update s₁.readFds v.fd false }) hlive₁
      (List.finRange maxFdEvents) 0
    rw [if_pos htop, hm] at hunfold
    refine ⟨_, hunfold, htable, hbits, hdata, hlinks, hcalls, ?_⟩
    intro j a fd hj hfda _
    exact Int.lt_add_one_of_le (hall j (List.mem_finRange j) a fd hj hfda)
  · rw [if_neg htop] at hunfold
    refine ⟨_, hunfold, htable, hbits, hdata, hlinks, hcalls, ?_⟩
    intro j a fd _ _ hlt
    rw [← hnfds] at hlt
    exact hlt

theorem rilEventAdd_result {s : State ι} {e : ι} {d : Event ι}
    (hd : s.data (.event e) = some d) :
    (rilEventAdd e s = some s ∧ ∀ i, s.watchTable i ≠ none) ∨
      ∃ s' i, rilEventAdd e s = some s' ∧ s.watchTable i = none ∧ Watching s s' i e d := by
  obtain ⟨v, hv, hvd⟩ := mem_of_data hd
  have hfd : v.fd = d.fd := by rw [← hvd]; rfl
  cases hfind : (List.finRange maxFdEvents).find? (fun i => (s.watchTable i).isNone) with
  | none =>
      left
      refine ⟨by simp only [rilEventAdd, hfind], ?_⟩
      intro i hi
      have hnone := List.find?_eq_none.mp hfind i (List.mem_finRange i)
      simp [hi] at hnone
  | some i =>
      right
      have hi : s.watchTable i = none := by simpa using List.find?_some hfind
      obtain ⟨s₁, hw, hlinks, hdata, hmem, hrest⟩ := write_core
        (s := { s with watchTable := Function.update s.watchTable i (some e) })
        (fun v => { v with index := (i.val : Int) }) hv rfl rfl
      refine ⟨{ s₁ with
        readFds := Function.update s₁.readFds v.fd true
        nfds := if v.fd ≥ s₁.nfds then v.fd + 1 else s₁.nfds }, i, ?_, hi, ?_, ?_, ?_,
        hlinks, ?_, ?_⟩
      · simp only [rilEventAdd, hfind, hw, hmem, Option.bind_eq_bind, Option.bind_some]
      · show s₁.watchTable = _
        rw [hrest]
      · show Function.update s₁.readFds v.fd true = _
        rw [hrest, hfd]
      · show s₁.data = _
        rw [hdata, ← hvd]
        rfl
      · show s₁.calls = _
        rw [hrest]
      · show (if v.fd ≥ s₁.nfds then v.fd + 1 else s₁.nfds) = _
        rw [hrest, hfd]

/-- `ril_event_del` of an event that is in the slot it knows: nothing if it
knows none, else `removeWatch` of that slot. -/
theorem rilEventDel_result {s : State ι} {e : ι} {d : Event ι}
    (hlive : ∀ j a, s.watchTable j = some a → (s.data (.event a)).isSome)
    (hd : s.data (.event e) = some d)
    (hindex : d.index = -1 ∨
      ∃ i : Fin maxFdEvents, s.watchTable i = some e ∧ d.index = (i.val : Int)) :
    (d.index = -1 ∧ rilEventDel e s = some s) ∨
      ∃ s' i, s.watchTable i = some e ∧ rilEventDel e s = some s' ∧ Unwatched s s' i e d := by
  obtain ⟨v, hv, hvd⟩ := mem_of_data hd
  have hvi : v.index = d.index := by rw [← hvd]; rfl
  rcases hindex with hneg | ⟨i, hi, hidx⟩
  · left
    have hout : ¬ (0 ≤ v.index ∧ v.index < (maxFdEvents : Int)) := by omega
    refine ⟨hneg, ?_⟩
    simp only [rilEventDel, hv, Option.bind_eq_bind, Option.bind_some, dif_neg hout]
  · right
    obtain ⟨s', hrun, hu⟩ := removeWatch_result (s := s) i hlive hd
    refine ⟨s', i, hi, ?_, hu⟩
    have hlt := i.isLt
    have hin : 0 ≤ v.index ∧ v.index < (maxFdEvents : Int) := by omega
    have hslot : (⟨v.index.toNat, by omega⟩ : Fin maxFdEvents) = i := by
      apply Fin.ext
      show v.index.toNat = i.val
      omega
    simp only [rilEventDel, hv, Option.bind_eq_bind, Option.bind_some, dif_pos hin, hslot]
    exact hrun

/-! ## The invariant is kept -/

section Unwatched

variable {s s' : State ι} {i : Fin maxFdEvents} {e : ι} {d : Event ι}

theorem Unwatched.data_ne (hu : Unwatched s s' i e d) {a : ι} (ha : a ≠ e) :
    s'.data (.event a) = s.data (.event a) := by
  rw [hu.data, Function.update_of_ne (event_ne ha)]

theorem Unwatched.fdOf_ne (hu : Unwatched s s' i e d) {a : ι} (ha : a ≠ e) :
    s'.fdOf a = s.fdOf a := by
  rw [State.fdOf, State.fdOf, hu.data_ne ha]

/-- The remaining slots hold other events, since a slot number determines its
slot. -/
theorem Unwatched.slot_iff (hu : Unwatched s s' i e d) (h : WatchInv s)
    (hslot : s.watchTable i = some e) {j : Fin maxFdEvents} {a : ι} :
    s'.watchTable j = some a ↔ s.watchTable j = some a ∧ a ≠ e := by
  rw [hu.table]
  by_cases hji : j = i
  · subst hji
    rw [Function.update_self, hslot]
    constructor
    · intro hnone
      cases hnone
    · intro hae
      exact absurd (Option.some.inj hae.1).symm hae.2
  · rw [Function.update_of_ne hji]
    constructor
    · intro hj
      exact ⟨hj, fun hae => hji (h.slot_unique hj (hae ▸ hslot))⟩
    · exact fun hj => hj.1

theorem Unwatched.watched_iff (hu : Unwatched s s' i e d) (h : WatchInv s)
    (hslot : s.watchTable i = some e) {a : ι} : s'.Watched a ↔ s.Watched a ∧ a ≠ e := by
  constructor
  · intro hw
    obtain ⟨j, hj⟩ := hw
    obtain ⟨hj, hae⟩ := (hu.slot_iff h hslot).mp hj
    exact ⟨⟨j, hj⟩, hae⟩
  · intro hw
    obtain ⟨⟨j, hj⟩, hae⟩ := hw
    exact ⟨j, (hu.slot_iff h hslot).mpr ⟨hj, hae⟩⟩

/-- `removeWatch` keeps the invariant. -/
theorem WatchInv.unwatched (h : WatchInv s) (hslot : s.watchTable i = some e)
    (hd : s.data (.event e) = some d) (hu : Unwatched s s' i e d) : WatchInv s' where
  slot := by
    intro j a hj
    obtain ⟨hold, hae⟩ := (hu.slot_iff h hslot).mp hj
    obtain ⟨da, hda, hidx, hpos, hbit, hlt⟩ := h.slot j a hold
    have hda' : s'.data (.event a) = some da := by rw [hu.data_ne hae, hda]
    refine ⟨da, hda', hidx, hpos, ?_, hu.bound j a da.fd hj (by simp [State.fdOf, hda']) hlt⟩
    have hne : da.fd ≠ d.fd := by
      intro heq
      refine hae (h.distinct a e ⟨j, hold⟩ ⟨i, hslot⟩ ?_)
      simp [State.fdOf, hda, hd, heq]
    rw [hu.bits, Function.update_of_ne hne]
    exact hbit
  index := by
    intro a da hda
    by_cases hae : a = e
    · left
      rw [hae, hu.data, Function.update_self] at hda
      rw [← Option.some.inj hda]
    · rw [hu.data_ne hae] at hda
      rcases h.index a da hda with hneg | ⟨j, hj, hidx⟩
      · exact Or.inl hneg
      · exact Or.inr ⟨j, (hu.slot_iff h hslot).mpr ⟨hj, hae⟩, hidx⟩
  bit := by
    intro fd hbit
    rw [hu.bits] at hbit
    have hne : fd ≠ d.fd := by
      intro heq
      rw [heq, Function.update_self] at hbit
      cases hbit
    rw [Function.update_of_ne hne] at hbit
    obtain ⟨a, hw, hfda⟩ := h.bit fd hbit
    have hae : a ≠ e := by
      intro hae
      rw [hae] at hfda
      have hfde : d.fd = fd := by simpa [State.fdOf, hd] using hfda
      exact hne hfde.symm
    exact ⟨a, (hu.watched_iff h hslot).mpr ⟨hw, hae⟩, by rw [hu.fdOf_ne hae, hfda]⟩
  distinct := by
    intro a b hwa hwb heq
    obtain ⟨hwa, hae⟩ := (hu.watched_iff h hslot).mp hwa
    obtain ⟨hwb, hbe⟩ := (hu.watched_iff h hslot).mp hwb
    rw [hu.fdOf_ne hae, hu.fdOf_ne hbe] at heq
    exact h.distinct a b hwa hwb heq

end Unwatched

section Watching

variable {s s' : State ι} {i : Fin maxFdEvents} {e : ι} {d : Event ι}

theorem Watching.data_ne (hw : Watching s s' i e d) {a : ι} (ha : a ≠ e) :
    s'.data (.event a) = s.data (.event a) := by
  rw [hw.data, Function.update_of_ne (event_ne ha)]

theorem Watching.fdOf_eq (hw : Watching s s' i e d) (hd : s.data (.event e) = some d)
    (a : ι) : s'.fdOf a = s.fdOf a := by
  by_cases ha : a = e
  · subst ha
    simp [State.fdOf, hw.data, hd]
  · rw [State.fdOf, State.fdOf, hw.data_ne ha]

theorem Watching.slot_iff (hw : Watching s s' i e d) (hfree : s.watchTable i = none)
    {j : Fin maxFdEvents} {a : ι} :
    s'.watchTable j = some a ↔ s.watchTable j = some a ∨ (j = i ∧ a = e) := by
  rw [hw.table]
  by_cases hji : j = i
  · subst hji
    rw [Function.update_self, hfree]
    simp [eq_comm]
  · rw [Function.update_of_ne hji]
    simp [hji]

theorem Watching.watched_iff (hw : Watching s s' i e d) (hfree : s.watchTable i = none)
    {a : ι} : s'.Watched a ↔ s.Watched a ∨ a = e := by
  constructor
  · intro hwa
    obtain ⟨j, hj⟩ := hwa
    rcases (hw.slot_iff hfree).mp hj with hold | ⟨-, hae⟩
    · exact Or.inl ⟨j, hold⟩
    · exact Or.inr hae
  · intro hwa
    rcases hwa with ⟨j, hj⟩ | hae
    · exact ⟨j, (hw.slot_iff hfree).mpr (Or.inl hj)⟩
    · exact ⟨i, (hw.slot_iff hfree).mpr (Or.inr ⟨rfl, hae⟩)⟩

/-- `ril_event_add` of an unwatched event with a fresh descriptor keeps the
invariant. -/
theorem WatchInv.watching (h : WatchInv s) (hfree : s.watchTable i = none)
    (hd : s.data (.event e) = some d) (hnew : ¬ s.Watched e) (hpos : 0 ≤ d.fd)
    (hfresh : ∀ a, s.Watched a → s.fdOf a ≠ some d.fd) (hw : Watching s s' i e d) :
    WatchInv s' where
  slot := by
    intro j a hj
    have hbound : s.nfds ≤ s'.nfds ∧ d.fd < s'.nfds := by
      rw [hw.bound]
      by_cases hge : d.fd ≥ s.nfds
      · rw [if_pos hge]
        omega
      · rw [if_neg hge]
        omega
    rcases (hw.slot_iff hfree).mp hj with hold | ⟨hji, hae⟩
    · have hae : a ≠ e := fun hae => hnew (hae ▸ ⟨j, hold⟩)
      obtain ⟨da, hda, hidx, hda₀, hbit, hlt⟩ := h.slot j a hold
      refine ⟨da, by rw [hw.data_ne hae, hda], hidx, hda₀, ?_, by omega⟩
      rw [hw.bits]
      by_cases heq : da.fd = d.fd
      · rw [heq, Function.update_self]
      · rw [Function.update_of_ne heq]
        exact hbit
    · subst hji hae
      refine ⟨{ d with index := (j.val : Int) }, by rw [hw.data, Function.update_self], rfl,
        hpos, ?_, hbound.2⟩
      rw [hw.bits]
      exact Function.update_self _ _ _
  index := by
    intro a da hda
    by_cases hae : a = e
    · right
      subst hae
      rw [hw.data, Function.update_self] at hda
      refine ⟨i, (hw.slot_iff hfree).mpr (Or.inr ⟨rfl, rfl⟩), ?_⟩
      rw [← Option.some.inj hda]
    · rw [hw.data_ne hae] at hda
      rcases h.index a da hda with hneg | ⟨j, hj, hidx⟩
      · exact Or.inl hneg
      · exact Or.inr ⟨j, (hw.slot_iff hfree).mpr (Or.inl hj), hidx⟩
  bit := by
    intro fd hbit
    rw [hw.bits] at hbit
    by_cases heq : fd = d.fd
    · refine ⟨e, (hw.watched_iff hfree).mpr (Or.inr rfl), ?_⟩
      rw [hw.fdOf_eq hd, heq]
      simp [State.fdOf, hd]
    · rw [Function.update_of_ne heq] at hbit
      obtain ⟨a, hwa, hfda⟩ := h.bit fd hbit
      exact ⟨a, (hw.watched_iff hfree).mpr (Or.inl hwa), by rw [hw.fdOf_eq hd, hfda]⟩
  distinct := by
    intro a b hwa hwb heq
    rw [hw.fdOf_eq hd, hw.fdOf_eq hd] at heq
    have hfde : s.fdOf e = some d.fd := by simp [State.fdOf, hd]
    rcases (hw.watched_iff hfree).mp hwa with hwa | hae
    · rcases (hw.watched_iff hfree).mp hwb with hwb | hbe
      · exact h.distinct a b hwa hwb heq
      · rw [hbe, hfde] at heq
        exact absurd heq (hfresh a hwa)
    · rcases (hw.watched_iff hfree).mp hwb with hwb | hbe
      · rw [hae, hfde] at heq
        exact absurd heq.symm (hfresh b hwb)
      · rw [hae, hbe]

end Watching

end RilEvent
