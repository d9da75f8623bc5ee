import JsrD10f.RilEvent

/-!
# Pointer updates of the event layer

The memory of `RilEvent.State` is read here in two halves: `links` has the
`next` and `prev` pointers and is what `RingList` speaks about, `data` has all
other fields.  `addToList` and `removeFromList` are shown to be `insertBefore`
and `unlink` on the first half and to leave the second half alone.  Later
modules use these two facts and never look into the pointer writes again.
-/

namespace RilEvent

open RingList

variable {ι : Type}

/-- The fields of a record other than its two pointers. -/
def Event.core (v : Event ι) : Event ι :=
  { v with next := none, prev := none }

@[simp] theorem Event.core_fd (v : Event ι) : v.core.fd = v.fd := rfl
@[simp] theorem Event.core_index (v : Event ι) : v.core.index = v.index := rfl
@[simp] theorem Event.core_persist (v : Event ι) : v.core.persist = v.persist := rfl
@[simp] theorem Event.core_timeout (v : Event ι) : v.core.timeout = v.timeout := rfl
@[simp] theorem Event.core_func (v : Event ι) : v.core.func = v.func := rfl
@[simp] theorem Event.core_param (v : Event ι) : v.core.param = v.param := rfl

/-- The pointers of all live records. -/
def State.links (s : State ι) : Links (Node ι) where
  next n := (s.mem n).bind (·.next)
  prev n := (s.mem n).bind (·.prev)

/-- The other fields of all live records. -/
def State.data (s : State ι) (n : Node ι) : Option (Event ι) :=
  (s.mem n).map (·.core)

theorem data_eq_some {s : State ι} {n : Node ι} {d : Event ι} :
    s.data n = some d ↔ ∃ v, s.mem n = some v ∧ v.core = d := by
  simp [State.data]

theorem mem_of_data {s : State ι} {n : Node ι} {d : Event ι} (h : s.data n = some d) :
    ∃ v, s.mem n = some v ∧ v.core = d :=
  data_eq_some.mp h

theorem data_isSome {s : State ι} {n : Node ι} :
    (s.data n).isSome = (s.mem n).isSome := by
  simp [State.data]

theorem next_of_mem {s : State ι} {n : Node ι} {v : Event ι} (h : s.mem n = some v) :
    s.links.next n = v.next := by
  simp [State.links, h]

theorem prev_of_mem {s : State ι} {n : Node ι} {v : Event ι} (h : s.mem n = some v) :
    s.links.prev n = v.prev := by
  simp [State.links, h]

/-- `s'` differs from `s` in pointers only, and its pointers are `k`. -/
structure Relinked (s s' : State ι) (k : Links (Node ι)) : Prop where
  links : s'.links = k
  data : s'.data = s.data
  rest : s' = { s with mem := s'.mem }

theorem Relinked.trans {s t u : State ι} {k l : Links (Node ι)}
    (h₁ : Relinked s t k) (h₂ : Relinked t u l) : Relinked s u l where
  links := h₂.links
  data := h₂.data.trans h₁.data
  rest := by
    have hu := h₂.rest
    rw [h₁.rest] at hu
    exact hu

theorem Relinked.watchTable {s t : State ι} {k : Links (Node ι)} (h : Relinked s t k) :
    t.watchTable = s.watchTable := by
  rw [h.rest]

theorem Relinked.readFds {s t : State ι} {k : Links (Node ι)} (h : Relinked s t k) :
    t.readFds = s.readFds := by
  rw [h.rest]

theorem Relinked.nfds {s t : State ι} {k : Links (Node ι)} (h : Relinked s t k) :
    t.nfds = s.nfds := by
  rw [h.rest]

theorem Relinked.calls {s t : State ι} {k : Links (Node ι)} (h : Relinked s t k) :
    t.calls = s.calls := by
  rw [h.rest]

theorem Relinked.live {s t : State ι} {k : Links (Node ι)} (h : Relinked s t k)
    (n : Node ι) : (t.mem n).isSome = (s.mem n).isSome := by
  rw [← data_isSome, ← data_isSome, h.data]

variable [DecidableEq ι]

theorem write_next (s : State ι) {n : Node ι} (x : Option (Node ι))
    (hn : (s.mem n).isSome) :
    ∃ s', s.write n (fun v => { v with next := x }) = some s' ∧
      Relinked s s' { s.links with next := Function.update s.links.next n x } := by
  obtain ⟨v, hv⟩ := Option.isSome_iff_exists.mp hn
  refine ⟨_, by simp [State.write, hv]; rfl, ?_, ?_, rfl⟩
  · apply Links.ext
    · funext m
      by_cases hm : m = n
      · subst hm
        simp [State.links]
      · simp [State.links, hm]
    · funext m
      by_cases hm : m = n
      · subst hm
        simp [State.links, hv]
      · simp [State.links, hm]
  · funext m
    by_cases hm : m = n
    · subst hm
      simp [State.data, hv, Event.core]
    · simp [State.data, hm]

theorem write_prev (s : State ι) {n : Node ι} (x : Option (Node ι))
    (hn : (s.mem n).isSome) :
    ∃ s', s.write n (fun v => { v with prev := x }) = some s' ∧
      Relinked s s' { s.links with prev := Function.update s.links.prev n x } := by
  obtain ⟨v, hv⟩ := Option.isSome_iff_exists.mp hn
  refine ⟨_, by simp [State.write, hv]; rfl, ?_, ?_, rfl⟩
  · apply Links.ext
    · funext m
      by_cases hm : m = n
      · subst hm
        simp [State.links, hv]
      · simp [State.links, hm]
    · funext m
      by_cases hm : m = n
      · subst hm
        simp [State.links]
      · simp [State.links, hm]
  · funext m
    by_cases hm : m = n
    · subst hm
      simp [State.data, hv, Event.core]
    · simp [State.data, hm]

/-- A write that keeps the two pointers changes the data of one record. -/
theorem write_core {s : State ι} {n : Node ι} {v : Event ι} (f : Event ι → Event ι)
    (hv : s.mem n = some v) (hnext : (f v).next = v.next) (hprev : (f v).prev = v.prev) :
    ∃ s', s.write n f = some s' ∧ s'.links = s.links ∧
      s'.data = Function.update s.data n (some (f v).core) ∧
      s'.mem n = some (f v) ∧ s' = { s with mem := s'.mem } := by
  refine ⟨_, by simp [State.write, hv]; rfl, ?_, ?_, by simp, rfl⟩
  · apply Links.ext
    · funext m
      by_cases hm : m = n
      · subst hm
        simp [State.links, hv, hnext]
      · simp [State.links, hm]
    · funext m
      by_cases hm : m = n
      · subst hm
        simp [State.links, hv, hprev]
      · simp [State.links, hm]
  · funext m
    by_cases hm : m = n
    · subst hm
      simp [State.data]
    · simp [State.data, hm]

/-- **`addToList` is insertion.**  It puts `ev` between `list` and the node
before it. -/
theorem addToList_spec {s : State ι} {ev list p : Node ι}
    (hev : (s.mem ev).isSome) (hlist : (s.mem list).isSome) (hp : (s.mem p).isSome)
    (hprev : s.links.prev list = some p) :
    ∃ s', addToList s ev list = some s' ∧
      Relinked s s' (s.links.insertBefore ev p list) := by
  obtain ⟨s₁, h₁, r₁⟩ := write_next s (some list) hev
  obtain ⟨l, hl⟩ : ∃ l, s₁.mem list = some l :=
    Option.isSome_iff_exists.mp (by rw [r₁.live]; exact hlist)
  have hlp : l.prev = some p := by
    rw [← prev_of_mem hl, r₁.links]
    exact hprev
  obtain ⟨s₂, h₂, r₂⟩ := write_prev s₁ (n := ev) l.prev (by rw [r₁.live]; exact hev)
  obtain ⟨s₃, h₃, r₃⟩ := write_next s₂ (n := p) (some ev)
    (by rw [r₂.live, r₁.live]; exact hp)
  obtain ⟨s₄, h₄, r₄⟩ := write_prev s₃ (n := list) (some ev)
    (by rw [r₃.live, r₂.live, r₁.live]; exact hlist)
  have hrun : addToList s ev list = some s₄ := by
    rw [hlp] at h₂
    simp [addToList, h₁, hl, hlp, h₂, h₃, h₄]
  refine ⟨s₄, hrun, ?_⟩
  have hlinks : s₄.links = s.links.insertBefore ev p list := by
    rw [r₄.links, r₃.links, r₂.links, r₁.links, hlp]
    rfl
  exact ⟨hlinks, (r₁.trans (r₂.trans (r₃.trans r₄))).data,
    (r₁.trans (r₂.trans (r₃.trans r₄))).rest⟩

/-- **`removeFromList` is unlinking.** -/
theorem removeFromList_spec {s : State ι} {ev p x : Node ι}
    (hp : (s.mem p).isSome) (hx : (s.mem x).isSome)
    (hnext : s.links.next ev = some x) (hprev : s.links.prev ev = some p) :
    ∃ s', removeFromList s ev = some s' ∧
      Relinked s s' (s.links.unlink ev p x) := by
  obtain ⟨v, hv⟩ : ∃ v, s.mem ev = some v := by
    cases hm : s.mem ev with
    | none => simp [State.links, hm] at hnext
    | some v => exact ⟨v, rfl⟩
  have hvx : v.next = some x := by rw [← next_of_mem hv, hnext]
  have hvp : v.prev = some p := by rw [← prev_of_mem hv, hprev]
  obtain ⟨s₁, h₁, r₁⟩ := write_prev s (n := x) (some p) hx
  obtain ⟨s₂, h₂, r₂⟩ := write_next s₁ (n := p) (some x) (by rw [r₁.live]; exact hp)
  obtain ⟨s₃, h₃, r₃⟩ := write_next s₂ (n := ev) none
    (by rw [r₂.live, r₁.live, hv]; rfl)
  obtain ⟨s₄, h₄, r₄⟩ := write_prev s₃ (n := ev) none
    (by rw [r₃.live, r₂.live, r₁.live, hv]; rfl)
  have hrun : removeFromList s ev = some s₄ := by
    simp [removeFromList, hv, hvx, hvp, h₁, h₂, h₃, h₄]
  have hlinks : s₄.links = s.links.unlink ev p x := by
    rw [r₄.links, r₃.links, r₂.links, r₁.links]
    rfl
  exact ⟨s₄, hrun, hlinks, (r₁.trans (r₂.trans (r₃.trans r₄))).data,
    (r₁.trans (r₂.trans (r₃.trans r₄))).rest⟩

end RilEvent
