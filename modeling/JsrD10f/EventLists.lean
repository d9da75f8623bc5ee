import JsrD10f.EventMemory

/-!
# The two lists of the event layer

`timer_list` and `pending_list` share the pointer fields of the records they
link.  `Rings s tl pl` says that both are well formed, with the members `tl`
and `pl`, and that no record is on both.  Each list operation of the source
has one lemma here that gives the members before and after it.
-/

namespace RilEvent

open RingList

variable {ι : Type}

/-- `timer_list` and `pending_list` are circular lists with the members `tl`
and `pl`, and no event is a member twice. -/
structure Rings (s : State ι) (tl pl : List ι) : Prop where
  timer : Ring s.links .timerList (tl.map .event)
  pending : Ring s.links .pendingList (pl.map .event)
  disjoint : ∀ e ∈ tl, e ∉ pl

/-- The event is a member of the list with that head. -/
def InList (s : State ι) (list : Node ι) (e : ι) : Prop :=
  ∃ l : List ι, Ring s.links list (l.map .event) ∧ e ∈ l

/-- The event is on neither list. -/
def Unlisted (s : State ι) (e : ι) : Prop :=
  ¬ InList s .timerList e ∧ ¬ InList s .pendingList e

theorem Unlisted.not_mem {s : State ι} {e : ι} {tl pl : List ι}
    (h : Unlisted s e) (hr : Rings s tl pl) : e ∉ tl ∧ e ∉ pl :=
  ⟨fun he => h.1 ⟨tl, hr.timer, he⟩, fun he => h.2 ⟨pl, hr.pending, he⟩⟩

theorem inList_iff {s : State ι} {list : Node ι} {l : List ι} {e : ι}
    (h : Ring s.links list (l.map .event)) : InList s list e ↔ e ∈ l := by
  constructor
  · rintro ⟨l', h', he⟩
    have hsame : l'.map Node.event = l.map Node.event := ring_unique h' h
    rwa [List.map_injective_iff.mpr (fun _ _ => Node.event.inj) hsame] at he
  · intro he
    exact ⟨l, h, he⟩

/-- The node a walk stands on when the members `r` are still ahead of it. -/
def firstNode (list : Node ι) : List ι → Node ι
  | [] => list
  | e :: _ => .event e

theorem head_eq_firstNode (list : Node ι) (r : List ι) :
    (r.map Node.event ++ [list]).head (by simp) = firstNode list r := by
  cases r with
  | nil => rfl
  | cons e r => rfl

theorem event_mem_map {e : ι} {l : List ι} :
    Node.event e ∈ l.map Node.event ↔ e ∈ l := by
  simp

theorem nodup_of_map_event {l : List ι} (h : (l.map Node.event).Nodup) : l.Nodup :=
  List.Nodup.of_map _ h

/-- A record with a pointer is live. -/
theorem live_of_next {s : State ι} {n : Node ι} (h : (s.links.next n).isSome) :
    (s.mem n).isSome := by
  cases hm : s.mem n with
  | none => simp [State.links, hm] at h
  | some v => rfl

/-- Members have pointers, so a record without one is on no list. -/
theorem unlisted_of_next {s : State ι} {e : ι} (h : s.links.next (.event e) = none) :
    Unlisted s e := by
  have hnone : ∀ list, ¬ InList s list e := by
    intro list hin
    obtain ⟨l, hring, he⟩ := hin
    have hsome := hring.seg.next_isSome (.event e) (by simp [he])
    rw [h] at hsome
    cases hsome
  exact ⟨hnone _, hnone _⟩

theorem ring_live {s : State ι} {h : Node ι} {l : List (Node ι)} (hr : Ring s.links h l)
    {n : Node ι} (hn : n ∈ h :: l) : (s.mem n).isSome :=
  live_of_next (hr.seg.next_isSome n hn)

theorem head_mem_ring {h : Node ι} {l r : List (Node ι)} :
    (r ++ [h]).head (by simp) ∈ h :: (l ++ r) := by
  cases r with
  | nil => simp
  | cons x r => simp

theorem last_mem_ring {h : Node ι} {l r : List (Node ι)} :
    (h :: l).getLast (by simp) ∈ h :: (l ++ r) :=
  List.mem_append_left r (List.getLast_mem _)

/-- The members of the two rings, as one list without repetition. -/
theorem Rings.nodup {s : State ι} {tl pl : List ι} (h : Rings s tl pl) :
    (tl ++ pl).Nodup := by
  refine List.nodup_append.mpr ⟨?_, ?_, ?_⟩
  · exact nodup_of_map_event (List.nodup_cons.mp h.timer.nodup).2
  · exact nodup_of_map_event (List.nodup_cons.mp h.pending.nodup).2
  · intro a ha b hb hab
    exact h.disjoint a ha (hab ▸ hb)

/-- The node sets of the two rings are apart. -/
theorem Rings.apart {s : State ι} {tl pl : List ι} (h : Rings s tl pl) {n : Node ι}
    (hn : n ∈ Node.timerList :: tl.map Node.event) :
    n ∉ Node.pendingList :: pl.map Node.event := by
  intro hp
  cases n with
  | timerList => simp at hp
  | pendingList => simp at hn
  | event e => exact h.disjoint e (by simpa using hn) (by simpa using hp)

/-- Rings only depend on the pointers. -/
theorem Rings.congr {s s' : State ι} {tl pl : List ι} (h : Rings s tl pl)
    (heq : s'.links = s.links) : Rings s' tl pl where
  timer := heq ▸ h.timer
  pending := heq ▸ h.pending
  disjoint := h.disjoint

variable [DecidableEq ι]

/-- Writing or clearing the record of an event that is not a member. -/
theorem ring_update {s : State ι} {list : Node ι} {l : List ι} {e : ι}
    (h : Ring s.links list (l.map .event)) (hlist : list ≠ .event e) (hl : e ∉ l)
    (v : Option (Event ι)) :
    Ring (State.links { s with mem := Function.update s.mem (.event e) v }) list
      (l.map .event) := by
  have hne : ∀ n ∈ list :: l.map Node.event, n ≠ Node.event e := by
    intro n hn heq
    rcases List.mem_cons.mp hn with hnl | hnm
    · exact hlist (hnl ▸ heq)
    · rw [heq, event_mem_map] at hnm
      exact hl hnm
  refine ring_congr ?_ ?_ h
  · intro n hn
    simp [State.links, hne n hn]
  · intro n hn
    simp [State.links, hne n hn]

theorem Rings.update_unlisted {s : State ι} {tl pl : List ι} {e : ι}
    (h : Rings s tl pl) (htl : e ∉ tl) (hpl : e ∉ pl) (v : Option (Event ι)) :
    Rings { s with mem := Function.update s.mem (.event e) v } tl pl :=
  ⟨ring_update h.timer (by simp) htl v, ring_update h.pending (by simp) hpl v, h.disjoint⟩

/-- `addToList` in front of the node that follows `l` in `timer_list`. -/
theorem addToList_timer {s : State ι} {l r pl : List ι} {e : ι}
    (h : Rings s (l ++ r) pl) (hlive : (s.mem (.event e)).isSome)
    (htl : e ∉ l ++ r) (hpl : e ∉ pl) :
    ∃ s', addToList s (.event e) (firstNode .timerList r) = some s' ∧
      Relinked s s' s'.links ∧ Rings s' (l ++ e :: r) pl := by
  have hring : Ring s.links .timerList (l.map .event ++ r.map .event) := by
    simpa using h.timer
  have hlist : ∀ n ∈ Node.timerList :: (l.map Node.event ++ r.map Node.event),
      (s.mem n).isSome ∧ n ∉ Node.pendingList :: pl.map Node.event := by
    intro n hn
    exact ⟨ring_live hring hn, h.apart (by simpa using hn)⟩
  have hprev : s.links.prev ((r.map Node.event ++ [Node.timerList]).head (by simp)) =
      some ((Node.timerList :: l.map Node.event).getLast (by simp)) := by
    cases r with
    | nil =>
        have hseg : Seg s.links .timerList (l.map .event) .timerList := by
          simpa using hring.seg
        exact hseg.prev_eq
    | cons x r => exact (seg_append.mp hring.seg).1.prev_eq
  obtain ⟨s', hrun, hrel⟩ := addToList_spec hlive (hlist _ head_mem_ring).1
    (hlist _ last_mem_ring).1 hprev
  have hnew : Node.event e ∉ Node.timerList :: (l.map Node.event ++ r.map Node.event) := by
    simpa using htl
  rw [head_eq_firstNode] at hrun
  refine ⟨s', hrun, ⟨rfl, hrel.data, hrel.rest⟩, ?_, ?_, ?_⟩
  · rw [hrel.links]
    simpa using ring_insertBefore hnew hring
  · rw [hrel.links]
    exact (ring_frame (by simpa using hpl) (hlist _ last_mem_ring).2
      (hlist _ head_mem_ring).2 h.pending).1
  · intro a ha
    rcases List.mem_append.mp ha with hal | har
    · exact h.disjoint a (List.mem_append_left _ hal)
    · rcases List.mem_cons.mp har with hae | har
      · exact hae ▸ hpl
      · exact h.disjoint a (List.mem_append_right _ har)

/-- `addToList` at the tail of `pending_list`. -/
theorem addToList_pending {s : State ι} {tl pl : List ι} {e : ι}
    (h : Rings s tl pl) (hlive : (s.mem (.event e)).isSome)
    (htl : e ∉ tl) (hpl : e ∉ pl) :
    ∃ s', addToList s (.event e) .pendingList = some s' ∧
      Relinked s s' s'.links ∧ Rings s' tl (pl ++ [e]) := by
  have hlist : ∀ n ∈ Node.pendingList :: pl.map Node.event,
      (s.mem n).isSome ∧ n ∉ Node.timerList :: tl.map Node.event := by
    intro n hn
    exact ⟨ring_live h.pending hn, fun ht => h.apart ht hn⟩
  have hlast : (Node.pendingList :: pl.map Node.event).getLast (by simp) ∈
      Node.pendingList :: pl.map Node.event := List.getLast_mem _
  obtain ⟨s', hrun, hrel⟩ := addToList_spec hlive (hlist _ List.mem_cons_self).1
    (hlist _ hlast).1 h.pending.seg.prev_eq
  have hnew : Node.event e ∉ Node.pendingList :: (pl.map Node.event ++ []) := by
    simpa using hpl
  refine ⟨s', hrun, ⟨rfl, hrel.data, hrel.rest⟩, ?_, ?_, ?_⟩
  · rw [hrel.links]
    exact (ring_frame (by simpa using htl) (hlist _ hlast).2
      (hlist _ List.mem_cons_self).2 h.timer).1
  · rw [hrel.links]
    have hring := ring_insertBefore (r := []) hnew (by simpa using h.pending)
    simpa using hring
  · intro a ha hm
    rcases List.mem_append.mp hm with hap | hae
    · exact h.disjoint a ha hap
    · have hae : a = e := by simpa using hae
      exact htl (hae ▸ ha)

/-- `removeFromList` of the first member of a list.  Lists that share no node
with it stay as they are. -/
theorem removeFromList_ring {s : State ι} {list : Node ι} {l : List ι} {e : ι}
    (h : Ring s.links list ((e :: l).map .event)) :
    ∃ s', removeFromList s (.event e) = some s' ∧ Relinked s s' s'.links ∧
      Ring s'.links list (l.map .event) ∧
      ∀ list' (l' : List ι),
        (∀ n ∈ list :: (e :: l).map Node.event, n ∉ list' :: l'.map Node.event) →
        Ring s.links list' (l'.map .event) → Ring s'.links list' (l'.map .event) := by
  have hring : Ring s.links list ([] ++ Node.event e :: l.map .event) := h
  have hnodes : ∀ n ∈ list :: Node.event e :: l.map Node.event, (s.mem n).isSome :=
    fun n hn => ring_live hring hn
  have hhead : (l.map Node.event ++ [list]).head (by simp) ∈
      list :: Node.event e :: l.map Node.event :=
    head_mem_ring (l := [Node.event e])
  obtain ⟨hleft, hright⟩ := seg_append.mp hring.seg
  obtain ⟨s', hrun, hrel⟩ := removeFromList_spec (hnodes _ List.mem_cons_self)
    (hnodes _ hhead) hright.next_eq hleft.prev_eq
  refine ⟨s', hrun, ⟨rfl, hrel.data, hrel.rest⟩, ?_, ?_⟩
  · rw [hrel.links]
    exact ring_unlink hring
  · intro list' l' hapart hother
    rw [hrel.links]
    exact (ring_frame (hapart (.event e) (by simp)) (hapart _ List.mem_cons_self)
      (hapart _ hhead) hother).2

/-- `removeFromList` of the first timer. -/
theorem removeFromList_timer {s : State ι} {tl pl : List ι} {e : ι}
    (h : Rings s (e :: tl) pl) :
    ∃ s', removeFromList s (.event e) = some s' ∧
      Relinked s s' s'.links ∧ Rings s' tl pl := by
  obtain ⟨s', hrun, hrel, hring, hframe⟩ := removeFromList_ring h.timer
  exact ⟨s', hrun, hrel, hring, hframe _ _ (fun n hn => h.apart hn) h.pending,
    fun a ha => h.disjoint a (List.mem_cons_of_mem _ ha)⟩

end RilEvent
