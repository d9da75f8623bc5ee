import JsrD10f.EventLists

/-!
# Timers of the event layer

A timer is put into `timer_list` in front of the first timer that is not
earlier, moved to `pending_list` once its deadline has passed, and called from
there.  This file gives the effect of `ril_timer_add`, `processTimeouts` and
one turn of `firePending` on the members of the two lists.  `TimerInv` is what
they keep: both lists well formed, and the timers sorted by normalised
deadlines.
-/

namespace RilEvent

open RingList

/-! ## Times -/

/-- Microseconds since the origin of the clock. -/
def Timeval.micros (t : Timeval) : Int := t.tvSec * 1000000 + t.tvUsec

/-- The microsecond part is less than a second. -/
def Timeval.Normal (t : Timeval) : Prop := 0 ≤ t.tvUsec ∧ t.tvUsec < 1000000

instance (t : Timeval) : Decidable t.Normal :=
  inferInstanceAs (Decidable (_ ∧ _))

theorem timercmp_lt {a b : Timeval} (ha : a.Normal) (hb : b.Normal) :
    timercmp a b (fun x y => x < y) = decide (a.micros < b.micros) := by
  obtain ⟨ha₀, ha₁⟩ := ha
  obtain ⟨hb₀, hb₁⟩ := hb
  unfold timercmp Timeval.micros
  by_cases hsec : a.tvSec = b.tvSec
  · rw [if_pos hsec, decide_eq_decide]
    omega
  · rw [if_neg hsec, decide_eq_decide]
    omega

theorem timercmp_gt {a b : Timeval} (ha : a.Normal) (hb : b.Normal) :
    timercmp a b (fun x y => x > y) = decide (b.micros < a.micros) := by
  obtain ⟨ha₀, ha₁⟩ := ha
  obtain ⟨hb₀, hb₁⟩ := hb
  unfold timercmp Timeval.micros
  by_cases hsec : a.tvSec = b.tvSec
  · rw [if_pos hsec, decide_eq_decide]
    omega
  · rw [if_neg hsec, decide_eq_decide]
    omega

theorem timeradd_normal {t u : Timeval} (ht : t.Normal) (hu : u.Normal) :
    (timeradd t u).Normal := by
  obtain ⟨ht₀, ht₁⟩ := ht
  obtain ⟨hu₀, hu₁⟩ := hu
  unfold timeradd Timeval.Normal
  by_cases hcarry : t.tvUsec + u.tvUsec ≥ 1000000
  · simp only [hcarry, if_true]
    omega
  · simp only [hcarry, if_false]
    omega

/-- The carry keeps the sum exact. -/
theorem timeradd_micros (t u : Timeval) :
    (timeradd t u).micros = t.micros + u.micros := by
  unfold timeradd Timeval.micros
  by_cases hcarry : t.tvUsec + u.tvUsec ≥ 1000000
  · simp only [hcarry, if_true]
    omega
  · simp only [hcarry, if_false]
    omega

variable {ι : Type}

/-- The absolute deadline stored in an event. -/
def State.timeout (s : State ι) (e : ι) : Timeval :=
  ((s.data (.event e)).map (·.timeout)).getD ⟨0, 0⟩

theorem timeout_of_mem {s : State ι} {e : ι} {v : Event ι}
    (h : s.mem (.event e) = some v) : s.timeout e = v.timeout := by
  simp [State.timeout, State.data, h]

theorem timeout_congr {s s' : State ι} (h : s'.data = s.data) :
    s'.timeout = s.timeout := by
  funext e
  simp [State.timeout, h]

/-- The successor of a member of a list. -/
theorem ring_next_member {s : State ι} {list : Node ι} {l r : List ι} {e : ι}
    (h : Ring s.links list ((l ++ e :: r).map .event)) :
    s.links.next (.event e) = some (firstNode list r) := by
  rw [List.map_append, List.map_cons] at h
  rw [← head_eq_firstNode]
  exact (seg_append.mp h.seg).2.next_eq

/-- The first member of a list. -/
theorem ring_next_head {s : State ι} {list : Node ι} {l : List ι}
    (h : Ring s.links list (l.map .event)) :
    s.links.next list = some (firstNode list l) := by
  rw [← head_eq_firstNode]
  exact h.seg.next_eq

/-- On a list sorted so that `p` never comes back, the leading part that
satisfies `p` is everything that does. -/
theorem takeWhile_eq_filter {p : ι → Bool} {l : List ι}
    (h : l.Pairwise (fun a b => p b = true → p a = true)) :
    l.takeWhile p = l.filter p ∧ l.dropWhile p = l.filter (fun a => !p a) := by
  induction l with
  | nil => exact ⟨rfl, rfl⟩
  | cons a l ih =>
      obtain ⟨ha, hl⟩ := List.pairwise_cons.mp h
      by_cases hp : p a = true
      · simp [hp, ih hl]
      · have hnone : ∀ b ∈ l, p b = false := by
          intro b hb
          by_cases hpb : p b = true
          · exact absurd (ha b hb hpb) hp
          · simpa using hpb
        have hfilter : l.filter p = [] := by
          apply List.filter_eq_nil_iff.mpr
          intro b hb
          simp [hnone b hb]
        have hrest : l.filter (fun b => !p b) = l := by
          apply List.filter_eq_self.mpr
          intro b hb
          simp [hnone b hb]
        simp [hp, hfilter, hrest]

/-! ## One operation -/

/-- Both lists are well formed, and the timers are sorted by normalised
deadlines and carry no descriptor. -/
structure TimerInv (s : State ι) (tl pl : List ι) : Prop where
  rings : Rings s tl pl
  normal : ∀ e ∈ tl, (s.timeout e).Normal
  sorted : tl.Pairwise (fun a b => (s.timeout a).micros ≤ (s.timeout b).micros)
  noFd : ∀ e ∈ tl, (s.data (.event e)).map (·.fd) = some (-1)

/-- The invariant moves to any state with well-formed lists that keeps the
data of the remaining timers. -/
theorem TimerInv.transfer {s s' : State ι} {tl tl' pl pl' : List ι} (h : TimerInv s tl pl)
    (hrings : Rings s' tl' pl') (hsub : tl'.Sublist tl)
    (hdata : ∀ e ∈ tl', s'.data (.event e) = s.data (.event e)) : TimerInv s' tl' pl' where
  rings := hrings
  normal := by
    intro e he
    simpa [State.timeout, hdata e he] using h.normal e (hsub.subset he)
  sorted := by
    refine (h.sorted.sublist hsub).imp_of_mem ?_
    intro a b ha hb hab
    simpa [State.timeout, hdata a ha, hdata b hb] using hab
  noFd := by
    intro e he
    rw [hdata e he]
    exact h.noFd e (hsub.subset he)

variable [DecidableEq ι]

theorem timerSlotLoop_spec {s : State ι} {t : Timeval} {l r : List ι}
    (hring : Ring s.links .timerList ((l ++ r).map .event)) {fuel : Nat}
    (hfuel : r.length < fuel) :
    ∃ r₁ r₂, r = r₁ ++ r₂ ∧
      timerSlotLoop t fuel (firstNode .timerList r) s = some (firstNode .timerList r₂) ∧
      (∀ e ∈ r₁, timercmp (s.timeout e) t (fun x y => x < y) = true) ∧
      ∀ e ∈ r₂.head?, timercmp (s.timeout e) t (fun x y => x < y) = false := by
  induction r generalizing l fuel with
  | nil =>
      obtain ⟨f, rfl⟩ : ∃ f, fuel = f + 1 := ⟨fuel - 1, by simp at hfuel; omega⟩
      obtain ⟨v, hv⟩ := Option.isSome_iff_exists.mp (ring_live hring List.mem_cons_self)
      exact ⟨[], [], rfl, by simp [timerSlotLoop, firstNode, hv], by simp, by simp⟩
  | cons e r ih =>
      obtain ⟨f, rfl⟩ : ∃ f, fuel = f + 1 := ⟨fuel - 1, by simp at hfuel; omega⟩
      have hnext := ring_next_member hring
      obtain ⟨v, hv⟩ := Option.isSome_iff_exists.mp
        (live_of_next (s := s) (n := .event e) (by rw [hnext]; rfl))
      have hvnext : v.next = some (firstNode .timerList r) := by
        rw [← next_of_mem hv, hnext]
      have hvt := timeout_of_mem hv
      by_cases hlt : timercmp v.timeout t (fun x y => x < y) = true
      · obtain ⟨r₁, r₂, hr, hrun, hbefore, hstop⟩ := ih (l := l ++ [e])
          (by simpa using hring) (by simp at hfuel; omega)
        refine ⟨e :: r₁, r₂, by rw [hr]; rfl, ?_, ?_, hstop⟩
        · simpa [timerSlotLoop, firstNode, hv, hlt, hvnext] using hrun
        · intro a ha
          rcases List.mem_cons.mp ha with hae | har
          · rw [hae, hvt]
            exact hlt
          · exact hbefore a har
      · refine ⟨[], e :: r, rfl, ?_, by simp, ?_⟩
        · simp [timerSlotLoop, firstNode, hv, hlt]
        · intro a ha
          have hae : e = a := by simpa using ha
          rw [← hae, hvt]
          simpa using hlt

/-- More fuel does not change where the search ends. -/
theorem timerSlotLoop_mono {s : State ι} {t : Timeval} {fuel fuel' : Nat} {n x : Node ι}
    (h : timerSlotLoop t fuel n s = some x) (hle : fuel ≤ fuel') :
    timerSlotLoop t fuel' n s = some x := by
  induction fuel generalizing fuel' n with
  | zero => simp [timerSlotLoop] at h
  | succ f ih =>
      obtain ⟨f', rfl⟩ : ∃ f', fuel' = f' + 1 := ⟨fuel' - 1, by omega⟩
      cases hv : s.mem n with
      | none => simp [timerSlotLoop, hv] at h
      | some v =>
          by_cases hgo : (timercmp v.timeout t (fun x y => x < y) && n ≠ .timerList) = true
          · cases hnext : v.next with
            | none =>
                simp only [timerSlotLoop, hv, hgo, hnext, Option.bind_eq_bind,
                  Option.bind_some, Option.bind_none, if_true] at h
                cases h
            | some m =>
                simp only [timerSlotLoop, hv, hgo, hnext, Option.bind_eq_bind,
                  Option.bind_some, if_true] at h ⊢
                exact ih h (by omega)
          · simp only [timerSlotLoop, hv, hgo, Option.bind_eq_bind, Option.bind_some] at h ⊢
            exact h

/-- What `ril_timer_add` writes: the new timer stands behind the leading
timers that are earlier, and only its own data change. -/
theorem rilTimerAdd_result {s : State ι} {tl pl : List ι} {e : ι} {d : Event ι}
    (tv now : Timeval) (h : Rings s tl pl) (hd : s.data (.event e) = some d)
    (htl : e ∉ tl) (hpl : e ∉ pl) :
    ∃ s' l r, (∀ fuel, tl.length < fuel → rilTimerAdd fuel e (some tv) now s = some s') ∧
      tl = l ++ r ∧ Rings s' (l ++ e :: r) pl ∧
      (∀ a ∈ l, timercmp (s.timeout a) (timeradd now tv) (fun x y => x < y) = true) ∧
      (∀ a ∈ r.head?,
        timercmp (s.timeout a) (timeradd now tv) (fun x y => x < y) = false) ∧
      s'.data = Function.update s.data (.event e)
        (some { d with fd := -1, timeout := timeradd now tv }) ∧
      s' = { s with mem := s'.mem } := by
  obtain ⟨v, hv, hvd⟩ := mem_of_data hd
  obtain ⟨s₁, hw, hlinks, hdata, -, hrest⟩ := write_core
    (fun v => { v with fd := -1, timeout := timeradd now tv }) hv rfl rfl
  have h₁ : Rings s₁ tl pl := h.congr hlinks
  obtain ⟨l, r, hsplit, hloop, hbefore, hafter⟩ :=
    timerSlotLoop_spec (t := timeradd now tv) (l := []) (r := tl) h₁.timer
      (Nat.lt_succ_self _)
  have htime : ∀ a ∈ tl, s₁.timeout a = s.timeout a := by
    intro a ha
    have hae : Node.event a ≠ Node.event e := by
      intro heq
      exact htl (Node.event.inj heq ▸ ha)
    rw [State.timeout, State.timeout, hdata, Function.update_of_ne hae]
  have hlive₁ : (s₁.mem (.event e)).isSome := by
    rw [← data_isSome, hdata]
    simp
  rw [hsplit] at h₁ htl htime
  obtain ⟨s₂, hadd, hrel, hrings⟩ := addToList_timer h₁ hlive₁ htl hpl
  refine ⟨s₂, l, r, ?_, hsplit, hrings, ?_, ?_, ?_, ?_⟩
  · intro fuel hfuel
    obtain ⟨lv, hlv⟩ := Option.isSome_iff_exists.mp (ring_live h.timer List.mem_cons_self)
    have hlnext : lv.next = some (firstNode .timerList tl) := by
      rw [← next_of_mem hlv, ring_next_head h.timer]
    have hloop' := timerSlotLoop_mono hloop (Nat.succ_le_of_lt hfuel)
    simp [rilTimerAdd, hlv, hlnext, hw, hloop', hadd]
  · intro a ha
    rw [← htime a (List.mem_append_left _ ha)]
    exact hbefore a ha
  · intro a ha
    rw [← htime a (List.mem_append_right _ (List.mem_of_mem_head? ha))]
    exact hafter a ha
  · rw [hrel.data, hdata, ← hvd]
    rfl
  · have hrest₂ := hrel.rest
    rw [hrest] at hrest₂
    exact hrest₂

omit [DecidableEq ι] in
theorem mem_insert {l r : List ι} {a e : ι} : a ∈ l ++ e :: r ↔ a = e ∨ a ∈ l ++ r := by
  simp only [List.mem_append, List.mem_cons]
  tauto

omit [DecidableEq ι] in
theorem pairwise_insert {R : ι → ι → Prop} {l r : List ι} {e : ι} (h : (l ++ r).Pairwise R)
    (hl : ∀ a ∈ l, R a e) (hr : ∀ a ∈ r, R e a) : (l ++ e :: r).Pairwise R := by
  obtain ⟨hpl, hpr, hlr⟩ := List.pairwise_append.mp h
  refine List.pairwise_append.mpr ⟨hpl, List.pairwise_cons.mpr ⟨hr, hpr⟩, ?_⟩
  intro a ha b hb
  rcases List.mem_cons.mp hb with rfl | hbr
  · exact hl a ha
  · exact hlr a ha b hbr

/-- **`ril_timer_add` inserts in order.**  The new timer stands behind every
earlier timer and in front of every timer that is not earlier. -/
theorem rilTimerAdd_spec {s : State ι} {tl pl : List ι} {e : ι} {tv now : Timeval}
    {fuel : Nat} (h : TimerInv s tl pl) (hlive : (s.mem (.event e)).isSome)
    (htl : e ∉ tl) (hpl : e ∉ pl) (htv : tv.Normal) (hnow : now.Normal)
    (hfuel : tl.length < fuel) :
    ∃ s' l r, rilTimerAdd fuel e (some tv) now s = some s' ∧ tl = l ++ r ∧
      TimerInv s' (l ++ e :: r) pl ∧ s' = { s with mem := s'.mem } := by
  obtain ⟨d, hd⟩ := Option.isSome_iff_exists.mp (data_isSome ▸ hlive)
  obtain ⟨s', l, r, hrun, hsplit, hrings, hbefore, hafter, hdata, hrest⟩ :=
    rilTimerAdd_result tv now h.rings hd htl hpl
  have htime : s'.timeout e = timeradd now tv := by
    simp [State.timeout, hdata]
  have hnormal : (timeradd now tv).Normal := timeradd_normal hnow htv
  have hdata_ne : ∀ a ∈ tl, s'.data (.event a) = s.data (.event a) := by
    intro a ha
    have hae : Node.event a ≠ Node.event e := by
      intro heq
      exact htl (Node.event.inj heq ▸ ha)
    rw [hdata, Function.update_of_ne hae]
  have htime_ne : ∀ a ∈ tl, s'.timeout a = s.timeout a := by
    intro a ha
    rw [State.timeout, State.timeout, hdata_ne a ha]
  subst hsplit
  have hl : ∀ a ∈ l, (s'.timeout a).micros ≤ (s'.timeout e).micros := by
    intro a ha
    have hmem : a ∈ l ++ r := List.mem_append_left _ ha
    have hlt := hbefore a ha
    rw [timercmp_lt (h.normal a hmem) hnormal] at hlt
    have hlt := of_decide_eq_true hlt
    rw [htime_ne a hmem, htime]
    omega
  have hr : ∀ a ∈ r, (s'.timeout e).micros ≤ (s'.timeout a).micros := by
    intro a ha
    have hmem : a ∈ l ++ r := List.mem_append_right _ ha
    rw [htime_ne a hmem, htime]
    cases r with
    | nil => cases ha
    | cons b r =>
        have hb := hafter b (by simp)
        rw [timercmp_lt (h.normal b (by simp)) hnormal] at hb
        have hb := of_decide_eq_false hb
        rcases List.mem_cons.mp ha with hab | har
        · rw [hab]
          omega
        · have hsorted := (List.pairwise_append.mp h.sorted).2.1
          have hba := (List.pairwise_cons.mp hsorted).1 a har
          omega
  refine ⟨s', l, r, hrun fuel hfuel, rfl, ⟨hrings, ?_, pairwise_insert ?_ hl hr, ?_⟩, hrest⟩
  · intro a ha
    rcases mem_insert.mp ha with rfl | hmem
    · rw [htime]
      exact hnormal
    · rw [htime_ne a hmem]
      exact h.normal a hmem
  · refine h.sorted.imp_of_mem ?_
    intro a b ha hb hab
    rw [htime_ne a ha, htime_ne b hb]
    exact hab
  · intro a ha
    rcases mem_insert.mp ha with rfl | hmem
    · rw [hdata]
      simp
    · rw [hdata_ne a hmem]
      exact h.noFd a hmem

theorem processTimeoutsLoop_spec {s : State ι} {now : Timeval} {tl pl : List ι}
    (h : Rings s tl pl) :
    ∃ s', (∀ fuel, tl.length < fuel →
        processTimeoutsLoop now fuel (firstNode .timerList tl) s = some s') ∧
      Relinked s s' s'.links ∧
      Rings s' (tl.dropWhile (fun e => timercmp now (s.timeout e) (fun x y => x > y)))
        (pl ++ tl.takeWhile (fun e => timercmp now (s.timeout e) (fun x y => x > y))) := by
  induction tl generalizing s pl with
  | nil =>
      refine ⟨s, ?_, ⟨rfl, rfl, rfl⟩, by simpa using h⟩
      intro fuel hfuel
      obtain ⟨f, rfl⟩ : ∃ f, fuel = f + 1 := ⟨fuel - 1, by simp at hfuel; omega⟩
      simp [processTimeoutsLoop, firstNode]
  | cons e tl ih =>
      have hnext := ring_next_member (l := []) h.timer
      obtain ⟨v, hv⟩ := Option.isSome_iff_exists.mp
        (live_of_next (s := s) (n := .event e) (by rw [hnext]; rfl))
      have hvnext : v.next = some (firstNode .timerList tl) := by
        rw [← next_of_mem hv, hnext]
      have hvt := timeout_of_mem hv
      by_cases hgt : timercmp now v.timeout (fun x y => x > y) = true
      · obtain ⟨s₁, hremove, hrel₁, hrings₁⟩ := removeFromList_timer h
        have htl : e ∉ tl := by
          have hnd := nodup_of_map_event (List.nodup_cons.mp h.timer.nodup).2
          exact (List.nodup_cons.mp hnd).1
        obtain ⟨s₂, hadd, hrel₂, hrings₂⟩ := addToList_pending hrings₁
          (by rw [hrel₁.live, hv]; rfl) htl (h.disjoint e List.mem_cons_self)
        have hrel := hrel₁.trans hrel₂
        obtain ⟨s', hrun, hrel', hrings'⟩ := ih hrings₂
        refine ⟨s', ?_, hrel.trans hrel', ?_⟩
        · intro fuel hfuel
          obtain ⟨f, rfl⟩ : ∃ f, fuel = f + 1 := ⟨fuel - 1, by simp at hfuel; omega⟩
          simpa [processTimeoutsLoop, firstNode, hv, hgt, hvnext, hremove, hadd]
            using hrun f (by simp at hfuel; omega)
        · rw [timeout_congr hrel.data] at hrings'
          simpa [hvt, hgt] using hrings'
      · refine ⟨s, ?_, ⟨rfl, rfl, rfl⟩, ?_⟩
        · intro fuel hfuel
          obtain ⟨f, rfl⟩ : ∃ f, fuel = f + 1 := ⟨fuel - 1, by simp at hfuel; omega⟩
          simp [processTimeoutsLoop, firstNode, hv, hgt]
        · simpa [hvt, hgt] using h

/-- The timers whose deadline lies strictly before `now`. -/
def State.expired (s : State ι) (now : Timeval) (tl : List ι) : List ι :=
  tl.filter (fun e => (s.timeout e).micros < now.micros)

/-- The timers that have not expired at `now`. -/
def State.unexpired (s : State ι) (now : Timeval) (tl : List ι) : List ι :=
  tl.filter (fun e => !decide ((s.timeout e).micros < now.micros))

/-- **`processTimeouts` moves the expired timers.**  They go to the tail of
`pending_list` in the order of their deadlines; the others stay. -/
theorem processTimeouts_rings {s : State ι} {now : Timeval} {tl pl : List ι}
    (h : Rings s tl pl) (hnormal : ∀ e ∈ tl, (s.timeout e).Normal)
    (hsorted : tl.Pairwise (fun a b => (s.timeout a).micros ≤ (s.timeout b).micros))
    (hnow : now.Normal) :
    ∃ s', (∀ fuel, tl.length < fuel → processTimeouts fuel now s = some s') ∧
      Relinked s s' s'.links ∧
      Rings s' (s.unexpired now tl) (pl ++ s.expired now tl) := by
  obtain ⟨s', hrun, hrel, hrings⟩ := processTimeoutsLoop_spec h
  have hcmp : ∀ e ∈ tl, timercmp now (s.timeout e) (fun x y => x > y) =
      decide ((s.timeout e).micros < now.micros) :=
    fun e he => timercmp_gt hnow (hnormal e he)
  have hsorted : tl.Pairwise (fun a b =>
      timercmp now (s.timeout b) (fun x y => x > y) = true →
        timercmp now (s.timeout a) (fun x y => x > y) = true) := by
    refine hsorted.imp_of_mem ?_
    intro a b ha hb hab hgt
    rw [hcmp b hb] at hgt
    rw [hcmp a ha]
    have hgt := of_decide_eq_true hgt
    exact decide_eq_true (by omega)
  obtain ⟨htake, hdrop⟩ := takeWhile_eq_filter hsorted
  have hexp : tl.filter (fun e => timercmp now (s.timeout e) (fun x y => x > y)) =
      s.expired now tl :=
    List.filter_congr hcmp
  have hunexp : tl.filter (fun e => !timercmp now (s.timeout e) (fun x y => x > y)) =
      s.unexpired now tl := by
    refine List.filter_congr ?_
    intro e he
    rw [hcmp e he]
  rw [htake, hdrop, hexp, hunexp] at hrings
  refine ⟨s', ?_, hrel, hrings⟩
  intro fuel hfuel
  obtain ⟨lv, hlv⟩ := Option.isSome_iff_exists.mp (ring_live h.timer List.mem_cons_self)
  have hlnext : lv.next = some (firstNode .timerList tl) := by
    rw [← next_of_mem hlv, ring_next_head h.timer]
  simp [processTimeouts, hlv, hlnext, hrun fuel hfuel]

/-- The invariant stays. -/
theorem processTimeouts_spec {s : State ι} {now : Timeval} {tl pl : List ι}
    (h : TimerInv s tl pl) (hnow : now.Normal) :
    ∃ s', (∀ fuel, tl.length < fuel → processTimeouts fuel now s = some s') ∧
      Relinked s s' s'.links ∧
      TimerInv s' (s.unexpired now tl) (pl ++ s.expired now tl) := by
  obtain ⟨s', hrun, hrel, hrings⟩ := processTimeouts_rings h.rings h.normal h.sorted hnow
  exact ⟨s', hrun, hrel, h.transfer hrings List.filter_sublist (fun e _ => by rw [hrel.data])⟩

/-- One turn of `firePending` takes the first pending event off its list,
calls it and stands on the next one.  The timers do not matter to it. -/
theorem fireHead_spec {s : State ι} {pl : List ι} {e : ι}
    (h : Ring s.links .pendingList ((e :: pl).map .event)) :
    ∃ s' v, fireHead s (.event e) = some (s', firstNode .pendingList pl) ∧
      Ring s'.links .pendingList (pl.map .event) ∧
      (∀ tl, Rings s tl (e :: pl) → Rings s' tl pl) ∧
      s.mem (.event e) = some v ∧ s'.data = s.data ∧
      s' = { s with
        mem := s'.mem
        calls := s.calls ++ [⟨e, v.func, v.fd, v.param, decide (s.Watched e)⟩] } := by
  have hnext := ring_next_member (l := []) h
  obtain ⟨v, hv⟩ := Option.isSome_iff_exists.mp
    (live_of_next (s := s) (n := .event e) (by rw [hnext]; rfl))
  have hvnext : v.next = some (firstNode .pendingList pl) := by
    rw [← next_of_mem hv, hnext]
  obtain ⟨s₁, hremove, hrel, hring, hframe⟩ := removeFromList_ring h
  have hw : s₁.Watched e ↔ s.Watched e := by
    rw [State.Watched, State.Watched, hrel.watchTable]
  refine ⟨{ s₁ with calls := s.calls ++ [⟨e, v.func, v.fd, v.param, decide (s.Watched e)⟩] },
    v, ?_, hring, ?_, hv, hrel.data, ?_⟩
  · simp [fireHead, hv, hvnext, hremove, hrel.calls, hw]
  · intro tl hrings
    exact ⟨hframe _ _ (fun n hn ht => hrings.apart ht hn) hrings.timer, hring,
      fun a ha hm => hrings.disjoint a ha (List.mem_cons_of_mem _ hm)⟩
  · rw [hrel.rest]

end RilEvent
