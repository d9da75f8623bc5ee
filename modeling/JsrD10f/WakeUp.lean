import JsrD10f.EventApi

/-!
# Waking the event loop

The thread of `eventLoop` copies `readFds`, asks for the next timeout and sleeps in
`select`.  Other threads add descriptors and timers meanwhile; a sleeper does not see
them, so each addition is followed by a byte written to a pipe that the loop always
watches.  Nothing makes the copy, the computed wait and the call of `select` one step,
and the pipe is created only after the other threads have been told that the loop is
there.  This file interleaves the threads step by step and shows that no addition is
slept through.

A step of another thread is one call of the event layer (each holds the layer's mutex) or
the write of `triggerEvLoop`.  `owed` counts the threads between the two.
-/

namespace RilEvent

open RingList Runs

/-- Where the thread of `eventLoop` stands. -/
inductive Phase (ι : Type) where
  /-- Before `pipe`: the other threads may already run, and a byte they write is lost. -/
  | starting
  | piped
  | wakeupSet
  /-- At the top of the `for` of `ril_event_loop`. -/
  | top
  | copied (rfds : Int → Bool)
  | timed (rfds : Int → Bool) (now : Timeval) (wait : Option Timeval)
  /-- Inside `select`, called with the value that `nfds` had. -/
  | asleep (rfds : Int → Bool) (now : Timeval) (wait : Option Timeval) (n : Int)
  | selected (ready : Finset Int)
  | expired (ready : Finset Int)
  /-- In `firePending`, standing on `ev`. -/
  | firing (ev : Node ι)
  /-- In a callback of another event, or in `processWakeupCallback`. -/
  | calling (next : Node ι)
  | draining (next : Node ι)
  /-- `select` failed, and the process is sent SIGKILL. -/
  | killed

structure Loop (ι : Type) where
  events : State ι
  phase : Phase ι
  /-- The bytes in the wakeup pipe. -/
  pipe : Nat
  owed : Nat

/-- The steps of the loop's thread, and `client` and `trigger` of the others. -/
inductive LoopOp (ι : Type) where
  | client (op : ApiOp ι)
  | trigger
  | openPipe
  | setWakeup
  | addWakeup
  | copyFds
  | nextTimeout (now : Timeval)
  | sleep
  | select (ready : Finset Int)
  | selectError (eintr : Bool)
  | timeouts (now : Timeval)
  | readies
  | fire
  | callback (op : ApiOp ι)
  | drain
  | finish

variable {ι : Type} [DecidableEq ι]

/-- The clients that follow a call by `triggerEvLoop`: `rilEventAddWakeup` and
`internalRequestTimedCallback`. -/
def ApiOp.owes : ApiOp ι → Nat
  | .add _ => 1
  | .timerAdd _ _ _ => 1
  | _ => 0

/-- The size of the buffer of `processWakeupCallback`. -/
abbrev wakeupBuff : Nat := 16

/-- The callback of `s_wakeupfd_event` in `eventLoop`. -/
abbrev processWakeupCallback : Nat := 1

/-- One step.  A step that the phase does not allow has no result. -/
def loopStep (fuel : Nat) (wake : ι) (wakeFd : Int) (m : Loop ι) : LoopOp ι → Option (Loop ι)
  | .client op =>
      (op.apply fuel m.events).map fun s => { m with events := s, owed := m.owed + op.owes }
  | .trigger =>
      if m.owed = 0 then none
      else match m.phase with
        | .starting => some { m with owed := m.owed - 1 }
        | _ => some { m with owed := m.owed - 1, pipe := m.pipe + 1 }
  | .openPipe =>
      match m.phase with
      | .starting => some { m with phase := .piped }
      | _ => none
  | .setWakeup =>
      match m.phase with
      | .piped => some { m with
          events := rilEventSet wake wakeFd true processWakeupCallback 0 m.events
          phase := .wakeupSet }
      | _ => none
  | .addWakeup =>
      -- the loop's own thread, so that `triggerEvLoop` writes nothing
      match m.phase with
      | .wakeupSet => (rilEventAdd wake m.events).map fun s =>
          { m with events := s, phase := .top }
      | _ => none
  | .copyFds =>
      match m.phase with
      | .top => some { m with phase := .copied m.events.readFds }
      | _ => none
  | .nextTimeout now =>
      match m.phase with
      | .copied rfds => (calcNextTimeout now m.events).map fun wait =>
          { m with phase := .timed rfds now wait }
      | _ => none
  | .sleep =>
      match m.phase with
      | .timed rfds now wait => some { m with phase := .asleep rfds now wait m.events.nfds }
      | _ => none
  | .select ready =>
      match m.phase with
      | .asleep _ _ _ _ => some { m with phase := .selected ready }
      | _ => none
  | .selectError eintr =>
      match m.phase with
      | .asleep _ _ _ _ => some { m with phase := if eintr then .top else .killed }
      | _ => none
  | .timeouts now =>
      match m.phase with
      | .selected ready => (processTimeouts fuel now m.events).map fun s =>
          { m with events := s, phase := .expired ready }
      | _ => none
  | .readies =>
      match m.phase with
      | .expired ready => do
          let s ← processReadReadies (bitsOf ready) ready.card m.events
          let l ← s.mem .pendingList
          let ev ← l.next
          some { m with events := s, phase := .firing ev }
      | _ => none
  | .fire =>
      match m.phase with
      | .firing ev =>
          if ev = .pendingList then some { m with phase := .top }
          else (fireHead m.events ev).map fun r =>
            { m with events := r.1
                     phase := if ev = .event wake then .draining r.2 else .calling r.2 }
      | _ => none
  | .callback op =>
      match m.phase with
      | .calling _ => (op.apply fuel m.events).map fun s => { m with events := s }
      | _ => none
  | .drain =>
      match m.phase with
      | .draining next =>
          -- the pipe does not block: a read of the empty pipe ends the loop
          if m.pipe = 0 then some { m with phase := .firing next }
          else some { m with pipe := m.pipe - min wakeupBuff m.pipe }
      | _ => none
  | .finish =>
      match m.phase with
      | .calling next => some { m with phase := .firing next }
      | _ => none

/-- What `select` may return: of the descriptors it was given, those below `n` that are
ready.  The pipe is ready while it holds a byte.  Only a timeout returns none. -/
structure Selects (wakeFd : Int) (pipe : Nat) (rfds : Int → Bool) (wait : Option Timeval)
    (n : Int) (ready : Finset Int) : Prop where
  given : ∀ fd ∈ ready, rfds fd = true ∧ fd < n
  pipe : wakeFd ∈ ready ↔ rfds wakeFd = true ∧ wakeFd < n ∧ 0 < pipe
  timeout : ready = ∅ → wait.isSome

/-- What another thread may do: set, add and arm events of its own, never with the
descriptor of the pipe.  Events are deleted and freed by the loop's thread. -/
def ApiOp.FromClient (wake : ι) (wakeFd : Int) (s : State ι) (op : ApiOp ι) : Prop :=
  op.Permitted s ∧ op.event ≠ wake ∧
    match op with
    | .add ev => s.fdOf ev ≠ some wakeFd
    | .del _ => False
    | .free _ => False
    | _ => True

/-- The steps that can be taken.  The wakeup event needs a free slot. -/
def LoopOp.Legal (wake : ι) (wakeFd : Int) (m : Loop ι) : LoopOp ι → Prop
  | .client op => op.FromClient wake wakeFd m.events
  | .trigger => 0 < m.owed
  | .openPipe => m.phase = .starting
  | .setWakeup => m.phase = .piped
  | .addWakeup => m.phase = .wakeupSet ∧ ∃ i, m.events.watchTable i = none
  | .copyFds => m.phase = .top
  | .nextTimeout now => (∃ rfds, m.phase = .copied rfds) ∧ now.Normal
  | .sleep => ∃ rfds now wait, m.phase = .timed rfds now wait
  | .select ready => ∃ rfds now wait n, m.phase = .asleep rfds now wait n ∧
      Selects wakeFd m.pipe rfds wait n ready
  | .selectError _ => ∃ rfds now wait n, m.phase = .asleep rfds now wait n
  | .timeouts now => (∃ ready, m.phase = .selected ready) ∧ now.Normal
  | .readies => ∃ ready, m.phase = .expired ready
  | .fire => ∃ ev, m.phase = .firing ev
  | .callback op => (∃ next, m.phase = .calling next) ∧ op.Permitted m.events ∧
      op.event ≠ wake
  | .drain => ∃ next, m.phase = .draining next
  | .finish => ∃ next, m.phase = .calling next

/-- Behind `ril_event_init`, with no live event. -/
def Loop.start : Loop ι :=
  ⟨rilEventInit State.blank, .starting, 0, 0⟩

/-! ## The invariant -/

section Invariant

variable (wake : ι) (wakeFd : Int)

/-- The pipe is not watched yet. -/
structure Unregistered (s : State ι) (tl pl : List ι) : Prop where
  unwatched : ¬ s.Watched wake
  noBit : s.readFds wakeFd = false
  unlisted : wake ∉ tl
  idle : pl = []

/-- The pipe is watched, by an event that stays in the table. -/
structure Registered (s : State ι) : Prop where
  watched : s.Watched wake
  fd : s.fdOf wake = some wakeFd
  persist : s.persistOf wake = some true

/-- The copy of `readFds` has the pipe, and lacks a bit only while a byte is coming. -/
structure Covers (s : State ι) (coming : Nat) (rfds : Int → Bool) : Prop where
  wakeup : rfds wakeFd = true
  sub : ∀ fd, rfds fd = true → s.readFds fd = true
  all : coming = 0 → ∀ fd, s.readFds fd = true → rfds fd = true

/-- The wait is that of the present timers, unless a byte is coming. -/
def WaitsFor (s : State ι) (coming : Nat) (now : Timeval) (wait : Option Timeval) : Prop :=
  coming = 0 → calcNextTimeout now s = some wait

/-- What holds in each phase. -/
def Stage (s : State ι) (coming : Nat) (tl pl : List ι) : Phase ι → Prop
  | .starting => Unregistered wake wakeFd s tl pl
  | .piped => Unregistered wake wakeFd s tl pl
  | .wakeupSet => Unregistered wake wakeFd s tl pl ∧
      s.fdOf wake = some wakeFd ∧ s.persistOf wake = some true
  | .top => Registered wake wakeFd s ∧ pl = []
  | .copied rfds => Registered wake wakeFd s ∧ pl = [] ∧ Covers wakeFd s coming rfds
  | .timed rfds now wait => Registered wake wakeFd s ∧ pl = [] ∧
      Covers wakeFd s coming rfds ∧ now.Normal ∧ WaitsFor s coming now wait
  | .asleep rfds now wait n => Registered wake wakeFd s ∧ pl = [] ∧
      Covers wakeFd s coming rfds ∧ now.Normal ∧ WaitsFor s coming now wait ∧
      ∀ fd, rfds fd = true → fd < n
  | .selected ready => Registered wake wakeFd s ∧ pl = [] ∧
      ∀ fd ∈ ready, s.readFds fd = true
  | .expired ready => Registered wake wakeFd s ∧
      (∀ e ∈ pl, s.fdOf e = some (-1)) ∧ ∀ fd ∈ ready, s.readFds fd = true
  | .firing ev => Registered wake wakeFd s ∧ ev = firstNode .pendingList pl
  | .calling next => Registered wake wakeFd s ∧ next = firstNode .pendingList pl
  | .draining next => Registered wake wakeFd s ∧ next = firstNode .pendingList pl
  | .killed => True

structure LoopSound (m : Loop ι) (tl pl : List ι) : Prop where
  events : EventsInv m.events tl pl
  fdValid : 0 ≤ wakeFd
  stage : Stage wake wakeFd m.events (m.pipe + m.owed) tl pl m.phase

end Invariant

section Steps

variable {wake : ι} {wakeFd : Int} {m : Loop ι} {tl pl : List ι} {fuel : Nat}

omit [DecidableEq ι] in
theorem Registered.touch {s s' : State ι} {e : ι} (h : Registered wake wakeFd s)
    (htouch : OnlyTouches s s' e) (hne : e ≠ wake) : Registered wake wakeFd s' where
  watched := (htouch.watched wake hne.symm).mpr h.watched
  fd := by rw [htouch.fdOf hne.symm, h.fd]
  persist := by rw [htouch.persistOf hne.symm, h.persist]

omit [DecidableEq ι] in
theorem Registered.congr {s s' : State ι} (h : Registered wake wakeFd s)
    (hdata : s'.data = s.data) (htable : s'.watchTable = s.watchTable) :
    Registered wake wakeFd s' where
  watched := by
    rw [State.Watched, htable]
    exact h.watched
  fd := by rw [State.fdOf, hdata]; exact h.fd
  persist := by rw [State.persistOf, hdata]; exact h.persist

omit [DecidableEq ι] in
/-- The bit of the pipe is set. -/
theorem Registered.bit {s : State ι} (h : Registered wake wakeFd s) (hwatch : WatchInv s) :
    s.readFds wakeFd = true := by
  obtain ⟨i, hi⟩ := h.watched
  obtain ⟨d, hd, -, -, hbit, -⟩ := hwatch.slot i wake hi
  have hfd : d.fd = wakeFd := by simpa [State.fdOf, hd] using h.fd
  rw [← hfd]
  exact hbit

/-- What the call of another thread does to the state. -/
structure ClientCall (s s' : State ι) (tl tl' pl : List ι) (op : ApiOp ι) : Prop where
  inv : EventsInv s' tl' pl
  length : tl'.length ≤ tl.length + 1
  touch : OnlyTouches s s' op.event
  /-- A bit is only added, and only that of the event. -/
  grows : ∀ fd, s.readFds fd = true → s'.readFds fd = true
  fresh : ∀ fd, s'.readFds fd = true → s.readFds fd = true ∨
    ∃ ev, op = .add ev ∧ s.fdOf ev = some fd
  /-- A call that is not followed by a byte changes neither bits nor timers. -/
  still : op.owes = 0 → s'.readFds = s.readFds ∧ tl' = tl ∧
    ∀ e ∈ tl, s'.timeout e = s.timeout e
  timers : ∀ e, e ∈ tl' → e ∈ tl ∨ e = op.event
  /-- The timers that are pending have no descriptor, and keep none. -/
  pending : ∀ e ∈ pl, s.fdOf e = some (-1) → s'.fdOf e = some (-1)

theorem ApiOp.FromClient.call {s : State ι} {op : ApiOp ι} (h : EventsInv s tl pl)
    (hop : op.FromClient wake wakeFd s) (hfuel : tl.length < fuel) :
    ∃ s' tl', op.apply fuel s = some s' ∧ ClientCall s s' tl tl' pl op := by
  obtain ⟨hperm, -, hkind⟩ := hop
  cases op with
  | set ev fd persist func param =>
      obtain ⟨htl, hpl⟩ := Unlisted.not_mem hperm.2 h.timers.rings
      obtain ⟨hinv, htouch⟩ := h.set hperm.1 htl hpl fd persist func param
      refine ⟨_, tl, rfl, hinv, by omega, htouch, fun _ hfd => hfd, fun _ hfd => Or.inl hfd,
        ?_, fun _ he => Or.inl he, ?_⟩
      · intro _
        refine ⟨rfl, rfl, ?_⟩
        intro e he
        exact htouch.timeout (fun heq => htl (heq ▸ he))
      · intro e he hfd
        rw [htouch.fdOf (fun heq => hpl (heq ▸ he)), hfd]
  | add ev =>
      obtain ⟨s', hrun, hinv, htouch, hsame, hbits, -⟩ := h.add (e := ev) hperm
      refine ⟨s', tl, hrun, hinv, by omega, htouch, ?_, ?_, ?_, fun _ he => Or.inl he,
        fun _ _ hfd => hsame.fdOf_eq hfd⟩
      · intro fd hfd
        exact (hbits fd).mpr (Or.inl hfd)
      · intro fd hfd
        rcases (hbits fd).mp hfd with hold | ⟨-, hev⟩
        · exact Or.inl hold
        · exact Or.inr ⟨ev, rfl, hev⟩
      · intro howes
        cases howes
  | del ev => exact hkind.elim
  | timerAdd ev tv now =>
      obtain ⟨hlive, hnew, hout, htv, hnow⟩ := hperm
      obtain ⟨s', tl', hrun, hinv, hlen, htouch, hbits, htl⟩ :=
        h.timerAdd hlive hnew hout htv hnow hfuel
      refine ⟨s', tl', hrun, hinv, by omega, htouch, ?_, ?_, ?_, htl, ?_⟩
      · intro fd hfd
        rw [hbits]
        exact hfd
      · intro fd hfd
        rw [hbits] at hfd
        exact Or.inl hfd
      · intro howes
        cases howes
      · intro e he hfd
        have hpl := (hout.not_mem h.timers.rings).2
        rw [htouch.fdOf (fun heq => hpl (heq ▸ he)), hfd]
  | free ev => exact hkind.elim

omit [DecidableEq ι] in
theorem Unregistered.client {s s' : State ι} {tl' : List ι} {op : ApiOp ι}
    (h : Unregistered wake wakeFd s tl pl) (hop : op.FromClient wake wakeFd s)
    (hcall : ClientCall s s' tl tl' pl op) : Unregistered wake wakeFd s' tl' pl where
  unwatched := by
    rw [hcall.touch.watched wake hop.2.1.symm]
    exact h.unwatched
  noBit := by
    cases hbit : s'.readFds wakeFd with
    | false => rfl
    | true =>
        rcases hcall.fresh wakeFd hbit with hold | ⟨ev, rfl, hfd⟩
        · rw [h.noBit] at hold
          cases hold
        · exact absurd hfd hop.2.2
  unlisted := by
    intro hmem
    rcases hcall.timers wake hmem with hold | heq
    · exact h.unlisted hold
    · exact hop.2.1 heq.symm
  idle := h.idle

omit [DecidableEq ι] in
theorem Covers.client {s s' : State ι} {coming : Nat} {tl' : List ι} {op : ApiOp ι}
    {rfds : Int → Bool} (h : Covers wakeFd s coming rfds)
    (hcall : ClientCall s s' tl tl' pl op) : Covers wakeFd s' (coming + op.owes) rfds where
  wakeup := h.wakeup
  sub := fun fd hfd => hcall.grows fd (h.sub fd hfd)
  all := by
    intro hnone fd hfd
    have hsame := (hcall.still (by omega)).1
    exact h.all (by omega) fd (hsame ▸ hfd)

/-- The wait depends on the first deadline only. -/
theorem WaitsFor.client {s s' : State ι} {coming : Nat} {tl' : List ι} {op : ApiOp ι}
    {now : Timeval} {wait : Option Timeval} (h : WaitsFor s coming now wait)
    (hnow : now.Normal) (hinv : EventsInv s tl pl) (hcall : ClientCall s s' tl tl' pl op) :
    WaitsFor s' (coming + op.owes) now wait := by
  intro hnone
  obtain ⟨-, rfl, htime⟩ := hcall.still (by omega)
  have hold := h (by omega)
  rw [calcNextTimeout_eq hinv.timers.rings hinv.timers.normal hnow] at hold
  rw [calcNextTimeout_eq hcall.inv.timers.rings hcall.inv.timers.normal hnow, ← hold]
  cases tl' with
  | nil => rfl
  | cons e tl => simp [htime e List.mem_cons_self]

/-- A call of another thread. -/
theorem LoopSound.client {op : ApiOp ι} (h : LoopSound wake wakeFd m tl pl)
    (hop : op.FromClient wake wakeFd m.events) (hfuel : tl.length < fuel) :
    ∃ m' tl', loopStep fuel wake wakeFd m (.client op) = some m' ∧
      LoopSound wake wakeFd m' tl' pl ∧ tl'.length ≤ tl.length + 1 := by
  obtain ⟨s', tl', hrun, hcall⟩ := hop.call h.events hfuel
  refine ⟨{ m with events := s', owed := m.owed + op.owes }, tl', by simp [loopStep, hrun],
    ⟨hcall.inv, h.fdValid, ?_⟩, hcall.length⟩
  have hreg : Registered wake wakeFd m.events → Registered wake wakeFd s' :=
    fun hreg => hreg.touch hcall.touch hop.2.1
  have hstage := h.stage
  show Stage wake wakeFd s' (m.pipe + (m.owed + op.owes)) tl' pl m.phase
  rw [← Nat.add_assoc]
  cases hphase : m.phase with
  | starting =>
      rw [hphase] at hstage
      exact hstage.client hop hcall
  | piped =>
      rw [hphase] at hstage
      exact hstage.client hop hcall
  | wakeupSet =>
      rw [hphase] at hstage
      obtain ⟨hunreg, hfd, hper⟩ := hstage
      exact ⟨hunreg.client hop hcall, by rw [hcall.touch.fdOf hop.2.1.symm, hfd],
        by rw [hcall.touch.persistOf hop.2.1.symm, hper]⟩
  | top =>
      rw [hphase] at hstage
      exact ⟨hreg hstage.1, hstage.2⟩
  | copied rfds =>
      rw [hphase] at hstage
      exact ⟨hreg hstage.1, hstage.2.1, hstage.2.2.client hcall⟩
  | timed rfds now wait =>
      rw [hphase] at hstage
      obtain ⟨hr, hpl, hcov, hnow, hwait⟩ := hstage
      exact ⟨hreg hr, hpl, hcov.client hcall, hnow, hwait.client hnow h.events hcall⟩
  | asleep rfds now wait n =>
      rw [hphase] at hstage
      obtain ⟨hr, hpl, hcov, hnow, hwait, hlt⟩ := hstage
      exact ⟨hreg hr, hpl, hcov.client hcall, hnow, hwait.client hnow h.events hcall, hlt⟩
  | selected ready =>
      rw [hphase] at hstage
      obtain ⟨hr, hpl, hready⟩ := hstage
      exact ⟨hreg hr, hpl, fun fd hfd => hcall.grows fd (hready fd hfd)⟩
  | expired ready =>
      rw [hphase] at hstage
      obtain ⟨hr, hpl, hready⟩ := hstage
      exact ⟨hreg hr, fun e he => hcall.pending e he (hpl e he),
        fun fd hfd => hcall.grows fd (hready fd hfd)⟩
  | firing ev =>
      rw [hphase] at hstage
      exact ⟨hreg hstage.1, hstage.2⟩
  | calling next =>
      rw [hphase] at hstage
      exact ⟨hreg hstage.1, hstage.2⟩
  | draining next =>
      rw [hphase] at hstage
      exact ⟨hreg hstage.1, hstage.2⟩
  | killed => trivial

/-- A byte written to the pipe was on its way before. -/
theorem LoopSound.trigger (h : LoopSound wake wakeFd m tl pl) (howed : 0 < m.owed) :
    ∃ m', loopStep fuel wake wakeFd m .trigger = some m' ∧
      LoopSound wake wakeFd m' tl pl := by
  have hne : m.owed ≠ 0 := by omega
  cases hphase : m.phase with
  | starting =>
      refine ⟨{ m with owed := m.owed - 1 }, by simp [loopStep, hne, hphase], h.events,
        h.fdValid, ?_⟩
      have hstage := h.stage
      simp only [hphase] at hstage ⊢
      exact hstage
  | _ =>
      refine ⟨{ m with owed := m.owed - 1, pipe := m.pipe + 1 },
        by simp [loopStep, hne, hphase], h.events, h.fdValid, ?_⟩
      have hsum : m.pipe + 1 + (m.owed - 1) = m.pipe + m.owed := by omega
      show Stage wake wakeFd m.events (m.pipe + 1 + (m.owed - 1)) tl pl m.phase
      rw [hsum]
      exact h.stage

/-- `pipe`, and the wakeup event is set and added. -/
theorem LoopSound.setWakeup (h : LoopSound wake wakeFd m tl pl) (hphase : m.phase = .piped) :
    ∃ m', loopStep fuel wake wakeFd m .setWakeup = some m' ∧
      LoopSound wake wakeFd m' tl pl := by
  have hstage := h.stage
  rw [hphase] at hstage
  obtain ⟨hnew, hbit, htl, rfl⟩ := hstage
  obtain ⟨hinv, -⟩ := h.events.set hnew htl (by simp) wakeFd true processWakeupCallback 0
  obtain ⟨hfd, hper⟩ := rilEventSet_fdOf (s := m.events) (e := wake) wakeFd true
    processWakeupCallback 0
  exact ⟨{ m with
      events := rilEventSet wake wakeFd true processWakeupCallback 0 m.events
      phase := .wakeupSet }, by simp [loopStep, hphase], hinv, h.fdValid,
    ⟨hnew, hbit, htl, rfl⟩, hfd, hper⟩

theorem LoopSound.addWakeup (h : LoopSound wake wakeFd m tl pl)
    (hphase : m.phase = .wakeupSet) (hfree : ∃ i, m.events.watchTable i = none) :
    ∃ m', loopStep fuel wake wakeFd m .addWakeup = some m' ∧
      LoopSound wake wakeFd m' tl pl := by
  have hstage := h.stage
  rw [hphase] at hstage
  obtain ⟨⟨hnew, hbit, -, hidle⟩, hfd, hper⟩ := hstage
  -- a watched event with the descriptor of the pipe would have set its bit
  have hfresh : ∀ a, m.events.Watched a → m.events.fdOf a ≠ some wakeFd := by
    rintro a ⟨i, hi⟩ hafd
    obtain ⟨d, hd, -, -, hdbit, -⟩ := h.events.watch.slot i a hi
    have hdfd : d.fd = wakeFd := by simpa [State.fdOf, hd] using hafd
    rw [hdfd, hbit] at hdbit
    cases hdbit
  obtain ⟨s', hrun, hinv, -, hsame, -, hwatched⟩ :=
    h.events.add ⟨wakeFd, hfd, h.fdValid, hnew, hfresh⟩
  exact ⟨{ m with events := s', phase := .top }, by simp [loopStep, hphase, hrun], hinv,
    h.fdValid, ⟨hwatched hfree, hsame.fdOf_eq hfd, hsame.persistOf_eq hper⟩, hidle⟩

/-- The copy has every bit there is. -/
theorem LoopSound.copyFds (h : LoopSound wake wakeFd m tl pl) (hphase : m.phase = .top) :
    ∃ m', loopStep fuel wake wakeFd m .copyFds = some m' ∧
      LoopSound wake wakeFd m' tl pl := by
  have hstage := h.stage
  rw [hphase] at hstage
  exact ⟨{ m with phase := .copied m.events.readFds }, by simp [loopStep, hphase], h.events,
    h.fdValid, hstage.1, hstage.2, hstage.1.bit h.events.watch, fun _ hfd => hfd,
    fun _ _ hfd => hfd⟩

theorem LoopSound.nextTimeout {rfds : Int → Bool} {now : Timeval}
    (h : LoopSound wake wakeFd m tl pl) (hphase : m.phase = .copied rfds)
    (hnow : now.Normal) :
    ∃ m', loopStep fuel wake wakeFd m (.nextTimeout now) = some m' ∧
      LoopSound wake wakeFd m' tl pl := by
  have hstage := h.stage
  rw [hphase] at hstage
  obtain ⟨hreg, hidle, hcov⟩ := hstage
  have hwait := calcNextTimeout_eq h.events.timers.rings h.events.timers.normal hnow
  exact ⟨{ m with phase := .timed rfds now _ }, by simp [loopStep, hphase, hwait],
    h.events, h.fdValid, hreg, hidle, hcov, hnow, fun _ => hwait⟩

/-- Every bit of the copy lies below the `nfds` that `select` is given. -/
theorem LoopSound.sleep {rfds : Int → Bool} {now : Timeval} {wait : Option Timeval}
    (h : LoopSound wake wakeFd m tl pl) (hphase : m.phase = .timed rfds now wait) :
    ∃ m', loopStep fuel wake wakeFd m .sleep = some m' ∧ LoopSound wake wakeFd m' tl pl := by
  have hstage := h.stage
  rw [hphase] at hstage
  obtain ⟨hreg, hidle, hcov, hnow, hwait⟩ := hstage
  exact ⟨{ m with phase := .asleep rfds now wait m.events.nfds },
    by simp [loopStep, hphase], h.events, h.fdValid, hreg, hidle, hcov, hnow, hwait,
    fun fd hfd => h.events.bit_lt (hcov.sub fd hfd)⟩

/-- What `select` returns was in the copy, and nothing was taken out of `readFds` since. -/
theorem LoopSound.select {rfds : Int → Bool} {now : Timeval} {wait : Option Timeval} {n : Int}
    {ready : Finset Int} (h : LoopSound wake wakeFd m tl pl)
    (hphase : m.phase = .asleep rfds now wait n)
    (hsel : Selects wakeFd m.pipe rfds wait n ready) :
    ∃ m', loopStep fuel wake wakeFd m (.select ready) = some m' ∧
      LoopSound wake wakeFd m' tl pl := by
  have hstage := h.stage
  rw [hphase] at hstage
  obtain ⟨hreg, hidle, hcov, -⟩ := hstage
  exact ⟨{ m with phase := .selected ready }, by simp [loopStep, hphase], h.events,
    h.fdValid, hreg, hidle, fun fd hfd => hcov.sub fd (hsel.given fd hfd).1⟩

theorem LoopSound.selectError {rfds : Int → Bool} {now : Timeval} {wait : Option Timeval}
    {n : Int} {eintr : Bool} (h : LoopSound wake wakeFd m tl pl)
    (hphase : m.phase = .asleep rfds now wait n) :
    ∃ m', loopStep fuel wake wakeFd m (.selectError eintr) = some m' ∧
      LoopSound wake wakeFd m' tl pl := by
  have hstage := h.stage
  rw [hphase] at hstage
  refine ⟨{ m with phase := if eintr then .top else .killed }, by simp [loopStep, hphase],
    h.events, h.fdValid, ?_⟩
  cases eintr with
  | true => exact ⟨hstage.1, hstage.2.1⟩
  | false => trivial

/-- The expired timers become pending; they have no descriptor. -/
theorem LoopSound.timeouts {ready : Finset Int} {now : Timeval}
    (h : LoopSound wake wakeFd m tl pl) (hphase : m.phase = .selected ready)
    (hnow : now.Normal) (hfuel : tl.length < fuel) :
    ∃ m' tl' pl', loopStep fuel wake wakeFd m (.timeouts now) = some m' ∧
      LoopSound wake wakeFd m' tl' pl' ∧ tl'.length ≤ tl.length + 1 := by
  have hstage := h.stage
  rw [hphase] at hstage
  obtain ⟨hreg, rfl, hready⟩ := hstage
  obtain ⟨s', hrun, hinv, hdata, htable, hbits⟩ := h.events.timeouts hnow hfuel
  refine ⟨{ m with events := s', phase := .expired ready }, _, _,
    by simp [loopStep, hphase, hrun], ⟨hinv, h.fdValid, hreg.congr hdata htable, ?_, ?_⟩, ?_⟩
  · intro e he
    have hmem : e ∈ tl := (List.mem_filter.mp he).1
    show s'.fdOf e = some (-1)
    rw [State.fdOf, hdata]
    exact h.events.timers.noFd e hmem
  · intro fd hfd
    show s'.readFds fd = true
    rw [hbits]
    exact hready fd hfd
  · have hle : (m.events.unexpired now tl).length ≤ tl.length := List.length_filter_le _ _
    omega

/-- The wakeup event is persistent, so that it is still watched. -/
theorem LoopSound.readies {ready : Finset Int} (h : LoopSound wake wakeFd m tl pl)
    (hphase : m.phase = .expired ready) :
    ∃ m' pl', loopStep fuel wake wakeFd m .readies = some m' ∧
      LoopSound wake wakeFd m' tl pl' := by
  have hstage := h.stage
  rw [hphase] at hstage
  obtain ⟨hreg, hpl, hready⟩ := hstage
  have hout : ∀ e ∈ pl, ¬ m.events.Watched e := by
    rintro e he ⟨i, hi⟩
    obtain ⟨d, hd, -, hpos, -⟩ := h.events.watch.slot i e hi
    have hneg : d.fd = -1 := by simpa [State.fdOf, hd] using hpl e he
    omega
  obtain ⟨s', hrun, hinv, hsame, hwatched⟩ := h.events.readies hout hready
  obtain ⟨l, hl⟩ := Option.isSome_iff_exists.mp
    (ring_live hinv.timers.rings.pending List.mem_cons_self)
  have hnext := ring_next_head hinv.timers.rings.pending
  rw [next_of_mem hl] at hnext
  refine ⟨{ m with events := s', phase := .firing _ }, _,
    by simp [loopStep, hphase, hrun, hl, hnext], hinv, h.fdValid, ⟨?_, ?_, ?_⟩, rfl⟩
  · refine (hwatched wake).mpr ⟨hreg.watched, ?_⟩
    rintro ⟨-, hfalse⟩
    rw [hreg.persist] at hfalse
    cases hfalse
  · exact hsame.fdOf_eq hreg.fd
  · exact hsame.persistOf_eq hreg.persist

/-- One turn of `firePending`: it leaves the loop or begins a callback. -/
theorem LoopSound.fire {ev : Node ι} (h : LoopSound wake wakeFd m tl pl)
    (hphase : m.phase = .firing ev) :
    ∃ m' pl', loopStep fuel wake wakeFd m .fire = some m' ∧
      LoopSound wake wakeFd m' tl pl' := by
  have hstage := h.stage
  rw [hphase] at hstage
  obtain ⟨hreg, rfl⟩ := hstage
  cases pl with
  | nil =>
      exact ⟨{ m with phase := .top }, [], by simp [loopStep, hphase, firstNode], h.events,
        h.fdValid, hreg, rfl⟩
  | cons e pl =>
      obtain ⟨s', hrun, hinv, hdata, htable⟩ := h.events.fire
      have hreg' := hreg.congr hdata htable
      by_cases hwake : e = wake
      · subst hwake
        refine ⟨{ m with events := s', phase := .draining (firstNode .pendingList pl) }, pl,
          ?_, hinv, h.fdValid, hreg', rfl⟩
        simp [loopStep, hphase, firstNode, hrun]
      · refine ⟨{ m with events := s', phase := .calling (firstNode .pendingList pl) }, pl,
          ?_, hinv, h.fdValid, hreg', rfl⟩
        simp [loopStep, hphase, firstNode, hrun, hwake]

/-- A call of the event layer inside a callback. -/
theorem LoopSound.callback {next : Node ι} {op : ApiOp ι} (h : LoopSound wake wakeFd m tl pl)
    (hphase : m.phase = .calling next) (hop : op.Permitted m.events)
    (hne : op.event ≠ wake) (hfuel : tl.length < fuel) :
    ∃ m' tl', loopStep fuel wake wakeFd m (.callback op) = some m' ∧
      LoopSound wake wakeFd m' tl' pl ∧ tl'.length ≤ tl.length + 1 := by
  have hstage := h.stage
  rw [hphase] at hstage
  obtain ⟨s', tl', hrun, hinv, hlen, htouch⟩ := h.events.apply hop hfuel
  refine ⟨{ m with events := s' }, tl', by simp [loopStep, hphase, hrun],
    ⟨hinv, h.fdValid, ?_⟩, hlen⟩
  simp only [hphase]
  exact ⟨hstage.1.touch htouch hne, hstage.2⟩

/-- The bytes are read while nothing depends on them: before it sleeps again, the loop
copies `readFds` anew. -/
theorem LoopSound.drain {next : Node ι} (h : LoopSound wake wakeFd m tl pl)
    (hphase : m.phase = .draining next) :
    ∃ m', loopStep fuel wake wakeFd m .drain = some m' ∧ LoopSound wake wakeFd m' tl pl := by
  have hstage := h.stage
  rw [hphase] at hstage
  by_cases hempty : m.pipe = 0
  · exact ⟨{ m with phase := .firing next }, by simp [loopStep, hphase, hempty], h.events,
      h.fdValid, hstage⟩
  · refine ⟨{ m with pipe := m.pipe - min wakeupBuff m.pipe },
      by simp [loopStep, hphase, hempty], h.events, h.fdValid, ?_⟩
    simp only [hphase]
    exact hstage

theorem LoopSound.openPipe (h : LoopSound wake wakeFd m tl pl)
    (hphase : m.phase = .starting) :
    ∃ m', loopStep fuel wake wakeFd m .openPipe = some m' ∧
      LoopSound wake wakeFd m' tl pl := by
  have hstage := h.stage
  rw [hphase] at hstage
  exact ⟨{ m with phase := .piped }, by simp [loopStep, hphase], h.events, h.fdValid, hstage⟩

theorem LoopSound.finish {next : Node ι} (h : LoopSound wake wakeFd m tl pl)
    (hphase : m.phase = .calling next) :
    ∃ m', loopStep fuel wake wakeFd m .finish = some m' ∧
      LoopSound wake wakeFd m' tl pl := by
  have hstage := h.stage
  rw [hphase] at hstage
  exact ⟨{ m with phase := .firing next }, by simp [loopStep, hphase], h.events, h.fdValid,
    hstage⟩

/-- **The step lemma.**  A legal step has a result as soon as the fuel exceeds the number
of timers, and keeps the invariant. -/
theorem loopStep_keeps {op : LoopOp ι} (h : LoopSound wake wakeFd m tl pl)
    (hlegal : op.Legal wake wakeFd m) (hfuel : tl.length < fuel) :
    ∃ m' tl' pl', loopStep fuel wake wakeFd m op = some m' ∧
      LoopSound wake wakeFd m' tl' pl' ∧ tl'.length ≤ tl.length + 1 := by
  -- most steps leave the lists alone
  have hsame : (∃ m' pl', loopStep fuel wake wakeFd m op = some m' ∧
        LoopSound wake wakeFd m' tl pl') →
      ∃ m' tl' pl', loopStep fuel wake wakeFd m op = some m' ∧
        LoopSound wake wakeFd m' tl' pl' ∧ tl'.length ≤ tl.length + 1 := by
    rintro ⟨m', pl', hrun, hm'⟩
    exact ⟨m', tl, pl', hrun, hm', by omega⟩
  have hboth : (∃ m', loopStep fuel wake wakeFd m op = some m' ∧
        LoopSound wake wakeFd m' tl pl) →
      ∃ m' tl' pl', loopStep fuel wake wakeFd m op = some m' ∧
        LoopSound wake wakeFd m' tl' pl' ∧ tl'.length ≤ tl.length + 1 := by
    rintro ⟨m', hrun, hm'⟩
    exact hsame ⟨m', pl, hrun, hm'⟩
  cases op with
  | client op =>
      obtain ⟨m', tl', hrun, hm', hlen⟩ := h.client hlegal hfuel
      exact ⟨m', tl', pl, hrun, hm', hlen⟩
  | trigger => exact hboth (h.trigger hlegal)
  | openPipe => exact hboth (h.openPipe hlegal)
  | setWakeup => exact hboth (h.setWakeup hlegal)
  | addWakeup => exact hboth (h.addWakeup hlegal.1 hlegal.2)
  | copyFds => exact hboth (h.copyFds hlegal)
  | nextTimeout now =>
      obtain ⟨⟨rfds, hphase⟩, hnow⟩ := hlegal
      exact hboth (h.nextTimeout hphase hnow)
  | sleep =>
      obtain ⟨rfds, now, wait, hphase⟩ := hlegal
      exact hboth (h.sleep hphase)
  | select ready =>
      obtain ⟨rfds, now, wait, n, hphase, hsel⟩ := hlegal
      exact hboth (h.select hphase hsel)
  | selectError eintr =>
      obtain ⟨rfds, now, wait, n, hphase⟩ := hlegal
      exact hboth (h.selectError hphase)
  | timeouts now =>
      obtain ⟨⟨ready, hphase⟩, hnow⟩ := hlegal
      exact h.timeouts hphase hnow hfuel
  | readies =>
      obtain ⟨ready, hphase⟩ := hlegal
      exact hsame (h.readies hphase)
  | fire =>
      obtain ⟨ev, hphase⟩ := hlegal
      exact hsame (h.fire hphase)
  | callback op =>
      obtain ⟨⟨next, hphase⟩, hop, hne⟩ := hlegal
      obtain ⟨m', tl', hrun, hm', hlen⟩ := h.callback hphase hop hne hfuel
      exact ⟨m', tl', pl, hrun, hm', hlen⟩
  | drain =>
      obtain ⟨next, hphase⟩ := hlegal
      exact hboth (h.drain hphase)
  | finish =>
      obtain ⟨next, hphase⟩ := hlegal
      exact hboth (h.finish hphase)

end Steps

/-! ## Whole runs -/

theorem start_sound (wake : ι) {wakeFd : Int} (hfd : 0 ≤ wakeFd) :
    LoopSound wake wakeFd Loop.start [] [] where
  events := ⟨blank_watch.1, (start_run State.blank).inv⟩
  fdValid := hfd
  stage := ⟨by simp [Loop.start, rilEventInit, State.Watched], rfl, by simp, rfl⟩

/-- The run lemma: a legal run has a result as soon as the fuel exceeds the number of its
steps. -/
theorem loopRun_keeps {wake : ι} {wakeFd : Int} {fuel : Nat} {ops : List (LoopOp ι)}
    {m : Loop ι} {tl pl : List ι} (h : LoopSound wake wakeFd m tl pl)
    (hlegal : Along (loopStep fuel wake wakeFd) (LoopOp.Legal wake wakeFd) m ops)
    (hfuel : tl.length + ops.length < fuel) :
    ∃ m' tl' pl', exec (loopStep fuel wake wakeFd) m ops = some m' ∧
      LoopSound wake wakeFd m' tl' pl' := by
  induction ops generalizing m tl pl with
  | nil => exact ⟨m, tl, pl, rfl, h⟩
  | cons op ops ih =>
      rw [List.length_cons] at hfuel
      have hroom : tl.length < fuel := by omega
      obtain ⟨m₁, tl₁, pl₁, hstep, h₁, hlen⟩ := loopStep_keeps h hlegal.1 hroom
      obtain ⟨m', tl', pl', hrun, h'⟩ := ih h₁ (hlegal.2 m₁ hstep) (by omega)
      exact ⟨m', tl', pl', exec_cons_some.mpr ⟨m₁, hstep, hrun⟩, h'⟩

/-- What a sleeping loop can rely on. -/
structure SleepsSoundly (wakeFd : Int) (m : Loop ι) (rfds : Int → Bool) (now : Timeval)
    (wait : Option Timeval) (n : Int) : Prop where
  /-- A byte in the pipe ends the sleep: every result of `select` has the pipe. -/
  wakes : 0 < m.pipe → ∀ ready, Selects wakeFd m.pipe rfds wait n ready → wakeFd ∈ ready
  /-- With no byte in the pipe or on its way, every watched descriptor is waited for. -/
  fds : m.pipe = 0 → m.owed = 0 → ∀ e, m.events.Watched e →
    ∃ fd, m.events.fdOf e = some fd ∧ rfds fd = true ∧ fd < n
  /-- So is every timer: the sleep ends by its deadline, or at once if that has passed. -/
  timers : m.pipe = 0 → m.owed = 0 → ∀ e, InList m.events .timerList e →
    ∃ w, wait = some w ∧
      (now.micros + w.micros ≤ (m.events.timeout e).micros ∨ w = ⟨0, 0⟩)

theorem LoopSound.sleeps {wake : ι} {wakeFd : Int} {m : Loop ι} {tl pl : List ι}
    {rfds : Int → Bool} {now : Timeval} {wait : Option Timeval} {n : Int}
    (h : LoopSound wake wakeFd m tl pl) (hphase : m.phase = .asleep rfds now wait n) :
    SleepsSoundly wakeFd m rfds now wait n := by
  have hstage := h.stage
  rw [hphase] at hstage
  obtain ⟨-, -, hcov, hnow, hwait, hlt⟩ := hstage
  refine ⟨?_, ?_, ?_⟩
  · intro hpipe ready hsel
    exact hsel.pipe.mpr ⟨hcov.wakeup, hlt wakeFd hcov.wakeup, hpipe⟩
  · rintro hpipe howed e ⟨i, hi⟩
    obtain ⟨d, hd, -, -, hbit, -⟩ := h.events.watch.slot i e hi
    have hin := hcov.all (by omega) d.fd hbit
    exact ⟨d.fd, by simp [State.fdOf, hd], hin, hlt _ hin⟩
  · intro hpipe howed e he
    have hcalc := hwait (by omega)
    rw [calcNextTimeout_eq h.events.timers.rings h.events.timers.normal hnow] at hcalc
    rw [inList_iff h.events.timers.rings.timer] at he
    cases tl with
    | nil => cases he
    | cons a tl =>
        have hfirst := head_earliest h.events.timers.sorted he
        refine ⟨waitUntil now (m.events.timeout a), by simpa using hcalc.symm, ?_⟩
        by_cases hlate : now.micros < (m.events.timeout a).micros
        · left
          rw [waitUntil, if_pos hlate, timersub_micros]
          omega
        · right
          rw [waitUntil, if_neg hlate]

/-- **No addition is slept through.**  In every interleaving of the loop with the threads
that add descriptors and timers, from `ril_event_init` on, no step fails, and whenever the
loop sleeps, an addition it does not wait for has its byte in the pipe or on its way, and
a byte in the pipe ends the sleep. -/
theorem no_lost_wakeup (wake : ι) (wakeFd : Int) (hfd : 0 ≤ wakeFd) (fuel : Nat)
    (ops : List (LoopOp ι)) (hfuel : ops.length < fuel)
    (hlegal : Along (loopStep fuel wake wakeFd) (LoopOp.Legal wake wakeFd) Loop.start ops) :
    ∃ m, exec (loopStep fuel wake wakeFd) Loop.start ops = some m ∧
      ∀ rfds now wait n, m.phase = .asleep rfds now wait n →
        SleepsSoundly wakeFd m rfds now wait n := by
  obtain ⟨m, tl, pl, hrun, h⟩ := loopRun_keeps (start_sound wake hfd) hlegal
    (by simpa using hfuel)
  exact ⟨m, hrun, fun rfds now wait n hphase => h.sleeps hphase⟩

/-- Another thread adds a descriptor while the loop is about to sleep without it, and
wakes it. -/
def lateAddition : List (LoopOp Bool) :=
  [.openPipe, .setWakeup, .addWakeup, .copyFds, .client (.set false 5 true 11 0),
   .nextTimeout ⟨1, 0⟩, .client (.add false), .sleep, .trigger]

theorem no_lost_wakeup_lateAddition :
    ∃ m, exec (loopStep 10 true 3) Loop.start lateAddition = some m ∧
      ∀ rfds now wait n, m.phase = .asleep rfds now wait n →
        SleepsSoundly 3 m rfds now wait n := by
  refine no_lost_wakeup true 3 (by decide) 10 lateAddition (by decide)
    ⟨rfl, fun t ht => ?_⟩
  cases ht
  refine ⟨rfl, fun t ht => ?_⟩
  cases ht
  refine ⟨⟨rfl, 0, rfl⟩, fun t ht => ?_⟩
  cases ht
  refine ⟨rfl, fun t ht => ?_⟩
  cases ht
  refine ⟨⟨⟨?_, unlisted_of_next rfl⟩, by decide, trivial⟩, fun t ht => ?_⟩
  · show ¬ State.Watched _ _
    decide
  cases ht
  refine ⟨⟨⟨_, rfl⟩, by decide⟩, fun t ht => ?_⟩
  cases ht
  refine ⟨⟨⟨5, rfl, by decide, by decide, by decide⟩, by decide, ?_⟩, fun t ht => ?_⟩
  · show State.fdOf _ _ ≠ _
    decide
  cases ht
  refine ⟨⟨_, _, _, rfl⟩, fun t ht => ?_⟩
  cases ht
  refine ⟨?_, fun t _ => trivial⟩
  show 0 < 1
  decide

end RilEvent
