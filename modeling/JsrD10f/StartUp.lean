import JsrD10f.WakeUp

/-!
# Starting the event loop

`RIL_startEventLoop` creates the thread of `eventLoop` and sleeps on a condition until
the thread has said that it runs.  The two meet at `s_startupMutex`: it is held by the
caller from before `pthread_create` until it sleeps, so the thread gets past it only
after `s_tid_dispatch` is written, and it is held by the thread while `s_started` is set
and broadcast, so the caller does not miss it.

Here every interleaving of the two is followed, with wake-ups for no reason and a
`pthread_create` that fails, and on into the loop and the calls of other threads.  Those
run when `RIL_startEventLoop` has returned, and always find the lists that
`ril_event_init` has set up.
-/

namespace RilEvent

open Runs

/-- Where `RIL_startEventLoop` stands. -/
inductive StarterPc where
  | entered
  /-- Behind `s_started = 0`, waiting for the mutex. -/
  | locking
  | creating
  /-- In `pthread_create`: the thread is there, but `s_tid_dispatch` is not written. -/
  | spawning
  /-- At the condition of the `while`. -/
  | testing
  | sleeping
  /-- Awake in `pthread_cond_wait`, waiting for the mutex. -/
  | woken
  | unlocking
  | returned
deriving DecidableEq, Repr

/-- Where the thread of `eventLoop` stands. -/
inductive ThreadPc where
  | absent
  | initialising
  | locking
  | setting
  | broadcasting
  | unlocking
  /-- Behind the mutex, from `pipe` on. -/
  | running
deriving DecidableEq, Repr

inductive Party where
  | starter
  | thread
deriving DecidableEq, Repr

/-- The two threads, their mutex, `s_started`, and whether `s_tid_dispatch` is written. -/
structure Handshake where
  starter : StarterPc
  thread : ThreadPc
  owner : Option Party
  started : Bool
  tidDispatch : Bool
deriving DecidableEq, Repr

def Handshake.start : Handshake :=
  ⟨.entered, .absent, none, false, false⟩

/-- A step of the caller, where `created` is the result of `pthread_create`, a step of
the thread, or a wake-up for no reason. -/
inductive HandshakeOp where
  | starter (created : Bool)
  | thread
  | spurious
deriving DecidableEq, Repr

/-- One step; `none` if the thread has to wait, or has nothing to do here any more. -/
def Handshake.step (s : Handshake) : HandshakeOp → Option Handshake
  | .starter created =>
      match s.starter with
      | .entered => some { s with starter := .locking, started := false }
      | .locking =>
          if s.owner = none then some { s with starter := .creating, owner := some .starter }
          else none
      | .creating =>
          if created then some { s with starter := .spawning, thread := .initialising }
          else some { s with starter := .unlocking }
      | .spawning => some { s with starter := .testing, tidDispatch := true }
      | .testing =>
          if s.started then some { s with starter := .unlocking }
          else some { s with starter := .sleeping, owner := none }
      | .sleeping => none
      | .woken =>
          if s.owner = none then some { s with starter := .testing, owner := some .starter }
          else none
      | .unlocking => some { s with starter := .returned, owner := none }
      | .returned => none
  | .thread =>
      match s.thread with
      | .absent => none
      | .initialising => some { s with thread := .locking }
      | .locking =>
          if s.owner = none then some { s with thread := .setting, owner := some .thread }
          else none
      | .setting => some { s with thread := .broadcasting, started := true }
      | .broadcasting =>
          some { s with
            thread := .unlocking
            starter := if s.starter = .sleeping then .woken else s.starter }
      | .unlocking => some { s with thread := .running, owner := none }
      | .running => none
  | .spurious => if s.starter = .sleeping then some { s with starter := .woken } else none

/-! ## The invariant of the two -/

def StarterPc.holdsMutex (pc : StarterPc) : Bool :=
  pc = .creating || pc = .spawning || pc = .testing || pc = .unlocking

def ThreadPc.holdsMutex (pc : ThreadPc) : Bool :=
  pc = .setting || pc = .broadcasting || pc = .unlocking

/-- Before `pthread_create` has made a thread. -/
def StarterPc.early (pc : StarterPc) : Bool :=
  pc = .entered || pc = .locking || pc = .creating

/-- The thread has still to broadcast. -/
def ThreadPc.willBroadcast (pc : ThreadPc) : Bool :=
  pc = .initialising || pc = .locking || pc = .setting || pc = .broadcasting

/-- The thread has had the mutex. -/
def ThreadPc.admitted (pc : ThreadPc) : Bool :=
  pc.holdsMutex || pc = .running

/-- The event layer is set up once the thread is past `ril_event_init`. -/
def ThreadPc.initialised (pc : ThreadPc) : Bool :=
  pc ≠ .absent && pc ≠ .initialising

structure Handshake.Sound (s : Handshake) : Prop where
  starterHolds : s.owner = some .starter ↔ s.starter.holdsMutex
  threadHolds : s.owner = some .thread ↔ s.thread.holdsMutex
  early : s.starter.early → s.thread = .absent
  started : s.started = true ↔ s.thread = .broadcasting ∨ s.thread = .unlocking ∨
    s.thread = .running
  tid : s.tidDispatch = true ↔
    s.thread ≠ .absent ∧ s.starter ≠ .spawning
  admitted : s.thread.admitted → s.tidDispatch = true
  /-- Without a thread the caller sleeps nowhere. -/
  absent : s.thread = .absent → s.starter.early ∨ s.starter = .unlocking ∨
    s.starter = .returned
  /-- The broadcast is still to come for a sleeper. -/
  sleeping : s.starter = .sleeping → s.thread.willBroadcast
  leaving : s.starter = .unlocking ∨ s.starter = .returned → s.thread ≠ .absent →
    s.started = true

theorem Handshake.start_sound : Handshake.start.Sound := by
  constructor <;> decide

section Steps

variable {s s' : Handshake}

attribute [local simp] StarterPc.holdsMutex ThreadPc.holdsMutex StarterPc.early
  ThreadPc.willBroadcast ThreadPc.admitted

/-- The caller.  Until `pthread_create` it is alone, and behind it the mutex keeps the
thread out until the caller sleeps. -/
theorem Handshake.Sound.starter {created : Bool} (h : s.Sound)
    (hstep : s.step (.starter created) = some s') : s'.Sound := by
  obtain ⟨starter, thread, owner, started, tidDispatch⟩ := s
  obtain ⟨hstarter, hthread, hearly, hstarted, htid, hadmit, habsent, hsleep, hleave⟩ := h
  cases starter with
  | entered =>
      obtain rfl : thread = .absent := hearly rfl
      cases hstep
      constructor <;> simp_all
  | locking =>
      obtain rfl : thread = .absent := hearly rfl
      simp only [Handshake.step, Option.ite_none_right_eq_some, Option.some.injEq] at hstep
      obtain ⟨howner, rfl⟩ := hstep
      constructor <;> simp_all
  | creating =>
      obtain rfl : thread = .absent := hearly rfl
      cases created with
      | true =>
          cases hstep
          constructor <;> simp_all
      | false =>
          cases hstep
          constructor <;> simp_all
  | spawning =>
      cases hstep
      constructor <;> cases thread <;> simp_all
  | testing =>
      cases started with
      | true =>
          cases hstep
          constructor <;> cases thread <;> simp_all
      | false =>
          cases hstep
          constructor <;> cases thread <;> simp_all
  | sleeping => cases hstep
  | woken =>
      simp only [Handshake.step, Option.ite_none_right_eq_some, Option.some.injEq] at hstep
      obtain ⟨howner, rfl⟩ := hstep
      constructor <;> cases thread <;> simp_all
  | unlocking =>
      cases hstep
      constructor <;> cases thread <;> simp_all
  | returned => cases hstep

/-- The thread.  It gets the mutex only when the caller does not have it, so behind
`pthread_create`. -/
theorem Handshake.Sound.thread (h : s.Sound) (hstep : s.step .thread = some s') :
    s'.Sound := by
  obtain ⟨starter, thread, owner, started, tidDispatch⟩ := s
  obtain ⟨hstarter, hthread, hearly, hstarted, htid, hadmit, habsent, hsleep, hleave⟩ := h
  cases thread with
  | absent => cases hstep
  | initialising =>
      cases hstep
      constructor <;> simp_all
  | locking =>
      simp only [Handshake.step, Option.ite_none_right_eq_some, Option.some.injEq] at hstep
      obtain ⟨howner, rfl⟩ := hstep
      constructor <;> cases starter <;> simp_all
  | setting =>
      cases hstep
      constructor <;> simp_all
  | broadcasting =>
      cases hstep
      constructor <;> cases starter <;> simp_all
  | unlocking =>
      cases hstep
      constructor <;> cases starter <;> simp_all
  | running => cases hstep

theorem Handshake.Sound.spurious (h : s.Sound) (hstep : s.step .spurious = some s') :
    s'.Sound := by
  simp only [Handshake.step, Option.ite_none_right_eq_some, Option.some.injEq] at hstep
  obtain ⟨hsleeping, rfl⟩ := hstep
  obtain ⟨hstarter, hthread, hearly, hstarted, htid, hadmit, habsent, hsleep, hleave⟩ := h
  constructor <;> simp_all

theorem Handshake.Sound.step {op : HandshakeOp} (h : s.Sound)
    (hstep : s.step op = some s') : s'.Sound := by
  cases op with
  | starter created => exact h.starter hstep
  | thread => exact h.thread hstep
  | spurious => exact h.spurious hstep

/-- While the caller has not returned, one of the two can go on: whoever waits for the
mutex waits for the other, which holds it, and a sleeper waits for the broadcast. -/
theorem Handshake.Sound.progress (h : s.Sound) (hout : s.starter ≠ .returned) :
    (s.step (.starter true)).isSome ∨ (s.step .thread).isSome := by
  obtain ⟨starter, thread, owner, started, tidDispatch⟩ := s
  obtain ⟨hstarter, hthread, hearly, hstarted, htid, hadmit, habsent, hsleep, hleave⟩ := h
  cases starter with
  | entered => exact Or.inl rfl
  | locking =>
      obtain rfl : thread = .absent := hearly rfl
      have howner : owner = none := by
        cases owner with
        | none => rfl
        | some party => cases party <;> simp_all
      left
      simp [Handshake.step, howner]
  | creating => exact Or.inl rfl
  | spawning => exact Or.inl rfl
  | testing => cases started <;> exact Or.inl rfl
  | sleeping =>
      right
      cases owner with
      | none => cases thread <;> simp_all [Handshake.step]
      | some party => cases party <;> cases thread <;> simp_all [Handshake.step]
  | woken =>
      cases owner with
      | none => exact Or.inl rfl
      | some party =>
          right
          cases party <;> cases thread <;> simp_all [Handshake.step]
  | unlocking => exact Or.inl rfl
  | returned => exact absurd rfl hout

/-! ## How long it takes -/

def StarterPc.rank : StarterPc → Nat
  | .entered => 10
  | .locking => 9
  | .creating => 8
  | .spawning => 7
  | .woken => 6
  | .testing => 5
  | .sleeping => 4
  | .unlocking => 3
  | .returned => 0

def ThreadPc.rank : ThreadPc → Nat
  | .absent => 12
  | .initialising => 11
  | .locking => 10
  | .setting => 9
  | .broadcasting => 8
  | .unlocking => 5
  | .running => 4

/-- Falls at every step but a wake-up for no reason: the broadcast costs the thread more
than it gives back to the sleeper. -/
def Handshake.rank (s : Handshake) : Nat :=
  s.starter.rank + s.thread.rank

def HandshakeOp.isSpurious : HandshakeOp → Bool
  | .spurious => true
  | _ => false

/-- The caller gets on, and leaves the thread alone unless it creates it. -/
theorem Handshake.starter_moves {created : Bool}
    (hstep : s.step (.starter created) = some s') :
    (s'.starter.rank < s.starter.rank ∧ s'.thread = s.thread) ∨
      (s.starter = .creating ∧ s'.starter = .spawning ∧ s'.thread = .initialising) := by
  obtain ⟨starter, thread, owner, started, tidDispatch⟩ := s
  cases starter with
  | entered | spawning | unlocking =>
      cases hstep
      exact Or.inl ⟨by simp [StarterPc.rank], rfl⟩
  | locking | woken =>
      simp only [Handshake.step, Option.ite_none_right_eq_some, Option.some.injEq] at hstep
      obtain ⟨-, rfl⟩ := hstep
      exact Or.inl ⟨by simp [StarterPc.rank], rfl⟩
  | creating =>
      cases created with
      | true =>
          cases hstep
          exact Or.inr ⟨rfl, rfl, rfl⟩
      | false =>
          cases hstep
          exact Or.inl ⟨by simp [StarterPc.rank], rfl⟩
  | testing =>
      cases started <;> cases hstep <;> exact Or.inl ⟨by simp [StarterPc.rank], rfl⟩
  | sleeping | returned => cases hstep

/-- The thread gets on, and is past `ril_event_init` after every step. -/
theorem Handshake.thread_moves (hstep : s.step .thread = some s') :
    s'.rank < s.rank ∧ s.thread ≠ .absent ∧ s'.thread.initialised = true := by
  obtain ⟨starter, thread, owner, started, tidDispatch⟩ := s
  cases thread with
  | initialising | setting | unlocking =>
      cases hstep
      exact ⟨by simp [Handshake.rank, ThreadPc.rank], nofun, rfl⟩
  | locking =>
      simp only [Handshake.step, Option.ite_none_right_eq_some, Option.some.injEq] at hstep
      obtain ⟨-, rfl⟩ := hstep
      exact ⟨by simp [Handshake.rank, ThreadPc.rank], nofun, rfl⟩
  | broadcasting =>
      cases hstep
      refine ⟨?_, nofun, rfl⟩
      cases starter <;> simp [Handshake.rank, StarterPc.rank, ThreadPc.rank]
  | absent | running => cases hstep

theorem Handshake.Sound.rank_lt {op : HandshakeOp} (h : s.Sound)
    (hstep : s.step op = some s') (hop : op.isSpurious = false) : s'.rank < s.rank := by
  cases op with
  | starter created =>
      rcases starter_moves hstep with ⟨hrank, hthread⟩ | ⟨hpc, hpc', hthread⟩
      · simp only [Handshake.rank, hthread]
        omega
      · have habsent : s.thread = .absent := h.early (by simp [hpc])
        simp [Handshake.rank, hpc, hpc', hthread, habsent, StarterPc.rank, ThreadPc.rank]
  | thread => exact (thread_moves hstep).1
  | spurious => cases hop

theorem Handshake.rank_spurious (hstep : s.step .spurious = some s') :
    s'.rank = s.rank + 2 := by
  simp only [Handshake.step, Option.ite_none_right_eq_some, Option.some.injEq] at hstep
  obtain ⟨hsleeping, rfl⟩ := hstep
  simp only [Handshake.rank, hsleeping, StarterPc.rank]
  omega

end Steps

/-! ## With the loop and the other threads -/

/-- The handshake, and the event layer from `ril_event_init` on. -/
structure Process (ι : Type) where
  hand : Handshake
  loop : Option (Loop ι)

inductive ProcessOp (ι : Type) where
  | hand (op : HandshakeOp)
  | loop (op : LoopOp ι)

variable {ι : Type} [DecidableEq ι]

/-- One step.  A call of the event layer before `ril_event_init` has no result. -/
def processStep (fuel : Nat) (wake : ι) (wakeFd : Int) (p : Process ι) :
    ProcessOp ι → Option (Process ι)
  | .hand op => (p.hand.step op).map fun hand =>
      { hand, loop := if op = .thread ∧ p.hand.thread = .initialising then some Loop.start
                      else p.loop }
  | .loop op => do
      let m ← p.loop
      let m' ← loopStep fuel wake wakeFd m op
      some { p with loop := some m' }

def Process.start : Process ι :=
  ⟨Handshake.start, none⟩

/-- The steps of the threads other than the loop's. -/
def LoopOp.ofOthers : LoopOp ι → Bool
  | .client _ => true
  | .trigger => true
  | _ => false

/-- The steps that can be taken.  The other threads begin when `RIL_startEventLoop` has
returned with a thread; the loop goes on from `pipe`.  That the event layer is there is
not asked for. -/
def ProcessOp.Legal (wake : ι) (wakeFd : Int) (p : Process ι) : ProcessOp ι → Prop
  | .hand op => (p.hand.step op).isSome
  | .loop op =>
      (if op.ofOthers then p.hand.starter = .returned ∧ p.hand.thread ≠ .absent
        else p.hand.thread = .running) ∧
      ∀ m, p.loop = some m → op.Legal wake wakeFd m

structure ProcessSound (wake : ι) (wakeFd : Int) (p : Process ι) (tl pl : List ι) : Prop where
  hand : p.hand.Sound
  layer : p.loop.isSome = p.hand.thread.initialised
  loop : ∀ m, p.loop = some m → LoopSound wake wakeFd m tl pl

section ProcessSteps

variable {wake : ι} {wakeFd : Int} {fuel : Nat} {p : Process ι} {tl pl : List ι}

/-- Who has returned with a thread has seen `s_started`, which is set behind
`ril_event_init`. -/
theorem ProcessSound.ready (h : ProcessSound wake wakeFd p tl pl)
    (hret : p.hand.starter = .returned) (hthread : p.hand.thread ≠ .absent) :
    ∃ m, p.loop = some m := by
  have hstarted := h.hand.started.mp (h.hand.leaving (Or.inr hret) hthread)
  rw [← Option.isSome_iff_exists, h.layer]
  rcases hstarted with hpc | hpc | hpc <;> simp [hpc, ThreadPc.initialised]

theorem Handshake.initialised_step {s s' : Handshake} {op : HandshakeOp} (h : s.Sound)
    (hstep : s.step op = some s') :
    s'.thread.initialised =
      (s.thread.initialised || decide (op = .thread ∧ s.thread = .initialising)) := by
  cases op with
  | starter created =>
      rcases starter_moves hstep with ⟨-, hthread⟩ | ⟨hpc, -, hthread⟩
      · simp [hthread]
      · have habsent : s.thread = .absent := h.early (by simp [hpc, StarterPc.early])
        simp [hthread, habsent, ThreadPc.initialised]
  | thread =>
      obtain ⟨-, hthere, hpast⟩ := thread_moves hstep
      rw [hpast]
      cases hpc : s.thread with
      | absent => exact absurd hpc hthere
      | _ => rfl
  | spurious =>
      simp only [Handshake.step, Option.ite_none_right_eq_some, Option.some.injEq] at hstep
      obtain ⟨-, rfl⟩ := hstep
      simp

theorem ProcessSound.handStep {op : HandshakeOp} (h : ProcessSound wake wakeFd p tl pl)
    (hfd : 0 ≤ wakeFd) (hlegal : (p.hand.step op).isSome) :
    ∃ p' tl' pl', processStep fuel wake wakeFd p (.hand op) = some p' ∧
      ProcessSound wake wakeFd p' tl' pl' ∧ tl'.length ≤ tl.length + 1 ∧
      p.hand.step op = some p'.hand := by
  obtain ⟨s', hstep⟩ := Option.isSome_iff_exists.mp hlegal
  have hsound := h.hand.step hstep
  have hlayer := Handshake.initialised_step h.hand hstep
  by_cases hinit : op = .thread ∧ p.hand.thread = .initialising
  · refine ⟨⟨s', some Loop.start⟩, [], [],
      by simp [processStep, hstep, if_pos hinit],
      ⟨hsound, by simp [hlayer, hinit], ?_⟩, by simp, hstep⟩
    intro m hm
    cases hm
    exact start_sound wake hfd
  · exact ⟨⟨s', p.loop⟩, tl, pl, by simp [processStep, hstep, hinit],
      ⟨hsound, by simp [hlayer, hinit, h.layer], h.loop⟩, by omega, hstep⟩

theorem ProcessSound.loopStep {op : LoopOp ι} (h : ProcessSound wake wakeFd p tl pl)
    (hlegal : (ProcessOp.loop op).Legal wake wakeFd p) (hfuel : tl.length < fuel) :
    ∃ p' tl' pl', processStep fuel wake wakeFd p (.loop op) = some p' ∧
      ProcessSound wake wakeFd p' tl' pl' ∧ tl'.length ≤ tl.length + 1 ∧
      p'.hand = p.hand := by
  obtain ⟨hwho, hop⟩ := hlegal
  obtain ⟨m, hm⟩ : ∃ m, p.loop = some m := by
    by_cases hothers : op.ofOthers
    · rw [if_pos hothers] at hwho
      exact h.ready hwho.1 hwho.2
    · rw [if_neg hothers] at hwho
      rw [← Option.isSome_iff_exists, h.layer, hwho]
      rfl
  obtain ⟨m', tl', pl', hrun, hm', hlen⟩ := loopStep_keeps (h.loop m hm) (hop m hm) hfuel
  refine ⟨{ p with loop := some m' }, tl', pl', by simp [processStep, hm, hrun],
    ⟨h.hand, ?_, ?_⟩, hlen, rfl⟩
  · have hlayer := h.layer
    rw [hm] at hlayer
    exact hlayer
  · intro n hn
    cases hn
    exact hm'

end ProcessSteps

/-! ## Whole runs of the process -/

/-- A step of the handshake that gets on with it. -/
def ProcessOp.advances : ProcessOp ι → Bool
  | .hand op => !op.isSpurious
  | .loop _ => false

/-- A wake-up for no reason. -/
def ProcessOp.isSpurious : ProcessOp ι → Bool
  | .hand op => op.isSpurious
  | .loop _ => false

/-- The step lemma.  The rank pays for every step of the handshake. -/
theorem ProcessSound.keeps {wake : ι} {wakeFd : Int} {fuel : Nat} {p : Process ι}
    {tl pl : List ι} {op : ProcessOp ι} (h : ProcessSound wake wakeFd p tl pl)
    (hfd : 0 ≤ wakeFd) (hlegal : op.Legal wake wakeFd p) (hfuel : tl.length < fuel) :
    ∃ p' tl' pl', processStep fuel wake wakeFd p op = some p' ∧
      ProcessSound wake wakeFd p' tl' pl' ∧ tl'.length ≤ tl.length + 1 ∧
      p'.hand.rank + (if op.advances then 1 else 0) ≤
        p.hand.rank + 2 * (if op.isSpurious then 1 else 0) := by
  cases op with
  | hand op =>
      obtain ⟨p', tl', pl', hrun, hp', hlen, hstep⟩ := h.handStep hfd hlegal
      refine ⟨p', tl', pl', hrun, hp', hlen, ?_⟩
      cases hspurious : op.isSpurious with
      | true =>
          cases op with
          | spurious =>
              simp [ProcessOp.advances, ProcessOp.isSpurious, HandshakeOp.isSpurious,
                Handshake.rank_spurious hstep]
          | _ => cases hspurious
      | false =>
          have hlt := h.hand.rank_lt hstep hspurious
          simp only [ProcessOp.advances, ProcessOp.isSpurious, hspurious, Bool.not_false,
            if_true, Bool.false_eq_true, if_false]
          omega
  | loop op =>
      obtain ⟨p', tl', pl', hrun, hp', hlen, hhand⟩ := h.loopStep hlegal hfuel
      refine ⟨p', tl', pl', hrun, hp', hlen, ?_⟩
      rw [hhand]
      simp [ProcessOp.advances, ProcessOp.isSpurious]

/-- The run lemma. -/
theorem processRun_keeps {wake : ι} {wakeFd : Int} {fuel : Nat} {ops : List (ProcessOp ι)}
    {p : Process ι} {tl pl : List ι} (h : ProcessSound wake wakeFd p tl pl) (hfd : 0 ≤ wakeFd)
    (hlegal : Along (processStep fuel wake wakeFd) (ProcessOp.Legal wake wakeFd) p ops)
    (hfuel : tl.length + ops.length < fuel) :
    ∃ p' tl' pl', exec (processStep fuel wake wakeFd) p ops = some p' ∧
      ProcessSound wake wakeFd p' tl' pl' ∧
      p'.hand.rank + ops.countP ProcessOp.advances ≤
        p.hand.rank + 2 * ops.countP ProcessOp.isSpurious := by
  induction ops generalizing p tl pl with
  | nil => exact ⟨p, tl, pl, rfl, h, by simp⟩
  | cons op ops ih =>
      rw [List.length_cons] at hfuel
      have hroom : tl.length < fuel := by omega
      obtain ⟨p₁, tl₁, pl₁, hstep, h₁, hlen, hrank₁⟩ := h.keeps hfd hlegal.1 hroom
      obtain ⟨p', tl', pl', hrun, h', hrank⟩ := ih h₁ (hlegal.2 p₁ hstep) (by omega)
      refine ⟨p', tl', pl', exec_cons_some.mpr ⟨p₁, hstep, hrun⟩, h', ?_⟩
      rw [List.countP_cons, List.countP_cons]
      omega

/-- What the threads can rely on in every state. -/
structure StartedUp (wakeFd : Int) (p : Process ι) : Prop where
  /-- Who returns with a thread finds the event layer set up, and `s_tid_dispatch`. -/
  ready : p.hand.starter = .returned → p.hand.thread ≠ .absent →
    p.loop.isSome ∧ p.hand.tidDispatch = true
  /-- The loop knows its own thread when it adds the wakeup event. -/
  known : p.hand.thread = .running → p.hand.tidDispatch = true
  /-- Nobody waits for good. -/
  goesOn : p.hand.starter ≠ .returned →
    (p.hand.step (.starter true)).isSome ∨ (p.hand.step .thread).isSome
  sleeps : ∀ m, p.loop = some m → ∀ rfds now wait n, m.phase = .asleep rfds now wait n →
    SleepsSoundly wakeFd m rfds now wait n

theorem ProcessSound.startedUp {wake : ι} {wakeFd : Int} {p : Process ι} {tl pl : List ι}
    (h : ProcessSound wake wakeFd p tl pl) : StartedUp wakeFd p where
  ready := by
    intro hret hthread
    exact ⟨Option.isSome_iff_exists.mpr (h.ready hret hthread),
      h.hand.tid.mpr ⟨hthread, by simp [hret]⟩⟩
  known := by
    intro hrunning
    exact h.hand.admitted (by simp [hrunning, ThreadPc.admitted])
  goesOn := h.hand.progress
  sleeps := fun m hm rfds now wait n hphase => (h.loop m hm).sleeps hphase

/-- **The start of the event loop.**  In every interleaving of the caller of
`RIL_startEventLoop`, the loop's thread, and the threads that run afterwards, no step
fails: a call of the event layer always finds it set up.  The handshake takes at most 22
steps, and two more for each wake-up without reason, and never stops before the caller
has returned. -/
theorem startEventLoop_runs (wake : ι) (wakeFd : Int) (hfd : 0 ≤ wakeFd) (fuel : Nat)
    (ops : List (ProcessOp ι)) (hfuel : ops.length < fuel)
    (hlegal : Along (processStep fuel wake wakeFd) (ProcessOp.Legal wake wakeFd)
      Process.start ops) :
    ∃ p, exec (processStep fuel wake wakeFd) Process.start ops = some p ∧
      StartedUp wakeFd p ∧
      ops.countP ProcessOp.advances ≤ 22 + 2 * ops.countP ProcessOp.isSpurious := by
  have hstart : ProcessSound wake wakeFd Process.start [] [] :=
    ⟨Handshake.start_sound, rfl, fun m hm => by cases hm⟩
  obtain ⟨p, tl, pl, hrun, hp, hrank⟩ := processRun_keeps hstart hfd hlegal
    (by simpa using hfuel)
  have hfirst : (Process.start : Process ι).hand.rank = 22 := rfl
  exact ⟨p, hrun, hp.startedUp, by omega⟩

/-- The caller sleeps, wakes for no reason and sleeps again; the thread wakes it, and
another thread adds an event before there is a pipe. -/
def earlyClient : List (ProcessOp Bool) :=
  [.hand (.starter true), .hand (.starter true), .hand (.starter true), .hand .thread,
   .hand (.starter true), .hand (.starter true), .hand .spurious, .hand (.starter true),
   .hand (.starter true), .hand .thread, .hand .thread, .hand .thread, .hand .thread,
   .hand (.starter true), .hand (.starter true), .hand (.starter true),
   .loop (.client (.set false 5 true 11 0)), .loop .openPipe]

theorem startEventLoop_runs_earlyClient :
    ∃ p, exec (processStep 20 true 3) Process.start earlyClient = some p ∧
      StartedUp 3 p ∧
      earlyClient.countP ProcessOp.advances ≤
        22 + 2 * earlyClient.countP ProcessOp.isSpurious := by
  refine startEventLoop_runs true 3 (by decide) 20 earlyClient (by decide) ?_
  -- the handshake
  iterate 16
    refine ⟨rfl, fun t ht => ?_⟩
    cases ht
  refine ⟨⟨⟨rfl, by decide⟩, fun m hm => ?_⟩, fun t ht => ?_⟩
  · cases hm
    refine ⟨⟨?_, unlisted_of_next rfl⟩, by decide, trivial⟩
    show ¬ State.Watched _ _
    decide
  cases ht
  refine ⟨⟨rfl, fun m hm => ?_⟩, fun t _ => trivial⟩
  cases hm
  rfl

end RilEvent
