import JsrD10f.Runs
import JsrD10f.UnsolResponses
import Mathlib.Data.List.Nodup

/-!
# The wake lock of unsolicited responses

`RIL_onUnsolicitedResponse` grabs the wake lock for a response that must wake
the client, and after sending it schedules a timer that releases the lock.  A
later response cancels the timer of the one before it by setting its
`userParam`; a cancelled timer still fires and only frees its memory.  The lock
is not counted.  A radio state change calls `RIL_onUnsolicitedResponse` again,
before its own response is sent.

A call is a list of instructions, worked off one by one, so that a timer may
fire between any two of them: the vendor RIL calls from its own thread.  The
response functions are reduced to their verdict.  `delivered` and `releases`
are a record of the run that the code does not keep: the time at which the last
waking response was sent, and for each release of the lock its time and the
value of `delivered` then.  Times are microseconds of the monotonic clock.
-/

namespace Libril

open Runs

/-- `TIMEVAL_WAKE_TIMEOUT`. -/
def wakeTimeout : Nat := 1000000

/-- A `UserCallbackInfo` with its scheduled event.  `info` is its address, and
`cancelled` says that `userParam` is not `NULL`. -/
structure WakeTimer where
  info : Nat
  cancelled : Bool
  timeout : Nat
deriving DecidableEq, Repr

/-- What is left to do of the calls in progress.  The flag is the verdict of
the response function. -/
inductive Instr where
  | call (u : Unsol) (ok : Bool)
  | marshal (u : Unsol) (ok : Bool)
  | processRadioState
  | voiceRadioTech (state : RadioState)
  | cdmaSubscriptionSource (state : RadioState)
  | simStatus (state : RadioState)
  | send (u : Unsol)
  | schedule
deriving DecidableEq, Repr

structure Release where
  time : Nat
  delivered : Option Nat
deriving DecidableEq, Repr

/-- `last` is `s_last_wake_timeout_info`, `held` the state of the kernel lock. -/
structure WakeState where
  registered : Bool
  held : Bool
  timers : List WakeTimer
  last : Option Nat
  now : Nat
  radio : RadioVars
  todo : List Instr
  delivered : Option Nat
  releases : List Release
deriving DecidableEq, Repr

/-- One move.  `call none` is a call with an unsupported response code.  A move
of the call in progress comes with what it may ask for: the result of
`onStateRequest` and the address that `malloc` returns. -/
inductive WakeLabel where
  | register
  | call (u : Option Unsol) (ok : Bool)
  | proceed (state : RadioState) (info : Nat)
  | fire (info : Nat)
  | tick (elapsed : Nat)
  | dispatchVoiceRadioTech (state : RadioState)
  | dispatchCdmaSubscriptionSource (state : RadioState)
deriving DecidableEq, Repr

def grabPartialWakeLock (s : WakeState) : WakeState :=
  { s with held := true }

def releaseWakeLock (s : WakeState) : WakeState :=
  { s with held := false, releases := ⟨s.now, s.delivered⟩ :: s.releases }

/-- Writing `userParam` of the info at `a`. -/
def cancelAt (a : Nat) (t : WakeTimer) : WakeTimer :=
  if t.info = a then { t with cancelled := true } else t

/-- The cancellation of the previous request.  It writes to the info that
`s_last_wake_timeout_info` points to, which must not have been freed. -/
def cancelLast (s : WakeState) : Option WakeState :=
  match s.last with
  | none => some s
  | some a =>
      if s.timers.any (fun t => t.info == a) then
        some { s with timers := s.timers.map (cancelAt a) }
      else none

def internalRequestTimedCallback (info : Nat) (s : WakeState) : WakeState :=
  { s with
    timers := s.timers ++ [⟨info, false, s.now + wakeTimeout⟩]
    last := some info }

/-- One instruction of the call in progress, with `rest` to follow. -/
def runInstr (state : RadioState) (info : Nat) (i : Instr) (rest : List Instr)
    (s : WakeState) : Option WakeState :=
  match i with
  | .call u ok =>
      let s := if u.wakes then grabPartialWakeLock s else s
      some { s with todo := .marshal u ok :: rest }
  | .marshal u ok =>
      if ok then
        if u = .radioStateChanged then
          some { s with todo := .processRadioState :: .send u :: rest }
        else some { s with todo := .send u :: rest }
      else
        let s := if u.wakes then releaseWakeLock s else s
        some { s with todo := rest }
  | .processRadioState =>
      if state.isOld then
        some { s with
          todo := .voiceRadioTech state :: .cdmaSubscriptionSource state ::
            .simStatus state :: rest }
      else some { s with todo := rest }
  | .voiceRadioTech state =>
      let new := decodeVoiceRadioTechnology state
      if new ≠ s.radio.voiceRadioTech then
        some { s with
          radio := { s.radio with voiceRadioTech := new }
          todo := .call .voiceRadioTechChanged true :: rest }
      else some { s with todo := rest }
  | .cdmaSubscriptionSource state =>
      let new := decodeCdmaSubscriptionSource state
      if is3gpp2 (decodeVoiceRadioTechnology state) ∧ new ≠ s.radio.cdmaSubscriptionSource then
        some { s with
          radio := { s.radio with cdmaSubscriptionSource := new }
          todo := .call .cdmaSubscriptionSourceChanged true :: rest }
      else some { s with todo := rest }
  | .simStatus state =>
      let new := decodeSimStatus state
      if new ≠ s.radio.simRuimStatus then
        some { s with
          radio := { s.radio with simRuimStatus := new }
          todo := .call .simStatusChanged true :: rest }
      else some { s with todo := rest }
  | .send u =>
      if u.wakes then some { s with delivered := some s.now, todo := .schedule :: rest }
      else some { s with todo := rest }
  | .schedule => do
      let s ← cancelLast s
      some { internalRequestTimedCallback info s with todo := rest }

/-- `userTimerCallback` on the info of `t`, with `wakeTimeoutCallback` in it. -/
def userTimerCallback (t : WakeTimer) (s : WakeState) : WakeState :=
  let s := if t.cancelled then s else releaseWakeLock s
  { s with
    last := if s.last = some t.info then none else s.last
    timers := s.timers.filter (fun t' => t'.info ≠ t.info) }

def wakeStep (s : WakeState) : WakeLabel → Option WakeState
  | .register => some { s with registered := true }
  | .call u ok =>
      match s.registered, u with
      | true, some u => some { s with todo := .call u ok :: s.todo }
      | _, _ => some s
  | .proceed state info =>
      match s.todo with
      | [] => none
      | i :: rest => runInstr state info i rest s
  | .fire info => do
      let t ← s.timers.find? (fun t => t.info == info)
      some (userTimerCallback t s)
  | .tick elapsed => some { s with now := s.now + elapsed }
  | .dispatchVoiceRadioTech state =>
      if state = .on then some s
      else
        let new := decodeVoiceRadioTechnology state
        some { s with radio := { s.radio with voiceRadioTech := new } }
  | .dispatchCdmaSubscriptionSource state =>
      if state = .on then some s
      else
        let new := decodeCdmaSubscriptionSource state
        some { s with radio := { s.radio with cdmaSubscriptionSource := new } }

/-- The state at the start of the process. -/
def wakeStart (now : Nat) : WakeState :=
  { registered := false, held := false, timers := [], last := none, now := now
    radio := ⟨none, none, none⟩, todo := [], delivered := none, releases := [] }

/-- The moves that the environment can make.  Calls come one after the other,
`malloc` does not return memory in use, and of the timers that have expired one
with the earliest deadline fires. -/
def WakeLegal (s : WakeState) : WakeLabel → Prop
  | .call _ _ => s.todo = []
  | .proceed _ info => s.todo ≠ [] ∧ ∀ t ∈ s.timers, t.info ≠ info
  | .fire info =>
      ∃ t ∈ s.timers, t.info = info ∧ t.timeout < s.now ∧
        ∀ t' ∈ s.timers, t.timeout ≤ t'.timeout
  | _ => True

/-- The instruction belongs to a call that has grabbed the lock and will
schedule a timer. -/
def Instr.owes : Instr → Bool
  | .marshal u ok => ok && u.wakes
  | .send u => u.wakes
  | .schedule => true
  | _ => false

/-- A call in progress has grabbed the lock and has its timer still to schedule. -/
def WakeState.delivering (s : WakeState) : Bool :=
  s.todo.any Instr.owes

/-- No uncancelled timer is pending. -/
def WakeState.idle (s : WakeState) : Prop :=
  ∀ t ∈ s.timers, t.cancelled = true

instance (s : WakeState) : Decidable s.idle :=
  inferInstanceAs (Decidable (∀ t ∈ s.timers, t.cancelled = true))

/-- The next instruction is the error exit of a waking response. -/
def WakeState.rejecting (s : WakeState) : Bool :=
  match s.todo with
  | .marshal u false :: _ => u.wakes
  | _ => false

/-- The steps that use the lock as one that nobody else holds: a waking
response is rejected only while no timer relies on the lock, and an uncancelled
timer fires only while no call in progress relies on it. -/
def WakeSpared (s : WakeState) : WakeLabel → Prop
  | .proceed _ _ => s.rejecting = true → s.idle
  | .fire info =>
      ∀ t ∈ s.timers, t.info = info → t.cancelled = false → s.delivering = false
  | _ => True

instance (s : WakeState) : (l : WakeLabel) → Decidable (WakeLegal s l)
  | .call _ _ => inferInstanceAs (Decidable (s.todo = []))
  | .proceed _ info =>
      inferInstanceAs (Decidable (s.todo ≠ [] ∧ ∀ t ∈ s.timers, t.info ≠ info))
  | .fire info =>
      inferInstanceAs (Decidable (∃ t ∈ s.timers, t.info = info ∧ t.timeout < s.now ∧
        ∀ t' ∈ s.timers, t.timeout ≤ t'.timeout))
  | .register => isTrue trivial
  | .tick _ => isTrue trivial
  | .dispatchVoiceRadioTech _ => isTrue trivial
  | .dispatchCdmaSubscriptionSource _ => isTrue trivial

instance (s : WakeState) : (l : WakeLabel) → Decidable (WakeSpared s l)
  | .proceed _ _ => inferInstanceAs (Decidable (s.rejecting = true → s.idle))
  | .fire info =>
      inferInstanceAs (Decidable (∀ t ∈ s.timers, t.info = info → t.cancelled = false →
        s.delivering = false))
  | .register => isTrue trivial
  | .call _ _ => isTrue trivial
  | .tick _ => isTrue trivial
  | .dispatchVoiceRadioTech _ => isTrue trivial
  | .dispatchCdmaSubscriptionSource _ => isTrue trivial

/-- Not part of a call whose response function fails. -/
def Instr.accepted : Instr → Bool
  | .call _ ok => ok
  | .marshal _ ok => ok
  | _ => true

/-- A rejected call has no other call around it. -/
def WakeShape (todo : List Instr) : Prop :=
  (∀ i ∈ todo, i.accepted = true) ∨
    ∃ u, todo = [.call u false] ∨ todo = [.marshal u false]

/-- The last waking response still has its timer to be scheduled, or has a
timer pending, or is older than the timeout. -/
def Covered (s : WakeState) (d : Nat) : Prop :=
  .schedule ∈ s.todo ∨
    (∃ t ∈ s.timers, t.cancelled = false ∧ d + wakeTimeout ≤ t.timeout) ∨
    d + wakeTimeout < s.now

/-- The invariant of the runs that spare the lock. -/
structure WakeInv (s : WakeState) : Prop where
  nodup : (s.timers.map WakeTimer.info).Nodup
  last_eq : ∀ t ∈ s.timers, t.cancelled = false → s.last = some t.info
  last_live : ∀ a, s.last = some a → ∃ t ∈ s.timers, t.info = a ∧ t.cancelled = false
  shape : WakeShape s.todo
  lock_needed : s.last ≠ none ∨ s.delivering = true → s.held = true
  lock_used : s.held = true → s.last ≠ none ∨ s.delivering = true ∨
    ∃ u, u.wakes = true ∧ s.todo = [.marshal u false]
  delivered : ∀ d, s.delivered = some d → d ≤ s.now ∧ Covered s d
  releases : ∀ r ∈ s.releases, ∀ d, r.delivered = some d → d + wakeTimeout < r.time

theorem wakeInv_start (now : Nat) : WakeInv (wakeStart now) := by
  constructor <;> simp [wakeStart, WakeShape, WakeState.delivering]

/-- Timers are known by their address. -/
theorem WakeInv.timer_unique {s : WakeState} (h : WakeInv s) {t t' : WakeTimer}
    (ht : t ∈ s.timers) (ht' : t' ∈ s.timers) (heq : t.info = t'.info) : t = t' :=
  List.inj_on_of_nodup_map h.nodup ht ht' heq

/-- There is at most one uncancelled timer. -/
theorem WakeInv.live_unique {s : WakeState} (h : WakeInv s) {t t' : WakeTimer}
    (ht : t ∈ s.timers) (ht' : t' ∈ s.timers) (hlive : t.cancelled = false)
    (hlive' : t'.cancelled = false) : t = t' := by
  have hlast := h.last_eq t ht hlive
  have hlast' := h.last_eq t' ht' hlive'
  rw [hlast] at hlast'
  exact h.timer_unique ht ht' (Option.some.inj hlast')

theorem WakeInv.idle_iff {s : WakeState} (h : WakeInv s) : s.idle ↔ s.last = none := by
  constructor
  · intro hidle
    cases hlast : s.last with
    | none => rfl
    | some a =>
        obtain ⟨t, ht, -, hlive⟩ := h.last_live a hlast
        rw [hidle t ht] at hlive
        cases hlive
  · intro hlast t ht
    cases hc : t.cancelled with
    | true => rfl
    | false =>
        have := h.last_eq t ht hc
        rw [hlast] at this
        cases this

theorem WakeShape.accepted_cons {i : Instr} {rest : List Instr} (h : WakeShape (i :: rest))
    (hi : i.accepted = true) : ∀ j ∈ i :: rest, j.accepted = true := by
  rcases h with h | ⟨u, h | h⟩
  · exact h
  · cases h
    cases hi
  · cases h
    cases hi

/-- Going on with an accepted call, when the lock and the timers stay as they
are and so does the promise to schedule. -/
theorem WakeInv.goOn {s : WakeState} (h : WakeInv s) {i : Instr} {rest todo : List Instr}
    (radio : RadioVars) (htodo : s.todo = i :: rest) (hi : i.accepted = true)
    (hnot : i ≠ .schedule) (hrest : ∀ j ∈ rest, j ∈ todo)
    (hacc : ∀ j ∈ todo, j ∈ rest ∨ j.accepted = true)
    (howes : todo.any Instr.owes = (i.owes || rest.any Instr.owes)) :
    WakeInv { s with radio := radio, todo := todo } := by
  have hall := WakeShape.accepted_cons (htodo ▸ h.shape) hi
  have hdel : s.delivering = todo.any Instr.owes := by
    rw [howes, WakeState.delivering, htodo, List.any_cons]
  have hneeded := h.lock_needed
  have hused := h.lock_used
  rw [hdel] at hneeded hused
  constructor
  · exact h.nodup
  · exact h.last_eq
  · exact h.last_live
  · left
    intro j hj
    rcases hacc j hj with hj | hj
    · exact hall j (List.mem_cons_of_mem i hj)
    · exact hj
  · exact hneeded
  · intro hheld
    rcases hused hheld with hl | hd | ⟨u, -, hu⟩
    · exact Or.inl hl
    · exact Or.inr (Or.inl hd)
    · rw [htodo] at hu
      cases hu
      cases hi
  · intro d hd
    obtain ⟨hle, hcov⟩ := h.delivered d hd
    refine ⟨hle, ?_⟩
    rcases hcov with hsched | hcov
    · left
      rw [htodo] at hsched
      rcases List.mem_cons.mp hsched with heq | hmem
      · exact absurd heq.symm hnot
      · exact hrest _ hmem
    · exact Or.inr hcov
  · exact h.releases

/-- An instruction that owes nothing is over. -/
theorem WakeInv.skip {s : WakeState} (h : WakeInv s) {i : Instr} {rest : List Instr}
    (htodo : s.todo = i :: rest) (hi : i.accepted = true) (howes : i.owes = false) :
    WakeInv { s with todo := rest } := by
  apply h.goOn s.radio htodo hi
  · intro heq
    rw [heq] at howes
    cases howes
  · exact fun j hj => hj
  · exact fun j hj => Or.inl hj
  · rw [howes, Bool.false_or]

/-- An instruction that owes nothing makes a nested call. -/
theorem WakeInv.notify {s : WakeState} (h : WakeInv s) {i : Instr} {rest : List Instr}
    (htodo : s.todo = i :: rest) (hi : i.accepted = true) (howes : i.owes = false) (u : Unsol)
    (radio : RadioVars) : WakeInv { s with radio := radio, todo := .call u true :: rest } := by
  apply h.goOn radio htodo hi
  · intro heq
    rw [heq] at howes
    cases howes
  · exact fun j hj => List.mem_cons_of_mem _ hj
  · intro j hj
    rcases List.mem_cons.mp hj with heq | hmem
    · exact Or.inr (heq ▸ rfl)
    · exact Or.inl hmem
  · rw [howes, List.any_cons]
    rfl

theorem grab_eq (s : WakeState) (u : Unsol) (todo : List Instr) :
    { (if u.wakes then grabPartialWakeLock s else s) with todo := todo } =
      { s with held := s.held || u.wakes, todo := todo } := by
  by_cases hw : u.wakes = true
  · simp [hw, grabPartialWakeLock]
  · simp [hw]

theorem WakeShape.marshal {u : Unsol} {ok : Bool} {rest : List Instr}
    (h : WakeShape (.call u ok :: rest)) : WakeShape (.marshal u ok :: rest) := by
  rcases h with h | ⟨v, h | h⟩
  · left
    intro j hj
    rcases List.mem_cons.mp hj with heq | hmem
    · rw [heq]
      exact h (.call u ok) (List.mem_cons_self ..)
    · exact h j (List.mem_cons_of_mem _ hmem)
  · cases h
    exact Or.inr ⟨u, Or.inr rfl⟩
  · cases h

/-- Grabbing the lock at the start of a call. -/
theorem WakeInv.call {s : WakeState} (h : WakeInv s) {u : Unsol} {ok : Bool} {rest : List Instr}
    (htodo : s.todo = .call u ok :: rest) :
    WakeInv { s with held := s.held || u.wakes, todo := .marshal u ok :: rest } := by
  have hshape : WakeShape (.marshal u ok :: rest) := (htodo ▸ h.shape).marshal
  have hdel : s.delivering = rest.any Instr.owes := by
    simp [WakeState.delivering, htodo, Instr.owes]
  constructor
  · exact h.nodup
  · exact h.last_eq
  · exact h.last_live
  · exact hshape
  · intro hneed
    by_cases hw : u.wakes = true
    · simp [hw]
    · have hheld : s.held = true := by
        apply h.lock_needed
        rw [hdel]
        simpa [WakeState.delivering, Instr.owes, hw] using hneed
      simp [hheld]
  · intro hheld
    by_cases hw : u.wakes = true
    · right
      rcases hshape with hs | ⟨v, hs | hs⟩
      · left
        have hok : ok = true := hs _ (List.mem_cons_self ..)
        simp [WakeState.delivering, Instr.owes, hw, hok]
      · cases hs
      · cases hs
        exact Or.inr ⟨u, hw, rfl⟩
    · rcases h.lock_used (by simpa [hw] using hheld) with hl | hd | ⟨v, -, hv⟩
      · exact Or.inl hl
      · rw [hdel] at hd
        exact Or.inr (Or.inl (by simp [WakeState.delivering, hd]))
      · rw [htodo] at hv
        cases hv
  · intro d hd
    obtain ⟨hle, hcov⟩ := h.delivered d hd
    refine ⟨hle, ?_⟩
    rcases hcov with hsched | hcov
    · rw [htodo] at hsched
      rcases List.mem_cons.mp hsched with heq | hmem
      · cases heq
      · exact Or.inl (List.mem_cons_of_mem _ hmem)
    · exact Or.inr hcov
  · exact h.releases

/-- A release is late enough when no call and no timer relies on the lock. -/
theorem WakeInv.release_late {s : WakeState} (h : WakeInv s) (hidle : s.idle)
    (hsched : .schedule ∉ s.todo) {d : Nat} (hd : s.delivered = some d) :
    d + wakeTimeout < s.now := by
  rcases (h.delivered d hd).2 with hmem | ⟨t, ht, hlive, -⟩ | hlate
  · exact absurd hmem hsched
  · rw [hidle t ht] at hlive
    cases hlive
  · exact hlate

theorem WakeShape.rejected {u : Unsol} {rest : List Instr}
    (h : WakeShape (.marshal u false :: rest)) : rest = [] := by
  rcases h with h | ⟨v, h | h⟩
  · cases h _ (List.mem_cons_self ..)
  · cases h
  · cases h
    rfl

/-- A rejected response. -/
theorem WakeInv.reject {s : WakeState} (h : WakeInv s) {u : Unsol} {rest : List Instr}
    (htodo : s.todo = .marshal u false :: rest) (hspared : u.wakes = true → s.idle) :
    WakeInv { (if u.wakes then releaseWakeLock s else s) with todo := rest } := by
  have hrest : rest = [] := (htodo ▸ h.shape).rejected
  subst hrest
  have hcov : ∀ d, Covered s d → Covered { s with todo := [] } d := by
    intro d hcov
    rcases hcov with hmem | hcov
    · rw [htodo] at hmem
      simp at hmem
    · exact Or.inr hcov
  by_cases hw : u.wakes = true
  · simp only [hw, if_true]
    have hidle := hspared hw
    have hlast := h.idle_iff.mp hidle
    constructor
    · exact h.nodup
    · exact h.last_eq
    · exact h.last_live
    · exact Or.inl (by simp)
    · intro hneed
      rcases hneed with hneed | hneed
      · exact absurd hlast hneed
      · cases hneed
    · intro hheld
      cases hheld
    · intro d hd
      exact ⟨(h.delivered d hd).1, hcov d (h.delivered d hd).2⟩
    · intro r hr d hd
      rcases List.mem_cons.mp hr with heq | hmem
      · subst heq
        exact h.release_late hidle (by simp [htodo]) hd
      · exact h.releases r hmem d hd
  · simp only [hw]
    constructor
    · exact h.nodup
    · exact h.last_eq
    · exact h.last_live
    · exact Or.inl (by simp)
    · intro hneed
      rcases hneed with hneed | hneed
      · exact h.lock_needed (Or.inl hneed)
      · cases hneed
    · intro hheld
      rcases h.lock_used hheld with hl | hd | ⟨v, hv, hv'⟩
      · exact Or.inl hl
      · simp [WakeState.delivering, htodo, Instr.owes] at hd
      · rw [htodo] at hv'
        cases hv'
        exact absurd hv hw
    · intro d hd
      exact ⟨(h.delivered d hd).1, hcov d (h.delivered d hd).2⟩
    · exact h.releases

/-- A waking response is sent. -/
theorem WakeInv.sent {s : WakeState} (h : WakeInv s) {u : Unsol} {rest : List Instr}
    (htodo : s.todo = .send u :: rest) (hw : u.wakes = true) :
    WakeInv { s with delivered := some s.now, todo := .schedule :: rest } := by
  have hall := WakeShape.accepted_cons (htodo ▸ h.shape) rfl
  have hdel : s.delivering = true := by
    simp [WakeState.delivering, htodo, Instr.owes, hw]
  constructor
  · exact h.nodup
  · exact h.last_eq
  · exact h.last_live
  · left
    intro j hj
    rcases List.mem_cons.mp hj with heq | hmem
    · rw [heq]
      rfl
    · exact hall j (List.mem_cons_of_mem _ hmem)
  · intro _
    exact h.lock_needed (Or.inr hdel)
  · intro _
    exact Or.inr (Or.inl rfl)
  · intro d hd
    cases hd
    exact ⟨Nat.le_refl _, Or.inl (List.mem_cons_self ..)⟩
  · exact h.releases

@[simp] theorem cancelAt_info (a : Nat) (t : WakeTimer) : (cancelAt a t).info = t.info := by
  unfold cancelAt
  split <;> rfl

theorem map_cancelAt_info (a : Nat) (l : List WakeTimer) :
    (l.map (cancelAt a)).map WakeTimer.info = l.map WakeTimer.info := by
  rw [List.map_map]
  exact List.map_congr_left (fun t _ => cancelAt_info a t)

/-- The write to the previous timer succeeds and leaves no uncancelled timer. -/
theorem WakeInv.cancelLast_spec {s : WakeState} (h : WakeInv s) :
    ∃ timers, cancelLast s = some { s with timers := timers } ∧
      timers.map WakeTimer.info = s.timers.map WakeTimer.info ∧
      ∀ t ∈ timers, t.cancelled = true := by
  by_cases hlast : s.last = none
  · refine ⟨s.timers, ?_, rfl, h.idle_iff.mpr hlast⟩
    simp only [cancelLast, hlast]
    exact congrArg some (by rw [← hlast])
  · obtain ⟨a, ha⟩ := Option.ne_none_iff_exists'.mp hlast
    obtain ⟨t, ht, hta, -⟩ := h.last_live a ha
    have hany : s.timers.any (fun t => t.info == a) = true :=
      List.any_eq_true.mpr ⟨t, ht, by simp [hta]⟩
    refine ⟨s.timers.map (cancelAt a), ?_, map_cancelAt_info a s.timers, ?_⟩
    · simp only [cancelLast, ha, hany, if_true]
    · intro t' ht'
      obtain ⟨v, hv, rfl⟩ := List.mem_map.mp ht'
      unfold cancelAt
      by_cases hva : v.info = a
      · rw [if_pos hva]
      · rw [if_neg hva]
        cases hc : v.cancelled with
        | true => rfl
        | false =>
            have hlv := h.last_eq v hv hc
            rw [ha] at hlv
            exact absurd (Option.some.inj hlv).symm hva

/-- The new timer takes over from the previous one. -/
theorem WakeInv.schedule {s : WakeState} (h : WakeInv s) {info : Nat} {rest : List Instr}
    (htodo : s.todo = .schedule :: rest) (hfresh : ∀ t ∈ s.timers, t.info ≠ info)
    {timers : List WakeTimer} (hinfo : timers.map WakeTimer.info = s.timers.map WakeTimer.info)
    (hidle : ∀ t ∈ timers, t.cancelled = true) :
    WakeInv { internalRequestTimedCallback info { s with timers := timers } with
      todo := rest } := by
  have hall := WakeShape.accepted_cons (htodo ▸ h.shape) rfl
  have hheld : s.held = true :=
    h.lock_needed (Or.inr (by simp [WakeState.delivering, htodo, Instr.owes]))
  have hmem : ∀ t ∈ timers ++ [⟨info, false, s.now + wakeTimeout⟩], t.cancelled = false →
      t = ⟨info, false, s.now + wakeTimeout⟩ := by
    intro t ht hlive
    rcases List.mem_append.mp ht with ht | ht
    · rw [hidle t ht] at hlive
      cases hlive
    · exact List.mem_singleton.mp ht
  constructor
  · show ((timers ++ [_]).map WakeTimer.info).Nodup
    rw [List.map_append, hinfo]
    apply List.Nodup.append h.nodup (List.nodup_singleton _)
    intro a ha hb
    obtain ⟨t, ht, rfl⟩ := List.mem_map.mp ha
    exact hfresh t ht (by simpa using hb)
  · intro t ht hlive
    rw [hmem t ht hlive]
    rfl
  · intro a ha
    cases ha
    exact ⟨⟨info, false, s.now + wakeTimeout⟩, by simp [internalRequestTimedCallback], rfl, rfl⟩
  · exact Or.inl (fun j hj => hall j (List.mem_cons_of_mem _ hj))
  · intro _
    exact hheld
  · intro _
    exact Or.inl (by simp [internalRequestTimedCallback])
  · intro d hd
    have hle := (h.delivered d hd).1
    refine ⟨hle, Or.inr (Or.inl ⟨⟨info, false, s.now + wakeTimeout⟩, ?_, rfl, ?_⟩)⟩
    · simp [internalRequestTimedCallback]
    · exact Nat.add_le_add_right hle wakeTimeout
  · exact h.releases

/-- The timers that stay when the one at `a` is freed. -/
def others (a : Nat) (timers : List WakeTimer) : List WakeTimer :=
  timers.filter (fun t => t.info ≠ a)

theorem mem_others {a : Nat} {timers : List WakeTimer} {t : WakeTimer} :
    t ∈ others a timers ↔ t ∈ timers ∧ t.info ≠ a := by
  simp [others]

theorem WakeInv.others_nodup {s : WakeState} (h : WakeInv s) (a : Nat) :
    ((others a s.timers).map WakeTimer.info).Nodup :=
  h.nodup.sublist (List.filter_sublist.map _)

/-- A cancelled timer fires: it is freed, and the rest goes on. -/
theorem WakeInv.fire_cancelled {s : WakeState} (h : WakeInv s) {t : WakeTimer}
    (ht : t ∈ s.timers) (hc : t.cancelled = true) : WakeInv (userTimerCallback t s) := by
  have hlive : ∀ t' ∈ s.timers, t'.cancelled = false → t' ∈ others t.info s.timers := by
    intro t' ht' hlive
    apply mem_others.mpr ⟨ht', ?_⟩
    intro heq
    rw [h.timer_unique ht' ht heq, hc] at hlive
    cases hlive
  have hlast : s.last ≠ some t.info := by
    intro hlast
    obtain ⟨t', ht', heq, hl⟩ := h.last_live _ hlast
    exact (mem_others.mp (hlive t' ht' hl)).2 heq
  have hcb : userTimerCallback t s = { s with timers := others t.info s.timers } := by
    simp only [userTimerCallback, hc, if_true, if_neg hlast]
    rfl
  rw [hcb]
  constructor
  · exact h.others_nodup t.info
  · exact fun t' ht' => h.last_eq t' (mem_others.mp ht').1
  · intro a ha
    obtain ⟨t', ht', heq, hl⟩ := h.last_live a ha
    exact ⟨t', hlive t' ht' hl, heq, hl⟩
  · exact h.shape
  · exact h.lock_needed
  · exact h.lock_used
  · intro d hd
    obtain ⟨hle, hcov⟩ := h.delivered d hd
    refine ⟨hle, ?_⟩
    rcases hcov with hcov | ⟨t', ht', hl, hto⟩ | hcov
    · exact Or.inl hcov
    · exact Or.inr (Or.inl ⟨t', hlive t' ht' hl, hl, hto⟩)
    · exact Or.inr (Or.inr hcov)
  · exact h.releases

/-- The uncancelled timer fires while no call relies on the lock. -/
theorem WakeInv.fire_live {s : WakeState} (h : WakeInv s) {t : WakeTimer} (ht : t ∈ s.timers)
    (hexp : t.timeout < s.now) (hc : t.cancelled = false) (hdel : s.delivering = false) :
    WakeInv (userTimerCallback t s) := by
  have hlast := h.last_eq t ht hc
  have hcb : userTimerCallback t s =
      { s with
        held := false
        releases := ⟨s.now, s.delivered⟩ :: s.releases
        last := none
        timers := others t.info s.timers } := by
    have hlast' : (releaseWakeLock s).last = some t.info := hlast
    simp only [userTimerCallback, hc, Bool.false_eq_true, if_false, if_pos hlast']
    rfl
  have hidle : ∀ t' ∈ others t.info s.timers, t'.cancelled = true := by
    intro t' ht'
    obtain ⟨hmem, hne⟩ := mem_others.mp ht'
    cases hl : t'.cancelled with
    | true => rfl
    | false => exact absurd (congrArg WakeTimer.info (h.live_unique hmem ht hl hc)) hne
  have hlate : ∀ d, s.delivered = some d → d + wakeTimeout < s.now := by
    intro d hd
    rcases (h.delivered d hd).2 with hmem | ⟨t', ht', hl, hto⟩ | hlate
    · have : s.delivering = true := List.any_eq_true.mpr ⟨.schedule, hmem, rfl⟩
      rw [hdel] at this
      cases this
    · rw [h.live_unique ht' ht hl hc] at hto
      omega
    · exact hlate
  rw [hcb]
  constructor
  · exact h.others_nodup t.info
  · intro t' ht' hl
    rw [hidle t' ht'] at hl
    cases hl
  · intro a ha
    cases ha
  · exact h.shape
  · intro hneed
    rcases hneed with hneed | hneed
    · exact absurd rfl hneed
    · exact absurd (hneed.symm.trans hdel) (by decide)
  · intro hheld
    cases hheld
  · intro d hd
    exact ⟨(h.delivered d hd).1, Or.inr (Or.inr (hlate d hd))⟩
  · intro r hr d hd
    rcases List.mem_cons.mp hr with heq | hmem
    · subst heq
      exact hlate d hd
    · exact h.releases r hmem d hd

/-- Time passes. -/
theorem WakeInv.tick {s : WakeState} (h : WakeInv s) (elapsed : Nat) :
    WakeInv { s with now := s.now + elapsed } := by
  refine ⟨h.nodup, h.last_eq, h.last_live, h.shape, h.lock_needed, h.lock_used, ?_, h.releases⟩
  intro d hd
  obtain ⟨hle, hcov⟩ := h.delivered d hd
  constructor
  · exact Nat.le_trans hle (Nat.le_add_right _ _)
  · rcases hcov with hcov | hcov | hcov
    · exact Or.inl hcov
    · exact Or.inr (Or.inl hcov)
    · exact Or.inr (Or.inr (Nat.lt_of_lt_of_le hcov (Nat.le_add_right _ _)))

/-- Changes of the radio variables between two calls. -/
theorem WakeInv.radio {s : WakeState} (h : WakeInv s) (radio : RadioVars) :
    WakeInv { s with radio := radio } :=
  ⟨h.nodup, h.last_eq, h.last_live, h.shape, h.lock_needed, h.lock_used, h.delivered, h.releases⟩

theorem WakeInv.register {s : WakeState} (h : WakeInv s) :
    WakeInv { s with registered := true } :=
  ⟨h.nodup, h.last_eq, h.last_live, h.shape, h.lock_needed, h.lock_used, h.delivered, h.releases⟩

/-- A new call begins. -/
theorem WakeInv.begin {s : WakeState} (h : WakeInv s) (htodo : s.todo = []) (u : Unsol)
    (ok : Bool) : WakeInv { s with todo := [.call u ok] } := by
  have hdel : s.delivering = false := by
    simp [WakeState.delivering, htodo]
  constructor
  · exact h.nodup
  · exact h.last_eq
  · exact h.last_live
  · cases ok with
    | true => exact Or.inl (by simp [Instr.accepted])
    | false => exact Or.inr ⟨u, Or.inl rfl⟩
  · intro hneed
    rcases hneed with hneed | hneed
    · exact h.lock_needed (Or.inl hneed)
    · cases hneed
  · intro hheld
    rcases h.lock_used hheld with hl | hd | ⟨v, -, hv⟩
    · exact Or.inl hl
    · rw [hdel] at hd
      cases hd
    · rw [htodo] at hv
      cases hv
  · intro d hd
    obtain ⟨hle, hcov⟩ := h.delivered d hd
    refine ⟨hle, ?_⟩
    rcases hcov with hcov | hcov
    · rw [htodo] at hcov
      cases hcov
    · exact Or.inr hcov
  · exact h.releases

/-- One instruction of a call has a result and keeps the invariant. -/
theorem WakeInv.runInstr {s : WakeState} (h : WakeInv s) {i : Instr} {rest : List Instr}
    (state : RadioState) (info : Nat) (htodo : s.todo = i :: rest)
    (hfresh : ∀ t ∈ s.timers, t.info ≠ info)
    (hspared : ∀ u, i = .marshal u false → u.wakes = true → s.idle) :
    ∃ t, Libril.runInstr state info i rest s = some t ∧ WakeInv t := by
  cases i with
  | call u ok =>
      refine ⟨_, rfl, ?_⟩
      rw [grab_eq]
      exact h.call htodo
  | marshal u ok =>
      cases ok with
      | false => exact ⟨_, rfl, h.reject htodo (hspared u rfl)⟩
      | true =>
          by_cases hu : u = .radioStateChanged
          · refine ⟨{ s with todo := .processRadioState :: .send u :: rest }, ?_, ?_⟩
            · simp [Libril.runInstr, hu]
            · exact h.goOn s.radio htodo rfl (by simp) (by grind) (by grind [Instr.accepted])
                (by simp [Instr.owes])
          · refine ⟨{ s with todo := .send u :: rest }, ?_, ?_⟩
            · simp [Libril.runInstr, hu]
            · exact h.goOn s.radio htodo rfl (by simp) (by grind) (by grind [Instr.accepted])
                (by simp [Instr.owes])
  | processRadioState =>
      by_cases hold : state.isOld = true
      · refine ⟨{ s with
          todo := .voiceRadioTech state :: .cdmaSubscriptionSource state ::
            .simStatus state :: rest }, ?_, ?_⟩
        · simp [Libril.runInstr, hold]
        · exact h.goOn s.radio htodo rfl (by simp) (by grind) (by grind [Instr.accepted])
            (by simp [Instr.owes])
      · exact ⟨_, if_neg hold, h.skip htodo rfl rfl⟩
  | voiceRadioTech state =>
      by_cases hnew : decodeVoiceRadioTechnology state ≠ s.radio.voiceRadioTech
      · exact ⟨_, if_pos hnew, h.notify htodo rfl rfl _ _⟩
      · exact ⟨_, if_neg hnew, h.skip htodo rfl rfl⟩
  | cdmaSubscriptionSource state =>
      by_cases hnew : is3gpp2 (decodeVoiceRadioTechnology state) = true ∧
          decodeCdmaSubscriptionSource state ≠ s.radio.cdmaSubscriptionSource
      · exact ⟨_, if_pos hnew, h.notify htodo rfl rfl _ _⟩
      · exact ⟨_, if_neg hnew, h.skip htodo rfl rfl⟩
  | simStatus state =>
      by_cases hnew : decodeSimStatus state ≠ s.radio.simRuimStatus
      · exact ⟨_, if_pos hnew, h.notify htodo rfl rfl _ _⟩
      · exact ⟨_, if_neg hnew, h.skip htodo rfl rfl⟩
  | send u =>
      by_cases hw : u.wakes = true
      · exact ⟨_, if_pos hw, h.sent htodo hw⟩
      · exact ⟨_, if_neg hw, h.skip htodo rfl (by simpa [Instr.owes] using hw)⟩
  | schedule =>
      obtain ⟨timers, hcancel, hinfo, hidle⟩ := h.cancelLast_spec
      refine ⟨_, ?_, h.schedule htodo hfresh hinfo hidle⟩
      rw [Libril.runInstr, hcancel]
      rfl

/-- Every step that the environment can make and that spares the lock. -/
theorem wakeStep_inv {s : WakeState} (h : WakeInv s) {l : WakeLabel} (hlegal : WakeLegal s l)
    (hspared : WakeSpared s l) : ∃ t, wakeStep s l = some t ∧ WakeInv t := by
  cases l with
  | register => exact ⟨_, rfl, h.register⟩
  | call u ok =>
      have htodo : s.todo = [] := hlegal
      cases hreg : s.registered with
      | false => exact ⟨s, by simp only [wakeStep, hreg], h⟩
      | true =>
          cases u with
          | none => exact ⟨s, by simp only [wakeStep, hreg], h⟩
          | some u =>
              refine ⟨{ s with todo := [.call u ok] }, ?_, h.begin htodo u ok⟩
              simp only [wakeStep, hreg, htodo]
  | proceed state info =>
      obtain ⟨hne, hfresh⟩ := hlegal
      obtain ⟨i, rest, htodo⟩ := List.exists_cons_of_ne_nil hne
      obtain ⟨t, ht, hinv⟩ := h.runInstr state info htodo hfresh
        (fun u hu hw => hspared (by rw [WakeState.rejecting, htodo, hu]; exact hw))
      exact ⟨t, by simp only [wakeStep, htodo, ht], hinv⟩
  | fire info =>
      obtain ⟨t, ht, hti, hexp, -⟩ := hlegal
      obtain ⟨t', hfind⟩ : ∃ t', s.timers.find? (fun t => t.info == info) = some t' := by
        apply Option.isSome_iff_exists.mp
        exact List.find?_isSome.mpr ⟨t, ht, by simp [hti]⟩
      have heq : t' = t := by
        have hinfo : t'.info = info := by simpa using List.find?_some hfind
        exact h.timer_unique (List.mem_of_find?_eq_some hfind) ht (hinfo.trans hti.symm)
      subst heq
      refine ⟨userTimerCallback t' s, ?_, ?_⟩
      · rw [wakeStep, hfind]
        rfl
      · cases hc : t'.cancelled with
        | true => exact h.fire_cancelled ht hc
        | false => exact h.fire_live ht hexp hc (hspared t' ht hti hc)
  | tick elapsed => exact ⟨_, rfl, h.tick elapsed⟩
  | dispatchVoiceRadioTech state =>
      by_cases hon : state = .on
      · exact ⟨s, if_pos hon, h⟩
      · exact ⟨_, if_neg hon, h.radio _⟩
  | dispatchCdmaSubscriptionSource state =>
      by_cases hon : state = .on
      · exact ⟨s, if_pos hon, h⟩
      · exact ⟨_, if_neg hon, h.radio _⟩

/-- What the lock is for, at a time when no call is in progress: there is at
most one uncancelled timer, the code knows it as the last one, and the lock is
held exactly while it is pending. -/
structure WakeWindow (s : WakeState) : Prop where
  unique : ∀ t ∈ s.timers, ∀ t' ∈ s.timers, t.cancelled = false → t'.cancelled = false → t = t'
  last : ∀ t ∈ s.timers, t.cancelled = false → s.last = some t.info
  held_iff : s.held = true ↔ ∃ t ∈ s.timers, t.cancelled = false

theorem WakeInv.window {s : WakeState} (h : WakeInv s) (htodo : s.todo = []) : WakeWindow s := by
  constructor
  · exact fun t ht t' ht' hl hl' => h.live_unique ht ht' hl hl'
  · exact h.last_eq
  · constructor
    · intro hheld
      rcases h.lock_used hheld with hlast | hd | ⟨u, -, hu⟩
      · obtain ⟨a, ha⟩ := Option.ne_none_iff_exists'.mp hlast
        obtain ⟨t, ht, -, hlive⟩ := h.last_live a ha
        exact ⟨t, ht, hlive⟩
      · simp [WakeState.delivering, htodo] at hd
      · rw [htodo] at hu
        cases hu
    · intro hex
      obtain ⟨t, ht, hlive⟩ := hex
      apply h.lock_needed
      left
      rw [h.last_eq t ht hlive]
      exact Option.some_ne_none _

/-- **The wake lock window.**  In every run whose steps spare the lock, at
every time between two calls the lock is held exactly while the one uncancelled
timer is pending, and no release of the lock has come before the timeout of the
last waking response. -/
theorem wake_lock_every_run (now : Nat) (as : List WakeLabel)
    (hlegal : Along wakeStep WakeLegal (wakeStart now) as)
    (hspared : Along wakeStep WakeSpared (wakeStart now) as) :
    ∃ s, exec wakeStep (wakeStart now) as = some s ∧
      (s.todo = [] → WakeWindow s) ∧
      ∀ r ∈ s.releases, ∀ d, r.delivered = some d → d + wakeTimeout < r.time := by
  have hboth : Along wakeStep (fun s l => WakeLegal s l ∧ (True → WakeSpared s l))
      (wakeStart now) as := along_and_imp hlegal (fun _ => hspared)
  obtain ⟨s, hs, hinv⟩ := exec_progress WakeInv
    (fun s l h hok => wakeStep_inv h hok.1 (hok.2 trivial)) (wakeInv_start now) hboth
  exact ⟨s, hs, hinv.window, hinv.releases⟩

/-- The moves of a call, with the addresses that `malloc` would return. -/
def proceeds (state : RadioState) (infos : List Nat) : List WakeLabel :=
  infos.map (.proceed state)

/-- An old RIL reports its SIM as ready, which sends three responses; a message
on the SIM follows, all timers fire, and at last a response is rejected. -/
def simReadyRun : List WakeLabel :=
  [.register, .call (some .radioStateChanged) true] ++
    proceeds .simReady [16, 16, 16, 16, 16, 16, 16, 16, 32, 32, 32, 32, 32, 32, 48, 48] ++
    [.tick 500000, .call (some .newSmsOnSim) true] ++ proceeds .simReady [64, 64, 64, 64] ++
    [.tick 1000001, .fire 16, .fire 32, .fire 48, .fire 64,
      .call (some .newSmsOnSim) false] ++ proceeds .simReady [80, 80]

theorem wake_lock_simReadyRun :
    ∃ s, exec wakeStep (wakeStart 0) simReadyRun = some s ∧
      (s.todo = [] → WakeWindow s) ∧
      ∀ r ∈ s.releases, ∀ d, r.delivered = some d → d + wakeTimeout < r.time :=
  wake_lock_every_run 0 simReadyRun (by decide) (by decide)

/-- The second response is rejected half a second after the first was sent. -/
def rejectedRun : List WakeLabel :=
  [.register, .call (some .newSmsOnSim) true] ++ proceeds .on [16, 16, 16, 16] ++
    [.tick 500000, .call (some .newSmsOnSim) false] ++ proceeds .on [32, 32]

/-- The timer of the first response fires while the second one is marshalled. -/
def overtakenRun : List WakeLabel :=
  [.register, .call (some .newSmsOnSim) true] ++ proceeds .on [16, 16, 16, 16] ++
    [.tick 1000001, .call (some .newSmsOnSim) true, .proceed .on 32, .fire 16] ++
    proceeds .on [32, 32, 32]

/-- **The lock is lost.**  In both runs no call is in progress at the end, an
uncancelled timer is pending, and the lock is not held. -/
theorem wake_lock_lost :
    (∃ s, Along wakeStep WakeLegal (wakeStart 0) rejectedRun ∧
      exec wakeStep (wakeStart 0) rejectedRun = some s ∧ s.todo = [] ∧ ¬ WakeWindow s ∧
      s.releases = [⟨500000, some 0⟩]) ∧
    ∃ s, Along wakeStep WakeLegal (wakeStart 0) overtakenRun ∧
      exec wakeStep (wakeStart 0) overtakenRun = some s ∧ s.todo = [] ∧ ¬ WakeWindow s := by
  constructor
  · refine ⟨_, by decide, rfl, rfl, fun h => ?_, rfl⟩
    exact absurd h.held_iff (by decide)
  · refine ⟨_, by decide, rfl, rfl, fun h => ?_⟩
    exact absurd h.held_iff (by decide)

end Libril
