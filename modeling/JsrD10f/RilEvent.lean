import JsrD10f.RingList
import JsrD10f.Runs
import Mathlib.Data.Fintype.Basic
import Mathlib.Data.List.FinRange

/-!
# The event layer of libril

`ril_event.cpp` keeps watched descriptors in a table of `MAX_FD_EVENTS` slots
and timers in an intrusive circular list; events that became ready wait in a
second circular list until their callbacks run.  All of it is one memory of
`ril_event` records plus a few globals, and that is what `State` holds.  An
address that no live record occupies reads as `none`, so a step through NULL
or through a freed record has no result.

Loops over linked records take a `fuel` argument, the number of records they
may look at; the theorems about them say how much is enough.  `readFds` is the
set of descriptors whose bit is set.  An `fd_set` has room for the descriptors
below `FD_SETSIZE`; rild is not given others, since its limit for open files is no
larger.  `calls` is not in the source: it records every callback the layer
made.
-/

namespace RilEvent

/-- `struct timeval`.  Seconds are unbounded: nothing here depends on the
width of `time_t` as long as a sum of two times does not overflow. -/
structure Timeval where
  tvSec : Int
  tvUsec : Int
deriving DecidableEq, Repr

def timeradd (t u : Timeval) : Timeval :=
  let sec := t.tvSec + u.tvSec
  let usec := t.tvUsec + u.tvUsec
  if usec ≥ 1000000 then ⟨sec + 1, usec - 1000000⟩ else ⟨sec, usec⟩

/-- `timercmp` with its comparison operator as an argument. -/
def timercmp (a b : Timeval) (op : Int → Int → Bool) : Bool :=
  if a.tvSec = b.tvSec then op a.tvUsec b.tvUsec else op a.tvSec b.tvSec

/-- The number of slots of the watch table, `MAX_FD_EVENTS`. -/
abbrev maxFdEvents : Nat := 8

/-- The address of a `ril_event`: one of the two list heads or an event of a
client. -/
inductive Node (ι : Type) where
  | timerList
  | pendingList
  | event (e : ι)
deriving DecidableEq, Repr

/-- `struct ril_event`.  A callback and its parameter are machine words. -/
structure Event (ι : Type) where
  next : Option (Node ι)
  prev : Option (Node ι)
  fd : Int
  index : Int
  persist : Bool
  timeout : Timeval
  func : Nat
  param : Nat
deriving DecidableEq, Repr

/-- A record after `memset (.., 0, ..)`. -/
def Event.zero (ι : Type) : Event ι :=
  ⟨none, none, 0, 0, false, ⟨0, 0⟩, 0, 0⟩

/-- One callback made by `firePending`, and whether its event was in the watch
table when the callback began. -/
structure Call (ι : Type) where
  event : ι
  func : Nat
  fd : Int
  param : Nat
  watched : Bool
deriving DecidableEq, Repr

structure State (ι : Type) where
  mem : Node ι → Option (Event ι)
  readFds : Int → Bool
  nfds : Int
  watchTable : Fin maxFdEvents → Option ι
  calls : List (Call ι)

/-- The static variables before any call, with no live event. -/
def State.blank {ι : Type} : State ι :=
  ⟨fun _ => none, fun _ => false, 0, fun _ => none, []⟩

variable {ι : Type} [DecidableEq ι]

/-- Store through a pointer to a live record. -/
def State.write (s : State ι) (n : Node ι) (f : Event ι → Event ι) :
    Option (State ι) :=
  (s.mem n).map fun v => { s with mem := Function.update s.mem n (some (f v)) }

/-- The event occupies a slot of the watch table. -/
def State.Watched (s : State ι) (e : ι) : Prop :=
  ∃ i, s.watchTable i = some e

instance (s : State ι) (e : ι) : Decidable (s.Watched e) :=
  inferInstanceAs (Decidable (∃ i, s.watchTable i = some e))

/-- `init_list`: the record of an empty list head. -/
def initList (list : Node ι) : Event ι :=
  { Event.zero ι with next := some list, prev := some list, fd := -1 }

def addToList (s : State ι) (ev list : Node ι) : Option (State ι) := do
  let s ← s.write ev fun v => { v with next := some list }
  let l ← s.mem list
  let s ← s.write ev fun v => { v with prev := l.prev }
  let p ← l.prev
  let s ← s.write p fun v => { v with next := some ev }
  s.write list fun v => { v with prev := some ev }

def removeFromList (s : State ι) (ev : Node ι) : Option (State ι) := do
  let v ← s.mem ev
  let x ← v.next
  let s ← s.write x fun w => { w with prev := v.prev }
  let p ← v.prev
  let s ← s.write p fun w => { w with next := v.next }
  let s ← s.write ev fun w => { w with next := none }
  s.write ev fun w => { w with prev := none }

/-- The loop of `removeWatch` that looks for the highest watched descriptor. -/
def maxFdLoop (s : State ι) : List (Fin maxFdEvents) → Int → Option Int
  | [], n => some n
  | i :: is, n =>
      match s.watchTable i with
      | none => maxFdLoop s is n
      | some rev => do
          let v ← s.mem (.event rev)
          maxFdLoop s is (if v.fd > n then v.fd else n)

def removeWatch (s : State ι) (ev : ι) (index : Fin maxFdEvents) :
    Option (State ι) := do
  let s := { s with watchTable := Function.update s.watchTable index none }
  let s ← s.write (.event ev) fun v => { v with index := -1 }
  let v ← s.mem (.event ev)
  let s := { s with readFds := Function.update s.readFds v.fd false }
  if v.fd + 1 = s.nfds then
    (maxFdLoop s (List.finRange maxFdEvents) 0).map fun n => { s with nfds := n + 1 }
  else
    some s

/-- The walk of `processTimeouts` from `tev` on. -/
def processTimeoutsLoop (now : Timeval) : Nat → Node ι → State ι → Option (State ι)
  | 0, _, _ => none
  | fuel + 1, tev, s =>
      if tev = .timerList then some s
      else do
        let v ← s.mem tev
        if timercmp now v.timeout (fun x y => x > y) then do
          let next ← v.next
          let s ← removeFromList s tev
          let s ← addToList s tev .pendingList
          processTimeoutsLoop now fuel next s
        else some s

def processTimeouts (fuel : Nat) (now : Timeval) (s : State ι) : Option (State ι) := do
  let l ← s.mem .timerList
  let tev ← l.next
  processTimeoutsLoop now fuel tev s

/-- The loop of `processReadReadies`; it stops early once `n` events were
found. -/
def processReadReadiesLoop (rfds : Int → Bool) :
    List (Fin maxFdEvents) → Int → State ι → Option (State ι)
  | [], _, s => some s
  | i :: is, n, s =>
      if n > 0 then
        match s.watchTable i with
        | none => processReadReadiesLoop rfds is n s
        | some rev => do
            let v ← s.mem (.event rev)
            if rfds v.fd then do
              let s ← addToList s (.event rev) .pendingList
              let s ← if v.persist = false then removeWatch s rev i else some s
              processReadReadiesLoop rfds is (n - 1) s
            else processReadReadiesLoop rfds is n s
      else some s

def processReadReadies (rfds : Int → Bool) (n : Int) (s : State ι) :
    Option (State ι) :=
  processReadReadiesLoop rfds (List.finRange maxFdEvents) n s

/-- One turn of `firePending`, up to and including the call of the callback.
The second component is the saved `next`. -/
def fireHead (s : State ι) (ev : Node ι) : Option (State ι × Node ι) := do
  let v ← s.mem ev
  let next ← v.next
  let s ← removeFromList s ev
  match ev with
  | .event e =>
      some ({ s with calls := s.calls ++
        [⟨e, v.func, v.fd, v.param, decide (s.Watched e)⟩] }, next)
  | _ => none

/-- `ril_event_init`.  `nfds` is a static variable that is not reset. -/
def rilEventInit (s : State ι) : State ι :=
  { s with
    mem := Function.update (Function.update s.mem .timerList
      (some (initList .timerList))) .pendingList (some (initList .pendingList))
    readFds := fun _ => false
    watchTable := fun _ => none }

/-- `ril_event_set`.  Its `fcntl` on the descriptor has no effect on this
state. -/
def rilEventSet (ev : ι) (fd : Int) (persist : Bool) (func param : Nat) (s : State ι) :
    State ι :=
  { s with mem := Function.update s.mem (.event ev) (some
      { Event.zero ι with
        fd := fd, index := -1, persist := persist, func := func, param := param }) }

def rilEventAdd (ev : ι) (s : State ι) : Option (State ι) :=
  match (List.finRange maxFdEvents).find? (fun i => (s.watchTable i).isNone) with
  | none => some s
  | some i => do
      let s := { s with watchTable := Function.update s.watchTable i (some ev) }
      let s ← s.write (.event ev) fun v => { v with index := (i.val : Int) }
      let v ← s.mem (.event ev)
      some { s with
        readFds := Function.update s.readFds v.fd true
        nfds := if v.fd ≥ s.nfds then v.fd + 1 else s.nfds }

/-- The search of `ril_timer_add` for the first timer that is not earlier. -/
def timerSlotLoop (timeout : Timeval) : Nat → Node ι → State ι → Option (Node ι)
  | 0, _, _ => none
  | fuel + 1, list, s => do
      let v ← s.mem list
      if timercmp v.timeout timeout (fun x y => x < y) && list ≠ .timerList then do
        let next ← v.next
        timerSlotLoop timeout fuel next s
      else some list

/-- `ril_timer_add` at the instant `now`. -/
def rilTimerAdd (fuel : Nat) (ev : ι) (tv : Option Timeval) (now : Timeval)
    (s : State ι) : Option (State ι) :=
  match tv with
  | none => some s
  | some tv => do
      let l ← s.mem .timerList
      let list ← l.next
      let timeout := timeradd now tv
      let s ← s.write (.event ev) fun v => { v with fd := -1, timeout := timeout }
      let list ← timerSlotLoop timeout fuel list s
      addToList s (.event ev) list

def rilEventDel (ev : ι) (s : State ι) : Option (State ι) := do
  let v ← s.mem (.event ev)
  if h : 0 ≤ v.index ∧ v.index < maxFdEvents then
    removeWatch s ev ⟨v.index.toNat, by omega⟩
  else
    some s

/-- `free` of an event's record by its owner. -/
def State.free (s : State ι) (ev : ι) : State ι :=
  { s with mem := Function.update s.mem (.event ev) none }

/-- What a client may do with the event layer. -/
inductive ApiOp (ι : Type) where
  | set (ev : ι) (fd : Int) (persist : Bool) (func param : Nat)
  | add (ev : ι)
  | del (ev : ι)
  | timerAdd (ev : ι) (tv now : Timeval)
  | free (ev : ι)
deriving DecidableEq, Repr

def ApiOp.apply (fuel : Nat) : ApiOp ι → State ι → Option (State ι)
  | .set ev fd persist func param, s => some (rilEventSet ev fd persist func param s)
  | .add ev, s => rilEventAdd ev s
  | .del ev, s => rilEventDel ev s
  | .timerAdd ev tv now, s => rilTimerAdd fuel ev (some tv) now s
  | .free ev, s => some (s.free ev)

/-- The operations one callback makes, in order. -/
def applyAll (fuel : Nat) (ops : List (ApiOp ι)) (s : State ι) : Option (State ι) :=
  Runs.exec (fun s op => op.apply fuel s) s ops

/-- The walk of `firePending` from `ev` on.  The callbacks are a parameter: a
function from the state in which a callback begins to the operations it
makes. -/
def firePendingLoop (body : State ι → List (ApiOp ι)) :
    Nat → Node ι → State ι → Option (State ι)
  | 0, _, _ => none
  | fuel + 1, ev, s =>
      if ev = .pendingList then some s
      else do
        let (s, next) ← fireHead s ev
        let s ← applyAll fuel (body s) s
        firePendingLoop body fuel next s

def firePending (body : State ι → List (ApiOp ι)) (fuel : Nat) (s : State ι) :
    Option (State ι) := do
  let l ← s.mem .pendingList
  let ev ← l.next
  firePendingLoop body fuel ev s

/-- The part of `ril_event_loop` behind a successful `select`. -/
def iteration (body : State ι → List (ApiOp ι)) (fuel : Nat) (now : Timeval)
    (rfds : Int → Bool) (n : Int) (s : State ι) : Option (State ι) := do
  let s ← processTimeouts fuel now s
  let s ← processReadReadies rfds n s
  firePending body fuel s

end RilEvent
