import JsrD10f.EventOps
import JsrD10f.TimerRuns

/-!
# The command connection

`ril.cpp` serves one client at a time.  `listenCallback` accepts it and arms
`s_commands_event`; `processCommandsCallback` closes it at the end of the stream
and arms the non-persistent `s_listen_event` again.  Two more places close the
descriptor: `blockingWrite` after a failed write, and the debug command 1.

A state is the event layer with the four events of `ril.cpp`, `s_fdCommand` and
the set of open descriptors.  Timers are left out: their callbacks touch none
of this.  A label is one `select`, one callback with the results of its system
calls, or one `sendResponse` between two callbacks.  An assertion that fails,
and a `select` on a closed descriptor, end the process; the state then has a
`fault` and makes no further step.
-/

namespace Libril

open RilEvent Runs

/-- The events that `ril.cpp` watches. -/
inductive Source where
  | wakeup
  | listen
  | debug
  | commands
deriving DecidableEq, Repr

instance : Fintype Source where
  elems := {.wakeup, .listen, .debug, .commands}
  complete := by
    intro e
    cases e <;> simp

/-- The descriptors that stay open. -/
structure Fds where
  wakeup : Int
  listen : Int
  debug : Int
  wakeup_nonneg : 0 ≤ wakeup
  listen_nonneg : 0 ≤ listen
  debug_nonneg : 0 ≤ debug
  wakeup_ne_listen : wakeup ≠ listen
  wakeup_ne_debug : wakeup ≠ debug
  listen_ne_debug : listen ≠ debug

/-- What ends the process. -/
inductive Fault where
  | listenAssert
  | commandsAssert
  | selectClosed
deriving DecidableEq, Repr

/-- `cursor` is the event that `firePending` calls next. -/
structure Connection where
  events : State Source
  fdCommand : Int
  isOpen : Int → Bool
  cursor : Option (Node Source)
  fault : Option Fault

/-- What the system calls of `listenCallback` return.  `writeFails` is the
result of the writes in `onNewCommandConnect`. -/
inductive ListenOutcome where
  | acceptFails
  | rejected (fd : Int)
  | accepted (fd : Int) (writeFails : Bool)
deriving DecidableEq, Repr

/-- How the read loop of `processCommandsCallback` ends. -/
inductive Ending where
  | again
  | endOfStream
  | fatal
deriving DecidableEq, Repr

/-- What `debugCallback` receives. -/
inductive DebugOutcome where
  | acceptFails
  | readFails (fd : Int)
  | command (fd : Int) (number : Int) (writeFails : Bool)
deriving DecidableEq, Repr

/-- The results of the system calls of one callback.  The requests read by
`processCommandsCallback` may be answered at once, hence its `writeFails`. -/
inductive Outcome where
  | wakeup
  | listen (o : ListenOutcome)
  | debug (o : DebugOutcome)
  | commands (writeFails : Bool) (ending : Ending)
deriving DecidableEq, Repr

inductive Label where
  | select (R : Finset Int)
  | fire (o : Outcome)
  | sendResponse (writeFails : Bool)

def Connection.open (c : Connection) (fd : Int) : Connection :=
  { c with isOpen := Function.update c.isOpen fd true }

def Connection.close (c : Connection) (fd : Int) : Connection :=
  { c with isOpen := Function.update c.isOpen fd false }

/-- `sendResponse`.  A failed write closes the descriptor and leaves
`s_fdCommand` as it is. -/
def Connection.sendResponse (c : Connection) (writeFails : Bool) : Connection :=
  if c.fdCommand < 0 then c
  else if writeFails then c.close c.fdCommand
  else c

/-- `rilEventAddWakeup`.  The byte it writes to the wakeup pipe does not
matter here. -/
def Connection.rilEventAddWakeup (c : Connection) (e : Source) : Option Connection := do
  let events ← rilEventAdd e c.events
  some { c with events := events }

variable (fds : Fds)

def listenCallback (fd : Int) (o : ListenOutcome) (c : Connection) : Option Connection :=
  if ¬ (c.fdCommand < 0 ∧ fd = fds.listen) then some { c with fault := some .listenAssert }
  else
    match o with
    | .acceptFails => { c with fdCommand := -1 }.rilEventAddWakeup .listen
    | .rejected fd =>
        let c := { c.open fd with fdCommand := fd }
        let c := { c.close c.fdCommand with fdCommand := -1 }
        c.rilEventAddWakeup .listen
    | .accepted fd writeFails => do
        let c := { c.open fd with fdCommand := fd }
        let c := { c with events := rilEventSet .commands c.fdCommand true 3 0 c.events }
        let c ← c.rilEventAddWakeup .commands
        some (c.sendResponse writeFails)

def processCommandsCallback (fd : Int) (writeFails : Bool) (ending : Ending)
    (c : Connection) : Option Connection :=
  if fd ≠ c.fdCommand then some { c with fault := some .commandsAssert }
  else
    let c := c.sendResponse writeFails
    if ending = .again then some c
    else do
      let c := { c.close c.fdCommand with fdCommand := -1 }
      let events ← rilEventDel .commands c.events
      { c with events := events }.rilEventAddWakeup .listen

/-- `debugCallback`.  All commands but number 1 only issue requests and
notifications. -/
def debugCallback (o : DebugOutcome) (c : Connection) : Connection :=
  match o with
  | .acceptFails => c
  | .readFails fd => c.open fd
  | .command fd number writeFails =>
      let c := (c.open fd).sendResponse writeFails
      let c := if number = 1 then { c.close c.fdCommand with fdCommand := -1 } else c
      c.close fd

/-- A descriptor that `select` looks at is closed. -/
def Connection.selectsClosed (c : Connection) : Bool :=
  (List.range c.events.nfds.toNat).any fun fd => c.events.readFds fd && !c.isOpen fd

/-- The call of the callback of `e`. -/
def callback (e : Source) (fd : Int) (o : Outcome) (c : Connection) : Option Connection :=
  match e, o with
  | .wakeup, .wakeup => some c
  | .listen, .listen o => listenCallback fds fd o c
  | .debug, .debug o => some (debugCallback o c)
  | .commands, .commands writeFails ending => processCommandsCallback fd writeFails ending c
  | _, _ => none

/-- The position of `firePending` on a node. -/
def cursorAt (n : Node Source) : Option (Node Source) :=
  if n = .pendingList then none else some n

def connStep (c : Connection) (l : Label) : Option Connection :=
  match c.fault with
  | some _ => none
  | none =>
      match l with
      | .select R =>
          if c.selectsClosed then some { c with fault := some .selectClosed }
          else do
            let events ← processReadReadies (bitsOf R) R.card c.events
            let head ← events.mem .pendingList
            let first ← head.next
            some { c with events := events, cursor := cursorAt first }
      | .fire o =>
          match c.cursor with
          | some (.event e) => do
              let v ← c.events.mem (.event e)
              let (events, next) ← fireHead c.events (.event e)
              callback fds e v.fd o { c with events := events, cursor := cursorAt next }
          | _ => none
      | .sendResponse writeFails => some (c.sendResponse writeFails)

/-- The events after `eventLoop` and `RIL_register` have armed them. -/
def registerOps : List (ApiOp Source) :=
  [.set .wakeup fds.wakeup true 0 0, .add .wakeup, .set .listen fds.listen false 1 0,
    .add .listen, .set .debug fds.debug true 2 0, .add .debug]

def Connection.start : Option Connection := do
  let events ← applyAll 0 (registerOps fds) (rilEventInit State.blank)
  some ⟨events, -1, fun fd => fd == fds.wakeup || fd == fds.listen || fd == fds.debug,
    none, none⟩

/-! ## What the environment may do -/

/-- The event whose callback has this outcome. -/
def Outcome.source : Outcome → Source
  | .wakeup => .wakeup
  | .listen _ => .listen
  | .debug _ => .debug
  | .commands _ _ => .commands

/-- A new descriptor is one that is not open. -/
def Connection.Fresh (c : Connection) (fd : Int) : Prop :=
  0 ≤ fd ∧ c.isOpen fd = false

/-- What the system calls of a callback can return: `accept` gives a new
descriptor, and a read from a descriptor that a failed write has closed is a
fatal error. -/
def Outcome.Possible (c : Connection) : Outcome → Prop
  | .wakeup => True
  | .listen .acceptFails => True
  | .listen (.rejected fd) => c.Fresh fd
  | .listen (.accepted fd _) => c.Fresh fd
  | .debug .acceptFails => True
  | .debug (.readFails fd) => c.Fresh fd
  | .debug (.command fd _ _) => c.Fresh fd
  | .commands writeFails ending => writeFails = true → ending = .fatal

/-- `select` is called when nothing is pending and returns descriptors it was
asked about, and `firePending` calls the event it stands on. -/
def Label.Legal (c : Connection) : Label → Prop
  | .select R => c.cursor = none ∧ ∀ fd ∈ R, c.events.readFds fd = true
  | .fire o => c.cursor = some (.event o.source) ∧ o.Possible c
  | .sendResponse _ => True

/-- The step does not run into the two places that close the descriptor and
forget the rest: debug command 1 is not given while a client is connected, and
no write to the client fails outside `processCommandsCallback`. -/
def Label.Spared (c : Connection) : Label → Prop
  | .fire (.listen (.accepted _ writeFails)) => writeFails = false
  | .fire (.debug (.command _ number writeFails)) =>
      number = 1 ∨ writeFails = true → c.fdCommand < 0
  | .sendResponse writeFails => writeFails = true → c.fdCommand < 0
  | _ => True

/-! ## The states between two callbacks -/

/-- A client is connected and its event is armed. -/
structure Connection.Connected (c : Connection) : Prop where
  nonneg : 0 ≤ c.fdCommand
  isOpen : c.isOpen c.fdCommand = true
  watched : c.events.Watched .commands
  fd : c.events.fdOf .commands = some c.fdCommand
  alone : ¬ c.events.Watched .listen

/-- No client is connected and the listening event is armed. -/
structure Connection.Listening (c : Connection) : Prop where
  none : c.fdCommand = -1
  unwatched : ¬ c.events.Watched .commands
  armed : c.events.Watched .listen

/-- The descriptor of an event that stays open. -/
def Fds.fixed : Source → Option Int
  | .wakeup => some fds.wakeup
  | .listen => some fds.listen
  | .debug => some fds.debug
  | .commands => none

theorem Fds.fixed_nonneg {fds : Fds} {e : Source} {fd : Int} (h : fds.fixed e = some fd) :
    0 ≤ fd := by
  cases e with
  | wakeup => exact Option.some.inj h ▸ fds.wakeup_nonneg
  | listen => exact Option.some.inj h ▸ fds.listen_nonneg
  | debug => exact Option.some.inj h ▸ fds.debug_nonneg
  | commands => cases h

theorem Fds.fixed_inj {fds : Fds} {e a : Source} {fd : Int} (he : fds.fixed e = some fd)
    (ha : fds.fixed a = some fd) : e = a := by
  have h₁ := fds.wakeup_ne_listen
  have h₂ := fds.wakeup_ne_debug
  have h₃ := fds.listen_ne_debug
  cases e <;> cases a <;> simp_all [Fds.fixed]

/-- The part of the invariant that does not mention the client. -/
structure ConnBase (c : Connection) (pl : List Source) : Prop where
  fault : c.fault = none
  loop : LoopInv c.events pl
  cursor : c.cursor = cursorAt (firstNode .pendingList pl)
  fixed : ∀ e fd, fds.fixed e = some fd → c.events.fdOf e = some fd ∧
    c.events.persistOf e = some (e != .listen) ∧ c.isOpen fd = true
  watched : ∀ e, e = .wakeup ∨ e = .debug → c.events.Watched e

/-- With the events `pl` pending: a client is connected, or the listening event
is armed or about to be called. -/
structure ConnInv (c : Connection) (pl : List Source) : Prop where
  base : ConnBase fds c pl
  client : (c.Connected ∧ .listen ∉ pl ∧ c.events.persistOf .commands = some true ∧
      ∀ e, fds.fixed e ≠ some c.fdCommand) ∨
    (c.fdCommand = -1 ∧ ¬ c.events.Watched .commands ∧ .commands ∉ pl ∧
      (c.events.Watched .listen ↔ .listen ∉ pl))

section Steps

variable {fds} {c : Connection} {pl : List Source}

theorem card_source : Fintype.card Source < maxFdEvents := by decide

/-- Only what `ConnBase` reads matters. -/
theorem ConnBase.congr {c' : Connection} {pl' : List Source} (h : ConnBase fds c pl)
    (hfault : c'.fault = none) (hloop : LoopInv c'.events pl')
    (hcursor : c'.cursor = cursorAt (firstNode .pendingList pl'))
    (hdata : SameButIndex c.events c'.events)
    (hopen : ∀ e fd, fds.fixed e = some fd → c.isOpen fd = true → c'.isOpen fd = true)
    (hwatched : ∀ e, e = .wakeup ∨ e = .debug → c.events.Watched e → c'.events.Watched e) :
    ConnBase fds c' pl' where
  fault := hfault
  loop := hloop
  cursor := hcursor
  fixed := by
    intro e fd he
    obtain ⟨hfd, hper, hop⟩ := h.fixed e fd he
    exact ⟨hdata.fdOf_eq hfd, hdata.persistOf_eq hper, hopen e fd he hop⟩
  watched := fun e he => hwatched e he (h.watched e he)

/-- Opening or closing a descriptor that is not one of the fixed ones. -/
theorem ConnBase.sockets {isOpen : Int → Bool} {fd : Int} (h : ConnBase fds c pl)
    (hsame : ∀ e fd, fds.fixed e = some fd → isOpen fd = c.isOpen fd) :
    ConnBase fds { c with isOpen := isOpen, fdCommand := fd } pl :=
  h.congr h.fault h.loop h.cursor (SameButIndex.of_eq rfl)
    (fun e fd he hop => (hsame e fd he).trans hop) (fun _ _ hw => hw)

theorem ConnBase.fresh_ne {fd : Int} (h : ConnBase fds c pl) (hfresh : c.Fresh fd)
    {e : Source} {fd' : Int} (he : fds.fixed e = some fd') : fd' ≠ fd := by
  intro heq
  have hop := (h.fixed e fd' he).2.2
  rw [heq, hfresh.2] at hop
  cases hop

/-- Every watched descriptor is open. -/
theorem ConnInv.bit_open (h : ConnInv fds c pl) {fd : Int}
    (hbit : c.events.readFds fd = true) : c.isOpen fd = true := by
  obtain ⟨e, hw, hfd⟩ := h.base.loop.watch.bit fd hbit
  cases hfix : fds.fixed e with
  | some fd' =>
      obtain ⟨hfd', -, hop⟩ := h.base.fixed e fd' hfix
      rw [hfd'] at hfd
      exact Option.some.inj hfd ▸ hop
  | none =>
      obtain rfl : e = .commands := by
        cases e with
        | commands => rfl
        | wakeup => cases hfix
        | listen => cases hfix
        | debug => cases hfix
      rcases h.client with ⟨hc, -⟩ | ⟨-, hno, -⟩
      · rw [hc.fd] at hfd
        exact Option.some.inj hfd ▸ hc.isOpen
      · exact absurd hw hno

/-- So `select` meets no closed descriptor. -/
theorem ConnInv.selectsOpen (h : ConnInv fds c pl) : c.selectsClosed = false := by
  rw [Connection.selectsClosed, List.any_eq_false]
  intro fd _
  cases hbit : c.events.readFds fd with
  | true => simp [h.bit_open hbit]
  | false => simp

/-- The listening event is armed again. -/
theorem ConnBase.rearm (h : ConnBase fds c pl) (hnone : c.fdCommand = -1)
    (hcommands : ¬ c.events.Watched .commands) (hpending : .commands ∉ pl)
    (hlisten : ¬ c.events.Watched .listen) (hlist : .listen ∉ pl) :
    ∃ c', c.rilEventAddWakeup .listen = some c' ∧ ConnInv fds c' pl := by
  obtain ⟨hfd, hper, hop⟩ := h.fixed .listen fds.listen rfl
  have hfresh : ∀ a, c.events.Watched a → c.events.fdOf a ≠ some fds.listen := by
    intro a hw heq
    cases hfix : fds.fixed a with
    | some fd =>
        have hafd := (h.fixed a fd hfix).1
        rw [hafd] at heq
        have hal := Fds.fixed_inj hfix (Option.some.inj heq ▸ rfl : fds.fixed .listen = some fd)
        exact hlisten (hal ▸ hw)
    | none =>
        cases a with
        | commands => exact hcommands hw
        | wakeup => cases hfix
        | listen => cases hfix
        | debug => cases hfix
  obtain ⟨s', hrun, hloop, hdata, hwatch⟩ :=
    h.loop.add card_source hfd fds.listen_nonneg hlisten hfresh
  refine ⟨{ c with events := s' }, by simp [Connection.rilEventAddWakeup, hrun], ?_, ?_⟩
  · exact h.congr h.fault hloop h.cursor hdata (fun _ _ _ hop => hop)
      (fun e _ hw => (hwatch e).mpr (Or.inl hw))
  · right
    refine ⟨hnone, ?_, hpending, ?_⟩
    · intro hw
      rcases (hwatch .commands).mp hw with hw | heq
      · exact hcommands hw
      · cases heq
    · simp [hwatch, hlist]

theorem ConnInv.select {R : Finset Int} (h : ConnInv fds c pl)
    (hlegal : (Label.select R).Legal c) :
    ∃ c' pl', connStep fds c (.select R) = some c' ∧ ConnInv fds c' pl' := by
  obtain ⟨hcursor, hR⟩ := hlegal
  obtain rfl : pl = [] := by
    cases pl with
    | nil => rfl
    | cons e pl =>
        rw [h.base.cursor] at hcursor
        cases hcursor
  have hopen := h.selectsOpen
  obtain ⟨s', hrun, hloop, hdata, hwatch⟩ := h.base.loop.readies hR
  obtain ⟨head, hhead⟩ := Option.isSome_iff_exists.mp (ring_live hloop.ring List.mem_cons_self)
  have hnext := ring_next_head hloop.ring
  rw [next_of_mem hhead] at hnext
  have hkeep : ∀ e, c.events.Watched e → c.events.persistOf e = some true → s'.Watched e := by
    intro e hw hper
    refine (hwatch e).mpr ⟨hw, ?_⟩
    intro hrem
    rw [hper] at hrem
    exact absurd hrem.2 (by simp)
  refine ⟨{ c with
      events := s'
      cursor := cursorAt (firstNode .pendingList (c.events.ready (bitsOf R))) },
    c.events.ready (bitsOf R), ?_, ?_, ?_⟩
  · simp [connStep, h.base.fault, hopen, hrun, hhead, hnext]
  · refine h.base.congr h.base.fault hloop rfl hdata (fun _ _ _ hop => hop) ?_
    intro e he hw
    apply hkeep e hw
    rcases he with rfl | rfl
    · exact (h.base.fixed .wakeup fds.wakeup rfl).2.1
    · exact (h.base.fixed .debug fds.debug rfl).2.1
  · rcases h.client with ⟨hc, -, hper, hfixed⟩ | ⟨hnone, hno, -, hlisten⟩
    · left
      refine ⟨⟨hc.nonneg, hc.isOpen, hkeep .commands hc.watched hper, hdata.fdOf_eq hc.fd,
        fun hw => hc.alone ((hwatch .listen).mp hw).1⟩, ?_, hdata.persistOf_eq hper, hfixed⟩
      intro hready
      exact hc.alone (mem_ready.mp hready).1
    · right
      have hw : c.events.Watched .listen := hlisten.mpr (by simp)
      have hper := (h.base.fixed .listen fds.listen rfl).2.1
      refine ⟨hnone, fun hw => hno ((hwatch .commands).mp hw).1,
        fun hready => hno (mem_ready.mp hready).1, ?_⟩
      rw [hwatch]
      simp [hw, hper]

theorem ConnInv.reopen (h : ConnInv fds c pl) {isOpen : Int → Bool}
    (hopen : ∀ fd, 0 ≤ fd → c.isOpen fd = true → isOpen fd = true) :
    ConnInv fds { c with isOpen := isOpen } pl where
  base := h.base.congr h.base.fault h.base.loop h.base.cursor (SameButIndex.of_eq rfl)
    (fun _ fd he hop => hopen fd (Fds.fixed_nonneg he) hop) (fun _ _ hw => hw)
  client := by
    rcases h.client with ⟨hc, hrest⟩ | hl
    · exact Or.inl ⟨⟨hc.nonneg, hopen _ hc.nonneg hc.isOpen, hc.watched, hc.fd, hc.alone⟩, hrest⟩
    · exact Or.inr hl

/-- A `sendResponse` whose write does not fail changes nothing. -/
theorem sendResponse_spared {writeFails : Bool} (h : writeFails = true → c.fdCommand < 0) :
    c.sendResponse writeFails = c := by
  unfold Connection.sendResponse
  by_cases hneg : c.fdCommand < 0
  · rw [if_pos hneg]
  · rw [if_neg hneg]
    cases hw : writeFails with
    | true => exact absurd (h hw) hneg
    | false => rfl

theorem debug_keeps {o : DebugOutcome} (h : ConnInv fds c pl)
    (hpossible : (Outcome.debug o).Possible c)
    (hspared : (Label.fire (.debug o)).Spared c) : ConnInv fds (debugCallback o c) pl := by
  cases o with
  | acceptFails => exact h
  | readFails fd =>
      refine h.reopen ?_
      intro x _ hx
      by_cases hxf : x = fd
      · rw [hxf, Function.update_self]
      · rw [Function.update_of_ne hxf]
        exact hx
  | command fd number writeFails =>
      have hsend : (c.open fd).sendResponse writeFails = c.open fd :=
        sendResponse_spared (fun hw => hspared (Or.inr hw))
      have hne : ∀ x, c.isOpen x = true → x ≠ fd := by
        intro x hx heq
        rw [heq, hpossible.2] at hx
        cases hx
      by_cases hone : number = 1
      · have hneg := hspared (Or.inl hone)
        have hminus : c.fdCommand = -1 := by
          rcases h.client with ⟨hc, -⟩ | ⟨hnone, -⟩
          · exact absurd hc.nonneg (by omega)
          · exact hnone
        have hcall : debugCallback (.command fd number writeFails) c =
            { c with isOpen := Function.update (Function.update
              (Function.update c.isOpen fd true) (-1) false) fd false } := by
          simp only [debugCallback, hsend, hone, if_true]
          simp only [Connection.open, Connection.close, hminus]
        rw [hcall]
        refine h.reopen ?_
        intro x hpos hx
        have hx1 : x ≠ -1 := by omega
        rw [Function.update_of_ne (hne x hx), Function.update_of_ne hx1,
          Function.update_of_ne (hne x hx)]
        exact hx
      · have hcall : debugCallback (.command fd number writeFails) c =
            { c with isOpen := Function.update (Function.update c.isOpen fd true) fd false } := by
          simp only [debugCallback, hsend, hone, if_false]
          rfl
        rw [hcall]
        refine h.reopen ?_
        intro x _ hx
        rw [Function.update_of_ne (hne x hx), Function.update_of_ne (hne x hx)]
        exact hx

/-- A client whose event is armed behind an accepted connection. -/
theorem accepted_keeps {fd : Int} (h : ConnBase fds c pl) (hfresh : c.Fresh fd)
    (hcommands : ¬ c.events.Watched .commands) (hpending : .commands ∉ pl)
    (hlisten : ¬ c.events.Watched .listen) (hlist : .listen ∉ pl) :
    ∃ c', ({ c.open fd with
        fdCommand := fd
        events := rilEventSet .commands fd true 3 0 c.events } : Connection).rilEventAddWakeup
          .commands = some c' ∧ ConnInv fds c' pl := by
  have hunused : ∀ a, c.events.Watched a → c.events.fdOf a ≠ some fd := by
    intro a hw heq
    cases hfix : fds.fixed a with
    | some fd' =>
        rw [(h.fixed a fd' hfix).1] at heq
        exact h.fresh_ne hfresh hfix (Option.some.inj heq)
    | none =>
        cases a with
        | commands => exact hcommands hw
        | wakeup => cases hfix
        | listen => cases hfix
        | debug => cases hfix
  obtain ⟨s', hrun, hloop, hfd, hper, hother, hwatch⟩ :=
    h.loop.arm card_source hcommands hpending hfresh.1 hunused true 3 0
  refine ⟨{ c.open fd with fdCommand := fd, events := s' },
    by simp [Connection.rilEventAddWakeup, hrun], ⟨h.fault, hloop, h.cursor, ?_, ?_⟩,
    Or.inl ⟨⟨hfresh.1, Function.update_self _ _ _, (hwatch .commands).mpr (Or.inr rfl), hfd, ?_⟩,
      hlist, hper, fun e he => h.fresh_ne hfresh he rfl⟩⟩
  · intro e fd' he
    have hne : e ≠ .commands := by
      intro heq
      rw [heq] at he
      cases he
    obtain ⟨hefd, heper, hop⟩ := h.fixed e fd' he
    obtain ⟨hefd, heper⟩ := hother e fd' _ hne hefd heper
    refine ⟨hefd, heper, ?_⟩
    show Function.update c.isOpen fd true fd' = true
    rw [Function.update_of_ne (h.fresh_ne hfresh he)]
    exact hop
  · intro e he
    exact (hwatch e).mpr (Or.inl (h.watched e he))
  · intro hw
    rcases (hwatch .listen).mp hw with hw | heq
    · exact hlisten hw
    · cases heq

theorem listen_keeps {o : ListenOutcome} (h : ConnBase fds c pl) (hnone : c.fdCommand = -1)
    (hcommands : ¬ c.events.Watched .commands) (hpending : .commands ∉ pl)
    (hlisten : ¬ c.events.Watched .listen) (hlist : .listen ∉ pl)
    (hpossible : (Outcome.listen o).Possible c)
    (hspared : (Label.fire (.listen o)).Spared c) :
    ∃ c', listenCallback fds fds.listen o c = some c' ∧ ConnInv fds c' pl := by
  have hassert : c.fdCommand < 0 ∧ fds.listen = fds.listen := ⟨by omega, rfl⟩
  unfold listenCallback
  rw [if_neg (fun hno => hno hassert)]
  cases o with
  | acceptFails =>
      exact (h.sockets (fun _ _ _ => rfl)).rearm rfl hcommands hpending
        hlisten hlist
  | rejected fd =>
      have hsame : ∀ e fd', fds.fixed e = some fd' →
          Function.update (Function.update c.isOpen fd true) fd false fd' = c.isOpen fd' := by
        intro e fd' he
        rw [Function.update_of_ne (h.fresh_ne hpossible he),
          Function.update_of_ne (h.fresh_ne hpossible he)]
      exact (h.sockets hsame).rearm rfl hcommands hpending hlisten hlist
  | accepted fd writeFails =>
      obtain ⟨c', hrun, h'⟩ := accepted_keeps h hpossible hcommands hpending hlisten hlist
      have hsend : c'.sendResponse writeFails = c' := by
        apply sendResponse_spared
        intro hw
        rw [show writeFails = false from hspared] at hw
        cases hw
      have hbind := congrArg (fun r => r.bind fun c => some (c.sendResponse writeFails)) hrun
      refine ⟨c', hbind.trans ?_, h'⟩
      simp only [Option.bind_some, hsend]

/-- The end of a connection, whether or not a write has failed before. -/
theorem commands_keeps {writeFails : Bool} {ending : Ending} (h : ConnInv fds c pl)
    (hc : c.Connected) (hfixed : ∀ e, fds.fixed e ≠ some c.fdCommand) (hlist : .listen ∉ pl)
    (hpending : .commands ∉ pl) (hpossible : writeFails = true → ending = .fatal) :
    ∃ c', processCommandsCallback c.fdCommand writeFails ending c = some c' ∧
      ConnInv fds c' pl := by
  unfold processCommandsCallback
  rw [if_neg (fun hne => hne rfl)]
  by_cases hagain : ending = .again
  · have hsend : c.sendResponse writeFails = c := by
      apply sendResponse_spared
      intro hw
      rw [hpossible hw] at hagain
      cases hagain
    exact ⟨c, by simp [hagain, hsend], h⟩
  · obtain ⟨s', hrun, hloop, hdata, hwatch⟩ := h.base.loop.del hc.watched
    have hsend : ∃ isOpen, c.sendResponse writeFails = { c with isOpen := isOpen } ∧
        ∀ fd, fd ≠ c.fdCommand → isOpen fd = c.isOpen fd := by
      unfold Connection.sendResponse
      by_cases hneg : c.fdCommand < 0
      · exact ⟨c.isOpen, by simp [hneg], fun _ _ => rfl⟩
      · cases hw : writeFails with
        | true =>
            refine ⟨Function.update c.isOpen c.fdCommand false, by simp [hneg, Connection.close],
              fun fd hne => Function.update_of_ne hne _ _⟩
        | false => exact ⟨c.isOpen, by simp [hneg], fun _ _ => rfl⟩
    obtain ⟨isOpen, hsend, hsame⟩ := hsend
    have hbase : ConnBase fds { c with
        events := s'
        fdCommand := -1
        isOpen := Function.update isOpen c.fdCommand false } pl := by
      refine h.base.congr h.base.fault hloop h.base.cursor hdata ?_ ?_
      · intro e fd he hop
        have hne : fd ≠ c.fdCommand := fun heq => hfixed e (heq ▸ he)
        show Function.update isOpen c.fdCommand false fd = true
        rw [Function.update_of_ne hne, hsame fd hne]
        exact hop
      · intro e he hw
        refine (hwatch e).mpr ⟨hw, ?_⟩
        rcases he with rfl | rfl
        · exact Source.noConfusion
        · exact Source.noConfusion
    obtain ⟨c', hadd, h'⟩ := hbase.rearm rfl (fun hw => ((hwatch .commands).mp hw).2 rfl)
      hpending (fun hw => hc.alone ((hwatch .listen).mp hw).1) hlist
    refine ⟨c', ?_, h'⟩
    simp only [hsend, hagain, Connection.close, hrun, if_false, Option.bind_eq_bind,
      Option.bind_some]
    exact hadd

/-- **One callback.**  What it leaves is again a state between two callbacks. -/
theorem ConnInv.fire {o : Outcome} (h : ConnInv fds c pl)
    (hlegal : (Label.fire o).Legal c) (hspared : (Label.fire o).Spared c) :
    ∃ c' pl', connStep fds c (.fire o) = some c' ∧ ConnInv fds c' pl' := by
  obtain ⟨hcursor, hpossible⟩ := hlegal
  obtain ⟨pl', rfl⟩ : ∃ pl', pl = o.source :: pl' := by
    cases pl with
    | nil =>
        rw [h.base.cursor] at hcursor
        cases hcursor
    | cons e pl' =>
        rw [h.base.cursor] at hcursor
        cases hcursor
        exact ⟨pl', rfl⟩
  have hnot : o.source ∉ pl' := by
    have hnd := nodup_of_map_event (List.nodup_cons.mp h.base.loop.ring.nodup).2
    exact (List.nodup_cons.mp hnd).1
  obtain ⟨s', v, hrun, hloop, hv, hdata, hwatch⟩ := h.base.loop.fire
  let c₁ : Connection :=
    { c with events := s', cursor := cursorAt (firstNode .pendingList pl') }
  have hstep : connStep fds c (.fire o) = callback fds o.source v.fd o c₁ := by
    simp [connStep, h.base.fault, hcursor, hv, hrun, c₁]
  have hbase : ConnBase fds c₁ pl' := h.base.congr h.base.fault hloop rfl hdata
    (fun _ _ _ hop => hop) (fun e _ hw => (hwatch e).mpr hw)
  have hfd : c.events.fdOf o.source = some v.fd := by simp [State.fdOf, State.data, hv]
  have hconn : c.Connected → c₁.Connected := fun hc =>
    ⟨hc.nonneg, hc.isOpen, (hwatch _).mpr hc.watched, hdata.fdOf_eq hc.fd,
      fun hw => hc.alone ((hwatch _).mp hw)⟩
  have hinv : o.source ≠ .listen → ConnInv fds c₁ pl' := by
    intro hne
    refine ⟨hbase, ?_⟩
    rcases h.client with ⟨hc, hlist, hper, hfixed⟩ | ⟨hnone, hno, hpend, hlisten⟩
    · exact Or.inl ⟨hconn hc, fun hm => hlist (List.mem_cons_of_mem _ hm),
        hdata.persistOf_eq hper, hfixed⟩
    · refine Or.inr ⟨hnone, fun hw => hno ((hwatch _).mp hw),
        fun hm => hpend (List.mem_cons_of_mem _ hm), ?_⟩
      rw [hwatch, hlisten, List.mem_cons]
      simp [Ne.symm hne]
  rw [hstep]
  cases o with
  | wakeup => exact ⟨c₁, pl', rfl, hinv (by simp [Outcome.source])⟩
  | debug o =>
      exact ⟨_, pl', rfl, debug_keeps (hinv (by simp [Outcome.source])) hpossible hspared⟩
  | commands writeFails ending =>
      rcases h.client with ⟨hc, hlist, -, hfixed⟩ | ⟨-, -, hpend, -⟩
      · obtain ⟨c', hcall, h'⟩ := commands_keeps
          (hinv (by simp [Outcome.source])) (hconn hc) hfixed
          (fun hm => hlist (List.mem_cons_of_mem _ hm)) hnot hpossible
        have hvfd : v.fd = c₁.fdCommand := Option.some.inj (hfd.symm.trans hc.fd)
        exact ⟨c', pl', by rw [hvfd]; exact hcall, h'⟩
      · exact absurd List.mem_cons_self hpend
  | listen o =>
      rcases h.client with ⟨-, hlist, -⟩ | ⟨hnone, hno, hpend, hlisten⟩
      · exact absurd List.mem_cons_self hlist
      · obtain ⟨c', hcall, h'⟩ := listen_keeps (o := o) hbase hnone
          (fun hw => hno ((hwatch _).mp hw)) (fun hm => hpend (List.mem_cons_of_mem _ hm))
          (fun hw => hlisten.mp ((hwatch _).mp hw) List.mem_cons_self) hnot hpossible hspared
        have hvfd : v.fd = fds.listen :=
          Option.some.inj (hfd.symm.trans (h.base.fixed .listen fds.listen rfl).1)
        exact ⟨c', pl', by rw [hvfd]; exact hcall, h'⟩

theorem connStep_keeps {l : Label} (h : ConnInv fds c pl) (hlegal : l.Legal c)
    (hspared : l.Spared c) : ∃ c' pl', connStep fds c l = some c' ∧ ConnInv fds c' pl' := by
  cases l with
  | select R => exact h.select hlegal
  | fire o => exact h.fire hlegal hspared
  | sendResponse writeFails =>
      refine ⟨c, pl, ?_, h⟩
      simp [connStep, h.base.fault, sendResponse_spared hspared]

end Steps

/-- `RIL_register` leaves the listening event armed. -/
theorem start_listening : ∃ c, Connection.start fds = some c ∧ ConnInv fds c [] := by
  have hinit : LoopInv (rilEventInit (State.blank : State Source)) [] :=
    ⟨blank_watch.1, (start_run State.blank).inv.rings.pending,
      (start_run State.blank).inv.rings.timer⟩
  have hnone : ∀ e, ¬ (rilEventInit (State.blank : State Source)).Watched e := by
    intro e hw
    obtain ⟨i, hi⟩ := hw
    cases hi
  obtain ⟨s₁, hrun₁, h₁, hfd₁, hper₁, -, hw₁⟩ := hinit.arm card_source (hnone .wakeup)
    (by simp) fds.wakeup_nonneg (fun a ha => absurd ha (hnone a)) true 0 0
  have hlisten₁ : ¬ s₁.Watched .listen := by simp [hw₁, hnone]
  obtain ⟨s₂, hrun₂, h₂, hfd₂, hper₂, hother₂, hw₂⟩ := h₁.arm card_source hlisten₁
    (by simp) fds.listen_nonneg (by
      intro a ha
      obtain rfl : a = .wakeup := by simpa [hw₁, hnone] using ha
      rw [hfd₁]
      exact fun heq => fds.wakeup_ne_listen (Option.some.inj heq)) false 1 0
  obtain ⟨hwfd₂, hwper₂⟩ := hother₂ .wakeup _ _ (by simp) hfd₁ hper₁
  have hdebug₂ : ¬ s₂.Watched .debug := by simp [hw₂, hw₁, hnone]
  obtain ⟨s₃, hrun₃, h₃, hfd₃, hper₃, hother₃, hw₃⟩ := h₂.arm card_source hdebug₂
    (by simp) fds.debug_nonneg (by
      intro a ha
      have ha : a = .wakeup ∨ a = .listen := by simpa [hw₂, hw₁, hnone] using ha
      rcases ha with rfl | rfl
      · rw [hwfd₂]
        exact fun heq => fds.wakeup_ne_debug (Option.some.inj heq)
      · rw [hfd₂]
        exact fun heq => fds.listen_ne_debug (Option.some.inj heq)) true 2 0
  obtain ⟨hwfd₃, hwper₃⟩ := hother₃ .wakeup _ _ (by simp) hwfd₂ hwper₂
  obtain ⟨hlfd₃, hlper₃⟩ := hother₃ .listen _ _ (by simp) hfd₂ hper₂
  refine ⟨⟨s₃, -1, fun fd => fd == fds.wakeup || fd == fds.listen || fd == fds.debug,
    none, none⟩, ?_, ⟨rfl, h₃, rfl, ?_, ?_⟩, Or.inr ⟨rfl, ?_, by simp, ?_⟩⟩
  · simp only [Connection.start, applyAll, registerOps, exec, ApiOp.apply, Option.bind_some,
      hrun₁, hrun₂, hrun₃, Option.bind_eq_bind]
  · intro e fd he
    cases e with
    | wakeup =>
        cases he
        exact ⟨hwfd₃, hwper₃, by simp⟩
    | listen =>
        cases he
        exact ⟨hlfd₃, hlper₃, by simp⟩
    | debug =>
        cases he
        exact ⟨hfd₃, hper₃, by simp⟩
    | commands => cases he
  · intro e he
    rcases he with rfl | rfl
    · simp [hw₃, hw₂, hw₁]
    · simp [hw₃]
  · simp [hw₃, hw₂, hw₁, hnone]
  · simp [hw₃, hw₂]

/-! ## Whole runs -/

/-- Between two callbacks a client is connected, or the listening event is
armed or its callback is still to come. -/
def Connection.Settled (c : Connection) : Prop :=
  c.Connected ∨ (c.fdCommand = -1 ∧ ¬ c.events.Watched .commands ∧
    (c.events.Watched .listen ∨ InList c.events .pendingList .listen))

/-- What holds of a state between two callbacks: no assertion has failed and
`select` was not called on a closed descriptor, the connection is settled, and
with nothing pending it is in one of the two proper states, with every
descriptor that `select` looks at open. -/
structure ConnSound (c : Connection) : Prop where
  fault : c.fault = none
  settled : c.Settled
  idle : c.cursor = none → (c.Connected ∨ c.Listening) ∧ c.selectsClosed = false ∧
    ∀ fd, c.events.readFds fd = true → c.isOpen fd = true

variable {fds}

theorem ConnInv.sound {c : Connection} {pl : List Source} (h : ConnInv fds c pl) :
    ConnSound c where
  fault := h.base.fault
  settled := by
    rcases h.client with ⟨hc, -⟩ | ⟨hnone, hno, -, hlisten⟩
    · exact Or.inl hc
    · refine Or.inr ⟨hnone, hno, ?_⟩
      by_cases hm : .listen ∈ pl
      · exact Or.inr ⟨pl, h.base.loop.ring, hm⟩
      · exact Or.inl (hlisten.mpr hm)
  idle := by
    intro hcursor
    obtain rfl : pl = [] := by
      cases pl with
      | nil => rfl
      | cons e pl =>
          rw [h.base.cursor] at hcursor
          cases hcursor
    refine ⟨?_, ?_, fun fd hbit => h.bit_open hbit⟩
    · rcases h.client with ⟨hc, -⟩ | ⟨hnone, hno, -, hlisten⟩
      · exact Or.inl hc
      · exact Or.inr ⟨hnone, hno, hlisten.mpr (by simp)⟩
    · exact h.selectsOpen

variable (fds)

/-- **The command connection.**  In every run that keeps away from debug
command 1 while a client is connected, and from failed writes outside
`processCommandsCallback`, the state after each callback is sound. -/
theorem connection_every_run (labels : List Label) (c₀ : Connection)
    (hstart : Connection.start fds = some c₀)
    (hrun : Along (connStep fds) (fun c l => l.Legal c ∧ l.Spared c) c₀ labels) :
    ∃ c, exec (connStep fds) c₀ labels = some c ∧ ConnSound c := by
  obtain ⟨c₁, hstart₁, h₁⟩ := start_listening fds
  obtain rfl : c₀ = c₁ := Option.some.inj (hstart.symm.trans hstart₁)
  obtain ⟨c, hexec, pl, h⟩ := exec_progress (fun c => ∃ pl, ConnInv fds c pl)
    (fun c l hc hl => by
      obtain ⟨pl, hpl⟩ := hc
      obtain ⟨c', pl', hstep, h'⟩ := connStep_keeps hpl hl.1 hl.2
      exact ⟨c', hstep, pl', h'⟩) ⟨[], h₁⟩ hrun
  exact ⟨c, hexec, h.sound⟩

def someFds : Fds :=
  ⟨3, 4, 5, by decide, by decide, by decide, by decide, by decide, by decide⟩

/-- A client connects, is closed by the peer, and another one connects. -/
def reconnect : List Label :=
  [.select {4}, .fire (.listen (.accepted 9 false)), .sendResponse false, .select {9},
    .fire (.commands false .endOfStream), .select {4}, .fire (.listen (.accepted 9 false))]

theorem connection_reconnect :
    ∃ c₀ c, Connection.start someFds = some c₀ ∧
      exec (connStep someFds) c₀ reconnect = some c ∧ ConnSound c := by
  have hstart : Connection.start someFds =
      some ((Connection.start someFds).get rfl) := (Option.some_get _).symm
  have hrun : Along (connStep someFds) (fun c l => l.Legal c ∧ l.Spared c)
      ((Connection.start someFds).get rfl) reconnect := by
    refine ⟨⟨⟨rfl, by decide⟩, trivial⟩, fun _ h₁ => ?_⟩
    cases h₁
    refine ⟨⟨⟨rfl, by decide, by decide⟩, rfl⟩, fun _ h₂ => ?_⟩
    cases h₂
    refine ⟨⟨trivial, fun h => by cases h⟩, fun _ h₃ => ?_⟩
    cases h₃
    refine ⟨⟨⟨rfl, by decide⟩, trivial⟩, fun _ h₄ => ?_⟩
    cases h₄
    refine ⟨⟨⟨rfl, fun h => by cases h⟩, trivial⟩, fun _ h₅ => ?_⟩
    cases h₅
    refine ⟨⟨⟨rfl, by decide⟩, trivial⟩, fun _ h₆ => ?_⟩
    cases h₆
    exact ⟨⟨⟨rfl, by decide, by decide⟩, rfl⟩, fun _ _ => trivial⟩
  obtain ⟨c, hexec, hc⟩ := connection_every_run someFds reconnect _ hstart hrun
  exact ⟨_, c, hstart, hexec, hc⟩

/-- Debug command 1 while a client is connected. -/
def debugOff : List Label :=
  [.select {4}, .fire (.listen (.accepted 9 false)), .select {5},
    .fire (.debug (.command 10 1 false))]

/-- A write to the connected client fails. -/
def brokenPipe : List Label :=
  [.select {4}, .fire (.listen (.accepted 9 false)), .sendResponse true]

/-- The debug command leaves `s_commands_event` armed and `s_listen_event`
unarmed, a failed write leaves a closed `s_fdCommand`, and in both states the
next `select` meets a closed descriptor. -/
theorem connection_half_closed :
    ∃ c₀ c c', Connection.start someFds = some c₀ ∧
      Along (connStep someFds) (fun c l => l.Legal c) c₀ debugOff ∧
      exec (connStep someFds) c₀ debugOff = some c ∧ c.cursor = none ∧
      ¬ (c.Connected ∨ c.Listening) ∧
      (connStep someFds c (.select ∅)).map (·.fault) = some (some .selectClosed) ∧
      Along (connStep someFds) (fun c l => l.Legal c) c₀ brokenPipe ∧
      exec (connStep someFds) c₀ brokenPipe = some c' ∧ c'.cursor = none ∧
      ¬ (c'.Connected ∨ c'.Listening) ∧
      (connStep someFds c' (.select ∅)).map (·.fault) = some (some .selectClosed) := by
  refine ⟨(Connection.start someFds).get rfl, _, _, (Option.some_get _).symm, ?_, rfl, rfl, ?_,
    rfl, ?_, rfl, rfl, ?_, rfl⟩
  · refine ⟨⟨rfl, by decide⟩, fun _ h₁ => ?_⟩
    cases h₁
    refine ⟨⟨rfl, by decide, by decide⟩, fun _ h₂ => ?_⟩
    cases h₂
    refine ⟨⟨rfl, by decide⟩, fun _ h₃ => ?_⟩
    cases h₃
    exact ⟨⟨rfl, by decide, by decide⟩, fun _ _ => trivial⟩
  · intro hor
    rcases hor with hc | hl
    · exact absurd hc.nonneg (by decide)
    · exact absurd hl.armed (by decide)
  · refine ⟨⟨rfl, by decide⟩, fun _ h₁ => ?_⟩
    cases h₁
    refine ⟨⟨rfl, by decide, by decide⟩, fun _ h₂ => ?_⟩
    cases h₂
    exact ⟨trivial, fun _ _ => trivial⟩
  · intro hor
    rcases hor with hc | hl
    · exact absurd hc.isOpen (by decide)
    · exact absurd hl.none (by decide)

end Libril
