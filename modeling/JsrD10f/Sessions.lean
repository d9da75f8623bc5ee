import JsrD10f.RequestRuns

/-!
# Client sessions and the threads that answer

The event-loop thread accepts a client, checks its credentials, reads its
requests and closes the connection; vendor threads answer requests and send
notifications at the same time.  They share the list of pending requests and
`s_fdCommand`, which `listenCallback` sets as soon as `accept` returns and
which `sendResponseRaw` reads without a lock.

A connection is known by the order of its `accept`.  `peer` says which
connection an open descriptor leads to, so that a descriptor number can come
again for another client.  `origin` is the connection a request was read
from, and `writes` and `parsed` record what was written and what was read; they
are not in the source.  `s_writeMutex` is left out: it only takes interleavings
away.
-/

namespace Libril

open Runs

/-- Where the event-loop thread stands between `accept` and the next one:
behind `accept`, behind the credential lookup, serving the client, behind
`close` and behind the reset of `s_fdCommand`. -/
inductive Phase where
  | listening
  | accepted
  | decided (isPhone : Bool)
  | serving
  | closed
  | reset
deriving DecidableEq, Repr

/-- Where a thread stands in `sendResponseRaw`; `fd` is its local variable. -/
inductive SendPc where
  | start
  | test (fd : Int)
  | header (fd : Int)
  | data (fd : Int)
deriving DecidableEq, Repr

/-- A `sendResponse` in progress.  `frame` is the serial number of the request
it answers, or `none` for an unsolicited response. -/
structure Sender where
  frame : Option Nat
  pc : SendPc
deriving DecidableEq, Repr

/-- A `write` on an open descriptor, and whether its peer had been verified. -/
structure Write where
  frame : Option Nat
  conn : Nat
  verified : Bool
deriving DecidableEq, Repr

structure Server (α τ : Type) where
  book : Bookkeeping α τ
  sender : τ → Option Sender
  phase : Phase
  fdCommand : Int
  peer : Int → Option Nat
  accepted : Nat
  verified : Nat → Bool
  origin : Nat → Option Nat
  writes : List Write
  parsed : List (Nat × Bool)

def Server.start {α τ : Type} : Server α τ where
  book := Bookkeeping.start
  sender := fun _ => none
  phase := .listening
  fdCommand := -1
  peer := fun _ => none
  accepted := 0
  verified := fun _ => false
  origin := fun _ => none
  writes := []
  parsed := []

/-- One step of a thread.  The first eight belong to the event-loop thread:
`accept`, the credential lookup, the decision, `close` at the end of a
connection, `s_fdCommand = -1`, `onCommandsSocketClosed`, `processCommandBuffer`
on a record from the client and `issueLocalRequest`. -/
inductive Act (α τ : Type) where
  | accept (fd : Int)
  | lookup (isPhone : Bool)
  | decide
  | close
  | reset
  | cancel
  | read (a : α) (request : Nat) (token : Int)
  | issueLocal (a : α) (request : Nat)
  | link
  | complete (t : τ) (token : Option α)
  | proceed (t : τ)
  | unsolicited (t : τ)
  | send (t : τ) (ok : Bool)
deriving DecidableEq, Repr

variable {α τ : Type} [DecidableEq α] [DecidableEq τ]

/-- A `write` in `blockingWrite`.  On a closed descriptor it fails; an error
closes the descriptor and ends the send. -/
def Server.write (s : Server α τ) (t : τ) (frame : Option Nat) (fd : Int) (ok : Bool)
    (next : Option Sender) : Server α τ :=
  match s.peer fd with
  | none => { s with sender := Function.update s.sender t none }
  | some k =>
      let s := { s with writes := ⟨frame, k, s.verified k⟩ :: s.writes }
      if ok then { s with sender := Function.update s.sender t next }
      else { s with
        peer := Function.update s.peer fd none
        sender := Function.update s.sender t none }

/-- The next step of `sendResponseRaw`.  At the test, `ok` is that the frame is
not larger than `MAX_COMMAND_BYTES`. -/
def Server.send (s : Server α τ) (t : τ) (ok : Bool) : Option (Server α τ) :=
  match s.sender t with
  | none => none
  | some ⟨frame, .start⟩ =>
      some { s with sender := Function.update s.sender t (some ⟨frame, .test s.fdCommand⟩) }
  | some ⟨frame, .test fd⟩ =>
      if s.fdCommand < 0 ∨ ok = false then
        some { s with sender := Function.update s.sender t none }
      else some { s with sender := Function.update s.sender t (some ⟨frame, .header fd⟩) }
  | some ⟨frame, .header fd⟩ => some (s.write t frame fd ok (some ⟨frame, .data fd⟩))
  | some ⟨frame, .data fd⟩ => some (s.write t frame fd ok none)

/-- `RIL_onRequestComplete` behind the dequeue.  Handing the response to
`sendResponse` begins a send, and the record is freed after it. -/
def Server.proceed (s : Server α τ) (t : τ) : Option (Server α τ) := do
  let book ← s.book.proceed t
  match s.book.held t with
  | some (a, .sending) => do
      let v ← s.book.requests.heap a
      some { s with
        book := book
        sender := Function.update s.sender t (some ⟨some v.ghost, .start⟩) }
  | _ => some { s with book := book }

/-- The move of the request bookkeeping that an act makes, run on the shared
list. -/
def Server.run (s : Server α τ) (fuel : Nat) (move : Move α τ) : Option (Server α τ) := do
  let book ← bookStep fuel s.book move
  some { s with book := book }

def serverStep (main : τ) (fuel : Nat) (s : Server α τ) : Act α τ → Option (Server α τ)
  | .accept fd =>
      some { s with
        phase := .accepted
        fdCommand := fd
        peer := Function.update s.peer fd (some s.accepted)
        accepted := s.accepted + 1 }
  | .lookup isPhone =>
      some { s with
        phase := .decided isPhone
        verified := Function.update s.verified (s.accepted - 1) isPhone }
  | .decide =>
      match s.phase with
      | .decided true => some { s with phase := .serving }
      | .decided false =>
          some { s with phase := .closed, peer := Function.update s.peer s.fdCommand none }
      | _ => none
  | .close => some { s with phase := .closed, peer := Function.update s.peer s.fdCommand none }
  | .reset => some { s with phase := .reset, fdCommand := -1 }
  | .cancel => do
      let s ← s.run fuel (.onCommandsSocketClosed main)
      some { s with phase := .listening }
  | .read a request token => do
      let k ← s.peer s.fdCommand
      let s' ← s.run fuel (.processCommandBuffer main a request token)
      some { s' with
        origin := Function.update s.origin s.book.serial (some k)
        parsed := (k, s.verified k) :: s.parsed }
  | .issueLocal a request => s.run fuel (.issueLocalRequest main a request)
  | .link => s.run fuel (.link main)
  | .complete t token => s.run fuel (.onRequestComplete t token)
  | .proceed t => s.proceed t
  | .unsolicited t =>
      some { s with sender := Function.update s.sender t (some ⟨none, .start⟩) }
  | .send t ok => s.send t ok

/-- The thread is inside no operation. -/
def Server.Idle (s : Server α τ) (t : τ) : Prop :=
  s.book.held t = none ∧ s.sender t = none

/-- The acts that can happen: each in its place in the program of its thread,
with a fresh descriptor from `accept` and a fresh address from `calloc`. -/
def Act.Legal (main : τ) (s : Server α τ) : Act α τ → Prop
  | .accept fd => s.phase = .listening ∧ s.Idle main ∧ 0 ≤ fd ∧ s.peer fd = none
  | .lookup _ => s.phase = .accepted
  | .decide => ∃ isPhone, s.phase = .decided isPhone
  | .close => s.phase = .serving ∧ s.Idle main
  | .reset => s.phase = .closed
  | .cancel => s.phase = .reset ∧ s.Idle main
  | .read a _ _ => s.phase = .serving ∧ s.Idle main ∧ s.book.requests.heap a = none ∧
      (s.peer s.fdCommand).isSome
  | .issueLocal a _ => s.Idle main ∧ s.book.requests.heap a = none
  | .link => ∃ a, s.book.held main = some (a, .linking)
  | .complete t _ => s.Idle t
  | .proceed t => ∃ a stage, s.book.held t = some (a, stage) ∧ stage ≠ .linking ∧
      s.sender t = none
  | .unsolicited t => s.Idle t
  | .send t _ => (s.sender t).isSome

/-- A thread is answering: it has dequeued a request that is neither local nor
cancelled and has not finished its send. -/
def Server.Answering (s : Server α τ) (t : τ) : Prop :=
  (∃ a v, s.book.requests.heap a = some v ∧
    (s.book.held t = some (a, .sending) ∨ v.isLocal = false ∧ v.cancelled = false ∧
      (s.book.held t = some (a, .dequeued) ∨ s.book.held t = some (a, .answering)))) ∨
  ∃ id pc, s.sender t = some ⟨some id, pc⟩

/-- No client is accepted while a thread is answering. -/
def Act.Unhurried (s : Server α τ) : Act α τ → Prop
  | .accept _ => ∀ t, ¬ s.Answering t
  | _ => True

/-- `listenCallback` has accepted a client and not found it to be the phone. -/
def Phase.Unverified (p : Phase) : Prop :=
  p = .accepted ∨ p = .decided false

/-- No thread writes to the descriptor in `s_fdCommand` before the credential
check is over. -/
def Act.Guarded (s : Server α τ) : Act α τ → Prop
  | .send t _ => ∀ frame fd,
      s.sender t = some ⟨frame, .header fd⟩ ∨ s.sender t = some ⟨frame, .data fd⟩ →
      s.phase.Unverified → fd ≠ s.fdCommand
  | _ => True

/-! ## The invariant -/

/-- The request was read from the connection that was accepted last. -/
def Server.FromCurrent (s : Server α τ) (id : Nat) : Prop :=
  id < s.book.serial ∧ ∃ k, s.origin id = some k ∧ k + 1 = s.accepted

/-- Every request that can still be answered is from the last connection. -/
structure CrossInv (s : Server α τ) (l : List α) : Prop where
  listed : ∀ a ∈ l, ∀ v, s.book.requests.info a = some v →
    v.isLocal = true ∨ v.cancelled = true ∨ s.phase ≠ .listening ∧ s.FromCurrent v.ghost
  linking : ∀ t a v, s.book.held t = some (a, .linking) → s.book.requests.info a = some v →
    v.isLocal = true ∨ s.phase = .serving ∧ s.FromCurrent v.ghost
  taken : ∀ t a v, s.book.held t = some (a, .dequeued) ∨ s.book.held t = some (a, .answering) →
    s.book.requests.info a = some v →
    v.isLocal = true ∨ v.cancelled = true ∨ s.FromCurrent v.ghost
  sending : ∀ t a v, s.book.held t = some (a, .sending) → s.book.requests.info a = some v →
    s.FromCurrent v.ghost
  sender : ∀ t id pc, s.sender t = some ⟨some id, pc⟩ → s.FromCurrent id
  writes : ∀ w ∈ s.writes, ∀ id, w.frame = some id →
    id < s.book.serial ∧ s.origin id = some w.conn

/-- The invariant of a run: at most the descriptor in `s_fdCommand` is open and
leads to the last connection, and only a verified client is served.  `P` and
`Q` are the conditions on the run under which the last two fields hold. -/
structure ServerInv (main : τ) (P Q : Prop) (s : Server α τ) (l : List α) : Prop where
  book : BookInv s.book l
  linker : ∀ t a, s.book.held t = some (a, .linking) → t = main
  only : ∀ fd k, s.peer fd = some k → fd = s.fdCommand ∧ k + 1 = s.accepted
  shut : s.phase = .listening ∨ s.phase = .closed ∨ s.phase = .reset → ∀ fd, s.peer fd = none
  checked : s.phase = .decided true ∨ s.phase = .serving →
    ∀ k, k + 1 = s.accepted → s.verified k = true
  parsed : ∀ p ∈ s.parsed, p.2 = true
  cross : P → CrossInv s l
  guarded : Q → ∀ w ∈ s.writes, w.verified = true

omit [DecidableEq α] [DecidableEq τ] in
theorem start_server (main : τ) (P Q : Prop) :
    ServerInv main P Q (Server.start : Server α τ) [] where
  book := start_inv
  linker := by simp [Server.start, Bookkeeping.start]
  only := by simp [Server.start]
  shut := fun _ _ => rfl
  checked := by simp [Server.start]
  parsed := by simp [Server.start]
  cross := fun _ => ⟨by simp, by simp [Server.start, Bookkeeping.start],
    by simp [Server.start, Bookkeeping.start], by simp [Server.start, Bookkeeping.start],
    by simp [Server.start], by simp [Server.start]⟩
  guarded := by simp [Server.start]

section Steps

variable {main : τ} {P Q : Prop} {s : Server α τ} {l : List α} {fuel : Nat}

/-! ### The event-loop thread -/

theorem accept_keeps (h : ServerInv main P Q s l) {fd : Int}
    (hlegal : (Act.accept fd : Act α τ).Legal main s)
    (hP : P → (Act.accept fd : Act α τ).Unhurried s) :
    ∃ s', serverStep main fuel s (.accept fd) = some s' ∧ ServerInv main P Q s' l := by
  obtain ⟨hphase, ⟨hheld, -⟩, -, hfree⟩ := hlegal
  have hclosed := h.shut (Or.inl hphase)
  refine ⟨_, rfl, h.book, h.linker, ?_, by simp, by simp, h.parsed, ?_, h.guarded⟩
  · intro x k hx
    have hx : Function.update s.peer fd (some s.accepted) x = some k := hx
    by_cases hxf : x = fd
    · rw [hxf, Function.update_self] at hx
      cases hx
      exact ⟨hxf, rfl⟩
    · rw [Function.update_of_ne hxf, hclosed x] at hx
      cases hx
  · intro hp
    have hcross := h.cross hp
    have hnone := hP hp
    refine ⟨?_, ?_, ?_, ?_, ?_, hcross.writes⟩
    · intro a ha v hv
      rcases hcross.listed a ha v hv with hlocal | hcan | ⟨hno, -⟩
      · exact Or.inl hlocal
      · exact Or.inr (Or.inl hcan)
      · exact absurd hphase hno
    · intro t a v ht
      rw [h.linker t a ht, hheld] at ht
      cases ht
    · intro t a v ht hv
      obtain ⟨w, hw, rfl⟩ := heap_of_info hv
      by_cases hlocal : w.isLocal = true
      · exact Or.inl hlocal
      · by_cases hcan : w.cancelled = true
        · exact Or.inr (Or.inl hcan)
        · exact absurd (Or.inl ⟨a, w, hw, Or.inr ⟨by simpa using hlocal, by simpa using hcan, ht⟩⟩)
            (hnone t)
    · intro t a v ht hv
      obtain ⟨w, hw, -⟩ := heap_of_info hv
      exact absurd (Or.inl ⟨a, w, hw, Or.inl ht⟩) (hnone t)
    · intro t id pc ht
      exact absurd (Or.inr ⟨id, pc, ht⟩) (hnone t)

omit [DecidableEq α] [DecidableEq τ] in
/-- A step of the event-loop thread that leaves the list alone and does not
accept a client. -/
theorem ServerInv.phase {s' : Server α τ} (h : ServerInv main P Q s l)
    (hbook : s'.book = s.book) (hsender : s'.sender = s.sender)
    (haccepted : s'.accepted = s.accepted) (horigin : s'.origin = s.origin)
    (hwrites : s'.writes = s.writes) (hparsed : s'.parsed = s.parsed)
    (honly : ∀ fd k, s'.peer fd = some k → fd = s'.fdCommand ∧ k + 1 = s'.accepted)
    (hshut : s'.phase = .listening ∨ s'.phase = .closed ∨ s'.phase = .reset →
      ∀ fd, s'.peer fd = none)
    (hchecked : s'.phase = .decided true ∨ s'.phase = .serving →
      ∀ k, k + 1 = s'.accepted → s'.verified k = true)
    (hlisten : s'.phase ≠ .listening)
    (hserving : s.phase = .serving → s.book.held main = none) :
    ServerInv main P Q s' l := by
  have hcurrent : ∀ id, s.FromCurrent id → s'.FromCurrent id := by
    intro id hid
    rw [Server.FromCurrent, hbook, horigin, haccepted]
    exact hid
  refine ⟨hbook ▸ h.book, hbook ▸ h.linker, honly, hshut, hchecked, hparsed ▸ h.parsed, ?_,
    hwrites ▸ h.guarded⟩
  intro hp
  have hcross := h.cross hp
  refine ⟨?_, ?_, ?_, ?_, ?_, ?_⟩
  · rw [hbook]
    intro a ha v hv
    rcases hcross.listed a ha v hv with hlocal | hcan | ⟨-, hcur⟩
    · exact Or.inl hlocal
    · exact Or.inr (Or.inl hcan)
    · exact Or.inr (Or.inr ⟨hlisten, hcurrent _ hcur⟩)
  · rw [hbook]
    intro t a v ht hv
    rcases hcross.linking t a v ht hv with hlocal | ⟨hphase, -⟩
    · exact Or.inl hlocal
    · rw [h.linker t a ht, hserving hphase] at ht
      cases ht
  · rw [hbook]
    intro t a v ht hv
    rcases hcross.taken t a v ht hv with hlocal | hcan | hcur
    · exact Or.inl hlocal
    · exact Or.inr (Or.inl hcan)
    · exact Or.inr (Or.inr (hcurrent _ hcur))
  · rw [hbook]
    intro t a v ht hv
    exact hcurrent _ (hcross.sending t a v ht hv)
  · rw [hsender]
    intro t id pc ht
    exact hcurrent _ (hcross.sender t id pc ht)
  · rw [hbook, hwrites, horigin]
    exact hcross.writes

omit [DecidableEq α] [DecidableEq τ] in
/-- Closing `s_fdCommand` closes the only open descriptor. -/
theorem ServerInv.close_all (h : ServerInv main P Q s l) (fd : Int) :
    Function.update s.peer s.fdCommand none fd = none := by
  by_cases hfd : fd = s.fdCommand
  · rw [hfd, Function.update_self]
  · rw [Function.update_of_ne hfd]
    cases hp : s.peer fd with
    | none => rfl
    | some k => exact absurd (h.only fd k hp).1 hfd

theorem lookup_keeps (h : ServerInv main P Q s l) {isPhone : Bool}
    (hlegal : (Act.lookup isPhone : Act α τ).Legal main s) :
    ∃ s', serverStep main fuel s (.lookup isPhone) = some s' ∧ ServerInv main P Q s' l := by
  have hphase : s.phase = .accepted := hlegal
  refine ⟨_, rfl, h.phase rfl rfl rfl rfl rfl rfl h.only (by simp) ?_ (by simp)
    (by simp [hphase])⟩
  intro hdecided k hk
  obtain rfl : isPhone = true := by simpa using hdecided
  have hk : k = s.accepted - 1 := by
    have hk : k + 1 = s.accepted := hk
    omega
  show Function.update s.verified (s.accepted - 1) true k = true
  rw [hk, Function.update_self]

theorem decide_keeps (h : ServerInv main P Q s l)
    (hlegal : (Act.decide : Act α τ).Legal main s) :
    ∃ s', serverStep main fuel s .decide = some s' ∧ ServerInv main P Q s' l := by
  obtain ⟨isPhone, hphase⟩ := hlegal
  cases isPhone with
  | true =>
      refine ⟨{ s with phase := .serving }, by simp [serverStep, hphase], ?_⟩
      exact h.phase rfl rfl rfl rfl rfl rfl h.only (by simp)
        (fun _ => h.checked (Or.inl hphase)) (by simp) (by simp [hphase])
  | false =>
      refine ⟨{ s with phase := .closed, peer := Function.update s.peer s.fdCommand none },
        by simp [serverStep, hphase], ?_⟩
      refine h.phase rfl rfl rfl rfl rfl rfl ?_ (fun _ => h.close_all) (by simp) (by simp)
        (by simp [hphase])
      intro fd k hfd
      exact absurd ((h.close_all fd).symm.trans hfd) (by simp)

theorem close_keeps (h : ServerInv main P Q s l)
    (hlegal : (Act.close : Act α τ).Legal main s) :
    ∃ s', serverStep main fuel s .close = some s' ∧ ServerInv main P Q s' l := by
  refine ⟨_, rfl, h.phase rfl rfl rfl rfl rfl rfl ?_ (fun _ => h.close_all) (by simp) (by simp)
    (fun _ => hlegal.2.1)⟩
  intro fd k hfd
  exact absurd ((h.close_all fd).symm.trans hfd) (by simp)

theorem reset_keeps (h : ServerInv main P Q s l)
    (hlegal : (Act.reset : Act α τ).Legal main s) :
    ∃ s', serverStep main fuel s .reset = some s' ∧ ServerInv main P Q s' l := by
  have hphase : s.phase = .closed := hlegal
  have hclosed := h.shut (Or.inr (Or.inl hphase))
  refine ⟨_, rfl, h.phase rfl rfl rfl rfl rfl rfl ?_ (fun _ => hclosed) (by simp) (by simp)
    (by simp [hphase])⟩
  intro fd k hfd
  exact absurd ((hclosed fd).symm.trans hfd) (by simp)

/-- `onCommandsSocketClosed` cancels what is left of the closed connection. -/
theorem cancel_keeps (h : ServerInv main P Q s l) (hfuel : l.length < fuel)
    (hlegal : (Act.cancel : Act α τ).Legal main s) :
    ∃ s', serverStep main fuel s .cancel = some s' ∧ ServerInv main P Q s' l := by
  obtain ⟨hphase, hheld, -⟩ := hlegal
  obtain ⟨m, hrun, hbook, hinfo, hheld', hserial⟩ := closed_keeps (t := main) h.book hfuel
  have hcurrent : ∀ id, s.FromCurrent id →
      Server.FromCurrent { s with book := m, phase := .listening } id := by
    intro id hid
    rw [Server.FromCurrent, hserial]
    exact hid
  have hoff : ∀ t a stage v, s.book.held t = some (a, stage) → m.requests.info a = some v →
      s.book.requests.info a = some v := by
    intro t a stage v ht hv
    rw [hinfo, if_neg (h.book.held t a stage ht).1] at hv
    exact hv
  refine ⟨{ s with book := m, phase := .listening },
    by simp [serverStep, Server.run, hrun], hbook, hheld' ▸ h.linker, h.only,
    fun _ => h.shut (Or.inr (Or.inr hphase)), by simp, h.parsed, ?_, h.guarded⟩
  intro hp
  have hcross := h.cross hp
  refine ⟨?_, ?_, ?_, ?_, fun t id pc ht => hcurrent _ (hcross.sender t id pc ht), ?_⟩
  · intro a ha v hv
    rw [hinfo, if_pos ha] at hv
    obtain ⟨w, -, rfl⟩ := Option.map_eq_some_iff.mp hv
    exact Or.inr (Or.inl rfl)
  · intro t a v ht
    rw [hheld'] at ht
    rw [h.linker t a ht, hheld] at ht
    cases ht
  · intro t a v ht hv
    rw [hheld'] at ht
    have hv : s.book.requests.info a = some v := by
      rcases ht with ht | ht
      · exact hoff t a _ v ht hv
      · exact hoff t a _ v ht hv
    exact (hcross.taken t a v ht hv).imp_right (fun hor => hor.imp_right (hcurrent _))
  · intro t a v ht hv
    rw [hheld'] at ht
    exact hcurrent _ (hcross.sending t a v ht (hoff t a _ v ht hv))
  · rw [hserial]
    exact hcross.writes

/-- A new record, from the client or local. -/
theorem calloc_server (h : ServerInv main P Q s l) {a : α} {request : Nat} {token : Int}
    {isLocal : Bool} {origin : Nat → Option Nat} {parsed : List (Nat × Bool)}
    (hfree : s.book.requests.heap a = none)
    (horigin : ∀ id, id < s.book.serial → origin id = s.origin id)
    (hparsed : ∀ p ∈ parsed, p.2 = true)
    (hnew : isLocal = true ∨ s.phase = .serving ∧
      ∃ k, origin s.book.serial = some k ∧ k + 1 = s.accepted) :
    ServerInv main P Q { s with
      book := s.book.calloc main a request token isLocal
      origin := origin
      parsed := parsed } l := by
  have hbook : BookInv (s.book.calloc main a request token isLocal) l :=
    calloc_keeps h.book hfree request token isLocal
  have hcurrent : ∀ id, s.FromCurrent id → Server.FromCurrent { s with
      book := s.book.calloc main a request token isLocal
      origin := origin
      parsed := parsed } id := by
    intro id hid
    refine ⟨Nat.lt_succ_of_lt hid.1, ?_⟩
    show ∃ k, origin id = some k ∧ k + 1 = s.accepted
    rw [horigin id hid.1]
    exact hid.2
  have hinfoa := calloc_info_self s.book main a request token isLocal
  have hinfo : ∀ b, b ≠ a → (s.book.calloc main a request token isLocal).requests.info b =
      s.book.requests.info b :=
    fun b hb => calloc_info_of_ne s.book main hb request token isLocal
  have hother : ∀ b v, s.book.requests.info b = some v → b ≠ a :=
    fun b v hv => ne_of_info hfree hv
  have hold : ∀ t b stage, (s.book.calloc main a request token isLocal).held t =
      some (b, stage) → stage ≠ .linking → s.book.held t = some (b, stage) ∧ b ≠ a := by
    intro t b stage ht hstage
    rcases calloc_held_cases ht with ⟨-, ht⟩ | ⟨-, -, hlinking⟩
    · obtain ⟨-, v, hv, -⟩ := h.book.held t b stage ht
      exact ⟨ht, hother b v hv⟩
    · exact absurd hlinking hstage
  refine ⟨hbook, ?_, h.only, h.shut, h.checked, hparsed, ?_, h.guarded⟩
  · intro t b ht
    rcases calloc_held_cases ht with ⟨-, ht⟩ | ⟨htm, -, -⟩
    · exact h.linker t b ht
    · exact htm
  · intro hp
    have hcross := h.cross hp
    refine ⟨?_, ?_, ?_, ?_, fun t id pc ht => hcurrent _ (hcross.sender t id pc ht), ?_⟩
    · intro b hb v hv
      have hba : b ≠ a := by
        obtain ⟨w, hw, -⟩ := h.book.listed b hb
        exact hother b w hw
      have hv : s.book.requests.info b = some v := (hinfo b hba).symm.trans hv
      exact (hcross.listed b hb v hv).imp_right
        (fun hor => hor.imp_right (fun hcur => ⟨hcur.1, hcurrent _ hcur.2⟩))
    · intro t b v ht hv
      rcases calloc_held_cases ht with ⟨htm, ht⟩ | ⟨-, rfl, -⟩
      · exact absurd (h.linker t b ht) htm
      · have hv := hinfoa.symm.trans hv
        cases hv
        rcases hnew with hlocal | ⟨hphase, hk⟩
        · exact Or.inl hlocal
        · exact Or.inr ⟨hphase, Nat.lt_succ_self _, hk⟩
    · intro t b v ht hv
      have hboth : (s.book.held t = some (b, .dequeued) ∨ s.book.held t = some (b, .answering)) ∧
          b ≠ a := by
        rcases ht with ht | ht
        · obtain ⟨ht, hba⟩ := hold t b _ ht (by simp)
          exact ⟨Or.inl ht, hba⟩
        · obtain ⟨ht, hba⟩ := hold t b _ ht (by simp)
          exact ⟨Or.inr ht, hba⟩
      have hv : s.book.requests.info b = some v := (hinfo b hboth.2).symm.trans hv
      exact (hcross.taken t b v hboth.1 hv).imp_right (fun hor => hor.imp_right (hcurrent _))
    · intro t b v ht hv
      obtain ⟨ht, hba⟩ := hold t b _ ht (by simp)
      exact hcurrent _ (hcross.sending t b v ht ((hinfo b hba).symm.trans hv))
    · intro w hw id hid
      obtain ⟨hlt, ho⟩ := hcross.writes w hw id hid
      exact ⟨Nat.lt_succ_of_lt hlt, (horigin id hlt).trans ho⟩

/-- `processCommandBuffer` reads from a client that was verified. -/
theorem read_keeps (h : ServerInv main P Q s l) {a : α} {request : Nat} {token : Int}
    (hlegal : (Act.read a request token : Act α τ).Legal main s) :
    ∃ s', serverStep main fuel s (.read a request token) = some s' ∧
      ServerInv main P Q s' l := by
  obtain ⟨hphase, -, hfree, hsome⟩ := hlegal
  obtain ⟨k, hk⟩ := Option.isSome_iff_exists.mp hsome
  have hlast := (h.only _ k hk).2
  refine ⟨{ s with
      book := s.book.calloc main a request token false
      origin := Function.update s.origin s.book.serial (some k)
      parsed := (k, s.verified k) :: s.parsed },
    by simp [serverStep, Server.run, bookStep, hk], calloc_server h hfree ?_ ?_ ?_⟩
  · intro id hid
    exact Function.update_of_ne (Nat.ne_of_lt hid) _ _
  · intro p hp
    rcases List.mem_cons.mp hp with rfl | hp
    · exact h.checked (Or.inr hphase) k hlast
    · exact h.parsed p hp
  · exact Or.inr ⟨hphase, k, Function.update_self _ _ _, hlast⟩

theorem issueLocal_keeps (h : ServerInv main P Q s l) {a : α} {request : Nat}
    (hlegal : (Act.issueLocal a request : Act α τ).Legal main s) :
    ∃ s', serverStep main fuel s (.issueLocal a request) = some s' ∧
      ServerInv main P Q s' l :=
  ⟨_, rfl, calloc_server h hlegal.2 (fun _ _ => rfl) h.parsed (Or.inl rfl)⟩

theorem link_server (h : ServerInv main P Q s l)
    (hlegal : (Act.link : Act α τ).Legal main s) :
    ∃ s' a, serverStep main fuel s .link = some s' ∧ ServerInv main P Q s' (a :: l) := by
  obtain ⟨a, ha⟩ := hlegal
  obtain ⟨m, hrun, hbook, hinfo, hheld, hserial⟩ := link_keeps h.book ha fuel
  have hcurrent : ∀ id, s.FromCurrent id → Server.FromCurrent { s with book := m } id := by
    intro id hid
    rw [Server.FromCurrent, hserial]
    exact hid
  have hold : ∀ t x, m.held t = some x → s.book.held t = some x := by
    intro t x ht
    by_cases htm : t = main
    · rw [hheld, htm, Function.update_self] at ht
      cases ht
    · rwa [hheld, Function.update_of_ne htm] at ht
  refine ⟨{ s with book := m }, a, by simp [serverStep, Server.run, hrun], hbook,
    fun t b ht => h.linker t b (hold t _ ht), h.only, h.shut, h.checked, h.parsed, ?_, h.guarded⟩
  intro hp
  have hcross := h.cross hp
  refine ⟨?_, ?_, ?_, ?_, fun t id pc ht => hcurrent _ (hcross.sender t id pc ht), ?_⟩
  · intro b hb v hv
    rw [hinfo] at hv
    rcases List.mem_cons.mp hb with rfl | hb
    · rcases hcross.linking main b v ha hv with hlocal | ⟨hphase, hcur⟩
      · exact Or.inl hlocal
      · exact Or.inr (Or.inr ⟨by simp [hphase], hcurrent _ hcur⟩)
    · exact (hcross.listed b hb v hv).imp_right
        (fun hor => hor.imp_right (fun hcur => ⟨hcur.1, hcurrent _ hcur.2⟩))
  · intro t b v ht hv
    rw [hinfo] at hv
    exact (hcross.linking t b v (hold t _ ht) hv).imp_right
      (fun hcur => ⟨hcur.1, hcurrent _ hcur.2⟩)
  · intro t b v ht hv
    rw [hinfo] at hv
    exact (hcross.taken t b v (ht.imp (hold t _) (hold t _)) hv).imp_right
      (fun hor => hor.imp_right (hcurrent _))
  · intro t b v ht hv
    rw [hinfo] at hv
    exact hcurrent _ (hcross.sending t b v (hold t _ ht) hv)
  · rw [hserial]
    exact hcross.writes

/-! ### The threads that answer -/

omit [DecidableEq α] [DecidableEq τ] in
/-- A call of `RIL_onRequestComplete` takes its record on, from the list to the end of
the function. -/
theorem ServerInv.rehold (h : ServerInv main P Q s l) {m : Bookkeeping α τ} {l' : List α}
    (hbook : BookInv m l') (hsub : ∀ a ∈ l', a ∈ l) (hserial : m.serial = s.book.serial)
    (hinfo : ∀ a v, m.requests.info a = some v → s.book.requests.info a = some v)
    (hheld : ∀ t a stage, m.held t = some (a, stage) → s.book.held t = some (a, stage) ∨
      stage = .dequeued ∧ a ∈ l ∨
      stage = .answering ∧ s.book.held t = some (a, .dequeued) ∨
      stage = .sending ∧ (P → ∀ v, s.book.requests.info a = some v → s.FromCurrent v.ghost) ∨
      stage = .freeing) :
    ServerInv main P Q { s with book := m } l' := by
  have hcurrent : ∀ id, s.FromCurrent id → Server.FromCurrent { s with book := m } id := by
    intro id hid
    rw [Server.FromCurrent, hserial]
    exact hid
  have hlink : ∀ t a, m.held t = some (a, .linking) → s.book.held t = some (a, .linking) := by
    intro t a ht
    simpa using hheld t a _ ht
  refine ⟨hbook, fun t a ht => h.linker t a (hlink t a ht), h.only, h.shut, h.checked,
    h.parsed, ?_, h.guarded⟩
  intro hp
  have hcross := h.cross hp
  refine ⟨?_, ?_, ?_, ?_, fun t id pc ht => hcurrent _ (hcross.sender t id pc ht), ?_⟩
  · intro a ha v hv
    exact (hcross.listed a (hsub a ha) v (hinfo a v hv)).imp_right
      (fun hor => hor.imp_right (fun hcur => ⟨hcur.1, hcurrent _ hcur.2⟩))
  · intro t a v ht hv
    exact (hcross.linking t a v (hlink t a ht) (hinfo a v hv)).imp_right
      (fun hcur => ⟨hcur.1, hcurrent _ hcur.2⟩)
  · intro t a v ht hv
    have hv := hinfo a v hv
    have hcase : (s.book.held t = some (a, .dequeued) ∨ s.book.held t = some (a, .answering)) ∨
        a ∈ l := by
      rcases ht with ht | ht
      · have hold : s.book.held t = some (a, .dequeued) ∨ a ∈ l := by
          simpa using hheld t a _ ht
        exact hold.imp_left Or.inl
      · have hold : s.book.held t = some (a, .answering) ∨ s.book.held t = some (a, .dequeued) := by
          simpa using hheld t a _ ht
        exact Or.inl hold.symm
    rcases hcase with hold | hlisted
    · exact (hcross.taken t a v hold hv).imp_right (fun hor => hor.imp_right (hcurrent _))
    · exact (hcross.listed a hlisted v hv).imp_right
        (fun hor => hor.imp_right (fun hcur => hcurrent _ hcur.2))
  · intro t a v ht hv
    have hv := hinfo a v hv
    have hcase : s.book.held t = some (a, .sending) ∨
        (P → ∀ v, s.book.requests.info a = some v → s.FromCurrent v.ghost) := by
      simpa using hheld t a _ ht
    rcases hcase with ht | hfrom
    · exact hcurrent _ (hcross.sending t a v ht hv)
    · exact hcurrent _ (hfrom hp v hv)
  · rw [hserial]
    exact hcross.writes

omit [DecidableEq α] in
theorem hold_cases {m : Bookkeeping α τ} {t u : τ} {x : Option (α × Stage)} {b : α}
    {stage : Stage} (hu : (m.hold t x).held u = some (b, stage)) :
    m.held u = some (b, stage) ∨ u = t ∧ x = some (b, stage) := by
  by_cases hut : u = t
  · rw [hut] at hu
    simp only [Bookkeeping.hold, Function.update_self] at hu
    exact Or.inr ⟨hut, hu⟩
  · simp only [Bookkeeping.hold, Function.update_of_ne hut] at hu
    exact Or.inl hu

/-- Whatever was listed is fit to be answered. -/
theorem complete_server (h : ServerInv main P Q s l) (hfuel : l.length < fuel) {t : τ}
    {token : Option α} :
    ∃ s' l', serverStep main fuel s (.complete t token) = some s' ∧
      ServerInv main P Q s' l' ∧ l'.length ≤ l.length := by
  by_cases hon : ∃ a ∈ l, token = some a
  · obtain ⟨a, ha, rfl⟩ := hon
    obtain ⟨m, hrun, hbook, hinfo, hheld, hserial⟩ := complete_keeps (t := t) h.book hfuel ha
    refine ⟨{ s with book := m }, l.erase a, by simp [serverStep, Server.run, hrun], ?_,
      List.length_erase_le⟩
    refine h.rehold hbook (fun b hb => List.mem_of_mem_erase hb) hserial
      (fun b v hv => by rw [hinfo] at hv; exact hv) ?_
    intro u b stage hu
    rw [hheld] at hu
    rcases hold_cases (m := s.book) hu with hu | ⟨-, hx⟩
    · exact Or.inl hu
    · obtain ⟨rfl, rfl⟩ := Prod.mk.inj (Option.some.inj hx)
      exact Or.inr (Or.inl ⟨rfl, ha⟩)
  · have hnot : ∀ a ∈ l, token ≠ some a := fun a ha heq => hon ⟨a, ha, heq⟩
    refine ⟨s, l, ?_, h, Nat.le_refl _⟩
    simp [serverStep, Server.run, complete_unknown (t := t) h.book hfuel hnot]

omit [DecidableEq α] in
/-- A local request is freed next, one of a client is answered. -/
theorem ServerInv.dequeued (h : ServerInv main P Q s l) {t : τ} {a : α} {isLocal : Bool}
    (hheld : s.book.held t = some (a, .dequeued))
    (hbook : BookInv (s.book.hold t (some (a, if isLocal then .freeing else .answering))) l) :
    ServerInv main P Q { s with
      book := s.book.hold t (some (a, if isLocal then .freeing else .answering)) } l := by
  refine h.rehold hbook (fun _ hb => hb) rfl (fun _ _ hv => hv) ?_
  intro u b stage hu
  rcases hold_cases hu with hu | ⟨rfl, hx⟩
  · exact Or.inl hu
  · obtain ⟨rfl, rfl⟩ := Prod.mk.inj (Option.some.inj hx)
    cases isLocal with
    | true => simp
    | false => exact Or.inr (Or.inr (Or.inl ⟨rfl, hheld⟩))

omit [DecidableEq α] in
/-- A record that was not cancelled is of the client that is there now. -/
theorem ServerInv.answering (h : ServerInv main P Q s l) {t : τ} {a : α}
    {v : RequestInfo α Nat} (hheld : s.book.held t = some (a, .answering))
    (hv : s.book.requests.info a = some v) (hlocal : v.isLocal = false)
    (hbook : BookInv (s.book.hold t (some (a, if v.cancelled then .freeing else .sending))) l) :
    ServerInv main P Q { s with
      book := s.book.hold t (some (a, if v.cancelled then .freeing else .sending)) } l := by
  refine h.rehold hbook (fun _ hb => hb) rfl (fun _ _ hv => hv) ?_
  intro u b stage hu
  rcases hold_cases hu with hu | ⟨rfl, hx⟩
  · exact Or.inl hu
  · obtain ⟨rfl, rfl⟩ := Prod.mk.inj (Option.some.inj hx)
    cases hc : v.cancelled with
    | true => simp
    | false =>
        refine Or.inr (Or.inr (Or.inr (Or.inl ⟨rfl, ?_⟩)))
        intro hp v' hv'
        have hcase := (h.cross hp).taken u a v' (Or.inr hheld) hv'
        rw [hv] at hv'
        cases hv'
        simpa [hlocal, hc] using hcase

omit [DecidableEq α] in
/-- The response of a client that is there now is handed to `sendResponse`. -/
theorem ServerInv.sending (h : ServerInv main P Q s l) {t : τ} {a : α}
    {v : RequestInfo α Nat} {e : Entry} (hheld : s.book.held t = some (a, .sending))
    (hv : s.book.requests.info a = some v)
    (hbook : BookInv { s.book.hold t (some (a, .freeing)) with
      history := e :: s.book.history } l) :
    ServerInv main P Q { s with
      book := { s.book.hold t (some (a, .freeing)) with history := e :: s.book.history }
      sender := Function.update s.sender t (some ⟨some v.ghost, .start⟩) } l := by
  have hnew : ServerInv main P Q { s with
      book := { s.book.hold t (some (a, .freeing)) with history := e :: s.book.history } } l := by
    refine h.rehold hbook (fun _ hb => hb) rfl (fun _ _ hv => hv) ?_
    intro u b stage hu
    rcases hold_cases hu with hu | ⟨-, hx⟩
    · exact Or.inl hu
    · exact Or.inr (Or.inr (Or.inr (Or.inr (Prod.mk.inj (Option.some.inj hx)).2.symm)))
  refine { hnew with cross := ?_ }
  intro hp
  refine { hnew.cross hp with sender := ?_ }
  intro u id pc hu
  by_cases hut : u = t
  · rw [hut] at hu
    simp only [Function.update_self, Option.some.injEq, Sender.mk.injEq] at hu
    obtain ⟨rfl, -⟩ := hu
    exact (h.cross hp).sending t a v hheld hv
  · simp only [Function.update_of_ne hut] at hu
    exact (hnew.cross hp).sender u id pc hu

/-- The record is freed. -/
theorem ServerInv.freeing (h : ServerInv main P Q s l) {t : τ} {a : α}
    (hbook : BookInv { s.book.hold t none with requests := s.book.requests.free a } l) :
    ServerInv main P Q { s with
      book := { s.book.hold t none with requests := s.book.requests.free a } } l := by
  refine h.rehold hbook (fun _ hb => hb) rfl ?_ ?_
  · intro b v hv
    by_cases hba : b = a
    · simp [hba, Requests.free, Requests.info] at hv
    · simpa [Requests.free, Requests.info, hba] using hv
  · intro u b stage hu
    rcases hold_cases hu with hu | ⟨-, hx⟩
    · exact Or.inl hu
    · cases hx

/-- `RIL_onRequestComplete` behind the dequeue. -/
theorem proceed_server (h : ServerInv main P Q s l) {t : τ}
    (hlegal : (Act.proceed t : Act α τ).Legal main s) :
    ∃ s', serverStep main fuel s (.proceed t) = some s' ∧ ServerInv main P Q s' l := by
  obtain ⟨a, stage, hheld, hstage, hidle⟩ := hlegal
  obtain ⟨m, hrun, hbook⟩ := proceed_keeps h.book hheld hstage
  obtain ⟨-, v, hv, hok⟩ := h.book.held t a stage hheld
  obtain ⟨w, hw, rfl⟩ := heap_of_info hv
  cases stage with
  | linking => exact absurd rfl hstage
  | dequeued =>
      have hm : s.book.hold t (some (a, if w.isLocal then .freeing else .answering)) = m := by
        simpa [Bookkeeping.proceed, hheld, hw] using hrun
      subst hm
      exact ⟨_, by simp [serverStep, Server.proceed, hrun, hheld], h.dequeued hheld hbook⟩
  | answering =>
      have hm : s.book.hold t (some (a, if w.cancelled then .freeing else .sending)) = m := by
        simpa [Bookkeeping.proceed, hheld, hw] using hrun
      subst hm
      exact ⟨_, by simp [serverStep, Server.proceed, hrun, hheld],
        h.answering hheld hv hok.2 hbook⟩
  | sending =>
      have hm : { s.book.hold t (some (a, .freeing)) with
          history := .sent w.ghost w.token :: s.book.history } = m := by
        simpa [Bookkeeping.proceed, hheld, hw] using hrun
      subst hm
      exact ⟨_, by simp [serverStep, Server.proceed, hrun, hheld, hw], h.sending hheld hv hbook⟩
  | freeing =>
      have hm : { s.book.hold t none with requests := s.book.requests.free a } = m := by
        simpa [Bookkeeping.proceed, hheld] using hrun
      subst hm
      exact ⟨_, by simp [serverStep, Server.proceed, hrun, hheld], h.freeing hbook⟩

omit [DecidableEq α] in
/-- A thread begins, continues or ends a send. -/
theorem ServerInv.resend (h : ServerInv main P Q s l) {t : τ} {x : Option Sender}
    (hx : P → ∀ id pc, x = some ⟨some id, pc⟩ → s.FromCurrent id) :
    ServerInv main P Q { s with sender := Function.update s.sender t x } l := by
  refine { h with cross := ?_ }
  intro hp
  refine { h.cross hp with sender := ?_ }
  intro u id pc hu
  by_cases hut : u = t
  · rw [hut] at hu
    simp only [Function.update_self] at hu
    exact hx hp id pc hu
  · simp only [Function.update_of_ne hut] at hu
    exact (h.cross hp).sender u id pc hu

omit [DecidableEq α] [DecidableEq τ] in
/-- A descriptor is open only while its client is being checked or served. -/
theorem ServerInv.verified_of_open (h : ServerInv main P Q s l) {fd : Int} {k : Nat}
    (hfd : s.peer fd = some k) (hphase : ¬ s.phase.Unverified) : s.verified k = true := by
  have hopen : ¬ (s.phase = .listening ∨ s.phase = .closed ∨ s.phase = .reset) := by
    intro hclosed
    rw [h.shut hclosed fd] at hfd
    cases hfd
  refine h.checked ?_ k (h.only fd k hfd).2
  cases hp : s.phase with
  | listening => exact absurd (Or.inl hp) hopen
  | accepted => exact absurd (Or.inl hp) hphase
  | decided isPhone =>
      cases isPhone with
      | true => exact Or.inl rfl
      | false => exact absurd (Or.inr hp) hphase
  | serving => exact Or.inr rfl
  | closed => exact absurd (Or.inr (Or.inl hp)) hopen
  | reset => exact absurd (Or.inr (Or.inr hp)) hopen

omit [DecidableEq α] in
theorem write_server (h : ServerInv main P Q s l) {t : τ} {frame : Option Nat} {fd : Int}
    {ok : Bool} {next : Option Sender}
    (hframe : P → ∀ id, frame = some id → s.FromCurrent id)
    (hnext : ∀ id pc, next = some ⟨some id, pc⟩ → frame = some id)
    (hguard : Q → s.phase.Unverified → fd ≠ s.fdCommand) :
    ServerInv main P Q (s.write t frame fd ok next) l := by
  unfold Server.write
  cases hfd : s.peer fd with
  | none => exact h.resend (fun _ _ _ hx => by cases hx)
  | some k =>
      have hlogged : ServerInv main P Q
          { s with writes := ⟨frame, k, s.verified k⟩ :: s.writes } l := by
        refine { h with cross := ?_, guarded := ?_ }
        · intro hp
          refine { h.cross hp with writes := ?_ }
          intro w hw id hid
          rcases List.mem_cons.mp hw with rfl | hw
          · obtain ⟨hlt, k', hk', hlast⟩ := hframe hp id hid
            have hkk : k' = k := by
              have hk := (h.only fd k hfd).2
              omega
            exact ⟨hlt, hkk ▸ hk'⟩
          · exact (h.cross hp).writes w hw id hid
        · intro hq w hw
          rcases List.mem_cons.mp hw with rfl | hw
          · exact h.verified_of_open hfd (fun hun => hguard hq hun (h.only fd k hfd).1)
          · exact h.guarded hq w hw
      cases ok with
      | true => exact hlogged.resend (fun hp id pc hx => hframe hp id (hnext id pc hx))
      | false =>
          have hclosed : ∀ x k, Function.update s.peer fd none x = some k →
              s.peer x = some k := by
            intro x k hx
            by_cases hxf : x = fd
            · rw [hxf, Function.update_self] at hx
              cases hx
            · rwa [Function.update_of_ne hxf] at hx
          have hshut : ServerInv main P Q { s with
              writes := ⟨frame, k, s.verified k⟩ :: s.writes
              peer := Function.update s.peer fd none } l := by
            refine { hlogged with only := ?_, shut := ?_, cross := ?_ }
            · exact fun x k hx => h.only x k (hclosed x k hx)
            · intro hphase x
              cases hx : Function.update s.peer fd none x with
              | none => exact hx
              | some k =>
                  exact absurd ((h.shut hphase x).symm.trans (hclosed x k hx)) (by simp)
            · exact fun hp => { hlogged.cross hp with }
          exact hshut.resend (fun _ _ _ hx => by cases hx)

omit [DecidableEq α] in
theorem send_server (h : ServerInv main P Q s l) {t : τ} {ok : Bool}
    (hlegal : (s.sender t).isSome) (hQ : Q → (Act.send t ok : Act α τ).Guarded s) :
    ∃ s', s.send t ok = some s' ∧ ServerInv main P Q s' l := by
  obtain ⟨⟨frame, pc⟩, hsender⟩ := Option.isSome_iff_exists.mp hlegal
  have hframe : P → ∀ id, frame = some id → s.FromCurrent id := by
    intro hp id hid
    exact (h.cross hp).sender t id pc (hid ▸ hsender)
  have hsame : ∀ pc', P → ∀ id pc, some (Sender.mk frame pc') = some ⟨some id, pc⟩ →
      s.FromCurrent id := by
    intro pc' hp id pc hx
    exact hframe hp id (Sender.mk.inj (Option.some.inj hx)).1
  cases pc with
  | start =>
      exact ⟨{ s with sender := Function.update s.sender t (some ⟨frame, .test s.fdCommand⟩) },
        by simp only [Server.send, hsender], h.resend (hsame _)⟩
  | test fd =>
      by_cases hstop : s.fdCommand < 0 ∨ ok = false
      · exact ⟨{ s with sender := Function.update s.sender t none },
          by simp [Server.send, hsender, hstop], h.resend (fun _ _ _ hx => by cases hx)⟩
      · exact ⟨{ s with sender := Function.update s.sender t (some ⟨frame, .header fd⟩) },
          by simp only [Server.send, hsender, if_neg hstop], h.resend (hsame _)⟩
  | header fd =>
      refine ⟨s.write t frame fd ok (some ⟨frame, .data fd⟩),
        by simp only [Server.send, hsender], write_server h hframe ?_ ?_⟩
      · intro id pc hx
        exact (Sender.mk.inj (Option.some.inj hx)).1
      · exact fun hq => hQ hq frame fd (Or.inl hsender)
  | data fd =>
      refine ⟨s.write t frame fd ok none, by simp only [Server.send, hsender],
        write_server h hframe ?_ ?_⟩
      · intro id pc hx
        cases hx
      · exact fun hq => hQ hq frame fd (Or.inr hsender)

/-- One step of any thread. -/
theorem serverStep_keeps {act : Act α τ} (h : ServerInv main P Q s l) (hfuel : l.length < fuel)
    (hlegal : act.Legal main s) (hP : P → act.Unhurried s) (hQ : Q → act.Guarded s) :
    ∃ s' l', serverStep main fuel s act = some s' ∧ ServerInv main P Q s' l' ∧
      l'.length ≤ l.length + 1 := by
  have hsame : (∃ s', serverStep main fuel s act = some s' ∧ ServerInv main P Q s' l) →
      ∃ s' l', serverStep main fuel s act = some s' ∧ ServerInv main P Q s' l' ∧
        l'.length ≤ l.length + 1 := by
    intro hex
    obtain ⟨s', hrun, h'⟩ := hex
    exact ⟨s', l, hrun, h', by omega⟩
  cases act with
  | accept fd => exact hsame (accept_keeps h hlegal hP)
  | lookup isPhone => exact hsame (lookup_keeps h hlegal)
  | decide => exact hsame (decide_keeps h hlegal)
  | close => exact hsame (close_keeps h hlegal)
  | reset => exact hsame (reset_keeps h hlegal)
  | cancel => exact hsame (cancel_keeps h hfuel hlegal)
  | read a request token => exact hsame (read_keeps h hlegal)
  | issueLocal a request => exact hsame (issueLocal_keeps h hlegal)
  | link =>
      obtain ⟨s', a, hrun, h'⟩ := link_server h hlegal
      exact ⟨s', a :: l, hrun, h', by simp⟩
  | complete t token =>
      obtain ⟨s', l', hrun, h', hlen⟩ := complete_server (t := t) h hfuel
      exact ⟨s', l', hrun, h', by omega⟩
  | proceed t => exact hsame (proceed_server h hlegal)
  | unsolicited t => exact hsame ⟨_, rfl, h.resend (fun _ _ _ hx => by cases hx)⟩
  | send t ok => exact hsame (send_server h hlegal hQ)

theorem serverRun_keeps {acts : List (Act α τ)} (h : ServerInv main P Q s l)
    (hfuel : l.length + acts.length < fuel)
    (hrun : Along (serverStep main fuel) (fun s act => act.Legal main s ∧
      (P → act.Unhurried s) ∧ (Q → act.Guarded s)) s acts) :
    ∃ s' l', exec (serverStep main fuel) s acts = some s' ∧ ServerInv main P Q s' l' := by
  induction acts generalizing s l with
  | nil => exact ⟨s, l, rfl, h⟩
  | cons act acts ih =>
      simp only [List.length_cons] at hfuel
      obtain ⟨hlegal, hP, hQ⟩ := hrun.1
      have hroom : l.length < fuel := by omega
      obtain ⟨s₁, l₁, hstep, h₁, hlen⟩ := serverStep_keeps h hroom hlegal hP hQ
      obtain ⟨s', l', hexec, h'⟩ := ih h₁ (by omega) (hrun.2 s₁ hstep)
      exact ⟨s', l', exec_cons_some.mpr ⟨s₁, hstep, hexec⟩, h'⟩

end Steps

/-! ## Whole runs -/

/-- **Responses stay with their connection.**  In every run in which no client
is accepted while a thread is answering, a response is written to the
connection its request was read from. -/
theorem responses_stay (main : τ) (acts : List (Act α τ)) (fuel : Nat)
    (hfuel : acts.length < fuel)
    (hrun : Along (serverStep main fuel) (fun s act => act.Legal main s ∧ act.Unhurried s)
      Server.start acts) :
    ∃ s, exec (serverStep main fuel) Server.start acts = some s ∧
      ∀ w ∈ s.writes, ∀ id, w.frame = some id → s.origin id = some w.conn := by
  obtain ⟨s, l, hexec, h⟩ := serverRun_keeps (P := True) (Q := False)
    (start_server main True False) (by simpa using hfuel)
    (along_imp (fun s act hok => ⟨hok.1, fun _ => hok.2, fun hq => hq.elim⟩) hrun)
  exact ⟨s, hexec, fun w hw id hid => ((h.cross trivial).writes w hw id hid).2⟩

/-- **No data to a peer that was not verified.**  In every run
`processCommandBuffer` only sees bytes of a verified client; and if no thread
writes to the descriptor in `s_fdCommand` before the credential check is over,
every write goes to a verified client. -/
theorem peers_verified (main : τ) (acts : List (Act α τ)) (fuel : Nat)
    (hfuel : acts.length < fuel)
    (hrun : Along (serverStep main fuel) (fun s act => act.Legal main s) Server.start acts) :
    ∃ s, exec (serverStep main fuel) Server.start acts = some s ∧
      (∀ p ∈ s.parsed, p.2 = true) ∧
      (Along (serverStep main fuel) (fun s act => act.Guarded s) Server.start acts →
        ∀ w ∈ s.writes, w.verified = true) := by
  obtain ⟨s, l, hexec, h⟩ := serverRun_keeps (P := False)
    (Q := Along (serverStep main fuel) (fun s act => act.Guarded s) Server.start acts)
    (start_server main _ _) (by simpa using hfuel)
    (along_imp (fun s act hok => ⟨hok.1, fun hp => hp.elim, hok.2⟩)
      (along_and_imp hrun (fun hq => hq)))
  exact ⟨s, hexec, h.parsed, h.guarded⟩

omit [DecidableEq α] [DecidableEq τ] in
theorem allIdle_unhurried {s : Server α τ} (h : ∀ t, s.Idle t) (t : τ) : ¬ s.Answering t := by
  intro hanswer
  obtain ⟨hheld, hsender⟩ := h t
  rcases hanswer with ⟨a, v, -, hcase⟩ | ⟨id, pc, hs⟩
  · simp [hheld] at hcase
  · rw [hsender] at hs
    cases hs

/-- A request is read, answered and freed; the client leaves and the next one
gets the same descriptor. -/
def twoSessions : List (Act Nat Bool) :=
  [.accept 9, .lookup true, .decide, .read 7 1 40, .link, .complete true (some 7),
    .proceed true, .proceed true, .proceed true, .send true true, .send true true,
    .send true true, .send true true, .proceed true, .close, .reset, .cancel, .accept 9]

theorem responses_stay_twoSessions :
    ∃ s, exec (serverStep false 20) Server.start twoSessions = some s ∧
      ∀ w ∈ s.writes, ∀ id, w.frame = some id → s.origin id = some w.conn := by
  refine responses_stay false twoSessions 20 (by decide) ?_
  refine ⟨⟨⟨rfl, ⟨rfl, rfl⟩, by decide, rfl⟩, allIdle_unhurried (by intro t; cases t <;> exact ⟨rfl, rfl⟩)⟩, fun _ h₁ => ?_⟩
  cases h₁
  refine ⟨⟨rfl, trivial⟩, fun _ h₂ => ?_⟩
  cases h₂
  refine ⟨⟨⟨_, rfl⟩, trivial⟩, fun _ h₃ => ?_⟩
  cases h₃
  refine ⟨⟨⟨rfl, ⟨rfl, rfl⟩, rfl, rfl⟩, trivial⟩, fun _ h₄ => ?_⟩
  cases h₄
  refine ⟨⟨⟨7, rfl⟩, trivial⟩, fun _ h₅ => ?_⟩
  cases h₅
  refine ⟨⟨⟨rfl, rfl⟩, trivial⟩, fun _ h₆ => ?_⟩
  cases h₆
  refine ⟨⟨⟨7, _, rfl, by decide, rfl⟩, trivial⟩, fun _ h₇ => ?_⟩
  cases h₇
  refine ⟨⟨⟨7, _, rfl, by decide, rfl⟩, trivial⟩, fun _ h₈ => ?_⟩
  cases h₈
  refine ⟨⟨⟨7, _, rfl, by decide, rfl⟩, trivial⟩, fun _ h₉ => ?_⟩
  cases h₉
  refine ⟨⟨rfl, trivial⟩, fun _ h₁₀ => ?_⟩
  cases h₁₀
  refine ⟨⟨rfl, trivial⟩, fun _ h₁₁ => ?_⟩
  cases h₁₁
  refine ⟨⟨rfl, trivial⟩, fun _ h₁₂ => ?_⟩
  cases h₁₂
  refine ⟨⟨rfl, trivial⟩, fun _ h₁₃ => ?_⟩
  cases h₁₃
  refine ⟨⟨⟨7, _, rfl, by decide, rfl⟩, trivial⟩, fun _ h₁₄ => ?_⟩
  cases h₁₄
  refine ⟨⟨⟨rfl, rfl, rfl⟩, trivial⟩, fun _ h₁₅ => ?_⟩
  cases h₁₅
  refine ⟨⟨rfl, trivial⟩, fun _ h₁₆ => ?_⟩
  cases h₁₆
  refine ⟨⟨⟨rfl, rfl, rfl⟩, trivial⟩, fun _ h₁₇ => ?_⟩
  cases h₁₇
  exact ⟨⟨⟨rfl, ⟨rfl, rfl⟩, by decide, rfl⟩, allIdle_unhurried (by intro t; cases t <;> exact ⟨rfl, rfl⟩)⟩, fun _ _ => trivial⟩

/-- The vendor thread has passed the test of `cancelled` when the client leaves
and the next one is accepted. -/
def crossedSessions : List (Act Nat Bool) :=
  [.accept 9, .lookup true, .decide, .read 7 1 40, .link, .complete true (some 7),
    .proceed true, .proceed true, .close, .reset, .cancel, .accept 9, .lookup true, .decide,
    .proceed true, .send true true, .send true true, .send true true, .send true true]

/-- The response to a request of connection 0 is written to connection 1. -/
theorem response_crosses :
    Along (serverStep false 20) (fun s act => act.Legal false s) Server.start crossedSessions ∧
      ∃ s, exec (serverStep false 20) Server.start crossedSessions = some s ∧
        (⟨some 0, 1, true⟩ : Write) ∈ s.writes ∧ s.origin 0 = some 0 := by
  refine ⟨?_, _, rfl, by decide, rfl⟩
  refine ⟨⟨rfl, ⟨rfl, rfl⟩, by decide, rfl⟩, fun _ h₁ => ?_⟩
  cases h₁
  refine ⟨rfl, fun _ h₂ => ?_⟩
  cases h₂
  refine ⟨⟨_, rfl⟩, fun _ h₃ => ?_⟩
  cases h₃
  refine ⟨⟨rfl, ⟨rfl, rfl⟩, rfl, rfl⟩, fun _ h₄ => ?_⟩
  cases h₄
  refine ⟨⟨7, rfl⟩, fun _ h₅ => ?_⟩
  cases h₅
  refine ⟨⟨rfl, rfl⟩, fun _ h₆ => ?_⟩
  cases h₆
  refine ⟨⟨7, _, rfl, by decide, rfl⟩, fun _ h₇ => ?_⟩
  cases h₇
  refine ⟨⟨7, _, rfl, by decide, rfl⟩, fun _ h₈ => ?_⟩
  cases h₈
  refine ⟨⟨rfl, rfl, rfl⟩, fun _ h₉ => ?_⟩
  cases h₉
  refine ⟨rfl, fun _ h₁₀ => ?_⟩
  cases h₁₀
  refine ⟨⟨rfl, rfl, rfl⟩, fun _ h₁₁ => ?_⟩
  cases h₁₁
  refine ⟨⟨rfl, ⟨rfl, rfl⟩, by decide, rfl⟩, fun _ h₁₂ => ?_⟩
  cases h₁₂
  refine ⟨rfl, fun _ h₁₃ => ?_⟩
  cases h₁₃
  refine ⟨⟨_, rfl⟩, fun _ h₁₄ => ?_⟩
  cases h₁₄
  refine ⟨⟨7, _, rfl, by decide, rfl⟩, fun _ h₁₅ => ?_⟩
  cases h₁₅
  refine ⟨rfl, fun _ h₁₆ => ?_⟩
  cases h₁₆
  refine ⟨rfl, fun _ h₁₇ => ?_⟩
  cases h₁₇
  refine ⟨rfl, fun _ h₁₈ => ?_⟩
  cases h₁₈
  exact ⟨rfl, fun _ _ => trivial⟩

/-- A thread picks up the new descriptor and waits until the lookup is over. -/
def patientSender : List (Act Nat Bool) :=
  [.accept 9, .unsolicited true, .send true true, .send true true, .lookup true,
    .send true true, .send true true]

theorem peers_verified_patientSender :
    ∃ s, exec (serverStep false 8) Server.start patientSender = some s ∧
      (∀ p ∈ s.parsed, p.2 = true) ∧ ∀ w ∈ s.writes, w.verified = true := by
  have hlegal : Along (serverStep false 8) (fun s act => act.Legal false s) Server.start
      patientSender := by
    refine ⟨⟨rfl, ⟨rfl, rfl⟩, by decide, rfl⟩, fun _ h₁ => ?_⟩
    cases h₁
    refine ⟨⟨rfl, rfl⟩, fun _ h₂ => ?_⟩
    cases h₂
    refine ⟨rfl, fun _ h₃ => ?_⟩
    cases h₃
    refine ⟨rfl, fun _ h₄ => ?_⟩
    cases h₄
    refine ⟨rfl, fun _ h₅ => ?_⟩
    cases h₅
    refine ⟨rfl, fun _ h₆ => ?_⟩
    cases h₆
    exact ⟨rfl, fun _ _ => trivial⟩
  have hguarded : Along (serverStep false 8) (fun s act => act.Guarded s) Server.start
      patientSender := by
    refine ⟨trivial, fun _ h₁ => ?_⟩
    cases h₁
    refine ⟨trivial, fun _ h₂ => ?_⟩
    cases h₂
    refine ⟨fun _ _ hs _ => (by rcases hs with hs | hs <;> cases hs), fun _ h₃ => ?_⟩
    cases h₃
    refine ⟨fun _ _ hs _ => (by rcases hs with hs | hs <;> cases hs), fun _ h₄ => ?_⟩
    cases h₄
    refine ⟨trivial, fun _ h₅ => ?_⟩
    cases h₅
    refine ⟨fun _ _ _ hun => (by rcases hun with hun | hun <;> cases hun), fun _ h₆ => ?_⟩
    cases h₆
    exact ⟨fun _ _ _ hun => (by rcases hun with hun | hun <;> cases hun), fun _ _ => trivial⟩
  obtain ⟨s, hexec, hparsed, hwrites⟩ := peers_verified false patientSender 8 (by decide) hlegal
  exact ⟨s, hexec, hparsed, hwrites hguarded⟩

/-- A thread sends while the lookup is still to come, and the peer is not the
phone. -/
def earlySender : List (Act Nat Bool) :=
  [.accept 9, .unsolicited true, .send true true, .send true true, .send true true,
    .lookup false]

theorem unverified_peer_written :
    Along (serverStep false 8) (fun s act => act.Legal false s) Server.start earlySender ∧
      ∃ s, exec (serverStep false 8) Server.start earlySender = some s ∧
        (⟨none, 0, false⟩ : Write) ∈ s.writes ∧ s.verified 0 = false := by
  refine ⟨?_, _, rfl, by decide, rfl⟩
  refine ⟨⟨rfl, ⟨rfl, rfl⟩, by decide, rfl⟩, fun _ h₁ => ?_⟩
  cases h₁
  refine ⟨⟨rfl, rfl⟩, fun _ h₂ => ?_⟩
  cases h₂
  refine ⟨rfl, fun _ h₃ => ?_⟩
  cases h₃
  refine ⟨rfl, fun _ h₄ => ?_⟩
  cases h₄
  refine ⟨rfl, fun _ h₅ => ?_⟩
  cases h₅
  exact ⟨rfl, fun _ _ => trivial⟩

end Libril
