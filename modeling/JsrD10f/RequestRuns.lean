import JsrD10f.PendingRequests
import JsrD10f.Runs

/-!
# Request bookkeeping over whole runs

Requests enter the list from `processCommandBuffer` and `issueLocalRequest`, and
`RIL_onRequestComplete` takes them out on any thread, for any token the vendor
passes.  A step of the system is one mutex section or one access to the record
between two of them.  The history, newest entry first, tells the requests
apart by a serial number, because addresses and tokens come again.

The invariant follows each record from its allocation to its `free`: it is
held by exactly one thread or it is on the list, and its stage says what the
history knows about it.
-/

namespace Libril

open LinkChain Runs

/-- What has happened to the request with a serial number; `closed` is a pass
of `onCommandsSocketClosed`. -/
inductive Entry where
  | queued (id : Nat) (token : Int) (isLocal : Bool)
  | dequeued (id : Nat)
  | sent (id : Nat) (token : Int)
  | closed
deriving DecidableEq, Repr

/-- Where a thread stands that holds a record: in front of the push, or in
`RIL_onRequestComplete` behind the dequeue, behind the test of `local`, behind
the test of `cancelled`, and at `done`. -/
inductive Stage where
  | linking
  | dequeued
  | answering
  | sending
  | freeing
deriving DecidableEq, Repr

/-- The list, the record each thread holds, and the history. -/
structure Bookkeeping (α τ : Type) where
  requests : Requests α Nat
  held : τ → Option (α × Stage)
  serial : Nat
  history : List Entry

def Bookkeeping.start {α τ : Type} : Bookkeeping α τ :=
  ⟨Requests.empty, fun _ => none, 0, []⟩

/-- One step of a thread.  `a` is the address `calloc` returns, and a token is
any pointer. -/
inductive Move (α τ : Type) where
  | processCommandBuffer (t : τ) (a : α) (request : Nat) (token : Int)
  | issueLocalRequest (t : τ) (a : α) (request : Nat)
  | link (t : τ)
  | onRequestComplete (t : τ) (token : Option α)
  | proceed (t : τ)
  | onCommandsSocketClosed (t : τ)
deriving DecidableEq, Repr

variable {α τ : Type} [DecidableEq α] [DecidableEq τ]

def Bookkeeping.hold (m : Bookkeeping α τ) (t : τ) (h : Option (α × Stage)) :
    Bookkeeping α τ :=
  { m with held := Function.update m.held t h }

/-- `calloc` and the initialisation of a record that no other thread sees. -/
def Bookkeeping.calloc (m : Bookkeeping α τ) (t : τ) (a : α) (request : Nat) (token : Int)
    (isLocal : Bool) : Bookkeeping α τ :=
  { m with
    requests := m.requests.alloc a ⟨token, request, none, false, isLocal, m.serial⟩
    serial := m.serial + 1
    held := Function.update m.held t (some (a, .linking)) }

/-- `RIL_onRequestComplete` behind the dequeue, one access to the record at a
time. -/
def Bookkeeping.proceed (m : Bookkeeping α τ) (t : τ) : Option (Bookkeeping α τ) :=
  match m.held t with
  | some (a, .dequeued) => do
      let v ← m.requests.heap a
      some (m.hold t (some (a, if v.isLocal then .freeing else .answering)))
  | some (a, .answering) => do
      let v ← m.requests.heap a
      some (m.hold t (some (a, if v.cancelled then .freeing else .sending)))
  | some (a, .sending) => do
      let v ← m.requests.heap a
      some { m.hold t (some (a, .freeing)) with
        history := .sent v.ghost v.token :: m.history }
  | some (a, .freeing) =>
      some { m.hold t none with requests := m.requests.free a }
  | _ => none

def bookStep (fuel : Nat) (m : Bookkeeping α τ) : Move α τ → Option (Bookkeeping α τ)
  | .processCommandBuffer t a request token => some (m.calloc t a request token false)
  | .issueLocalRequest t a request => some (m.calloc t a request localToken true)
  | .link t =>
      match m.held t with
      | some (a, .linking) => do
          let v ← m.requests.heap a
          let q ← m.requests.link a
          some { m.hold t none with
            requests := q
            history := .queued v.ghost v.token v.isLocal :: m.history }
      | _ => none
  | .onRequestComplete t token => do
      let (found, q) ← checkAndDequeueRequestInfo fuel token m.requests
      if found then do
        let a ← token
        let v ← q.heap a
        some { m.hold t (some (a, .dequeued)) with
          requests := q
          history := .dequeued v.ghost :: m.history }
      else some { m with requests := q }
  | .proceed t => m.proceed t
  | .onCommandsSocketClosed _ => do
      let q ← onCommandsSocketClosed fuel m.requests
      some { m with requests := q, history := .closed :: m.history }

/-- A thread begins an operation when it is not inside another one, and
`calloc` returns an address that is not in use. -/
def Move.Legal (m : Bookkeeping α τ) : Move α τ → Prop
  | .processCommandBuffer t a _ _ => m.held t = none ∧ m.requests.heap a = none
  | .issueLocalRequest t a _ => m.held t = none ∧ m.requests.heap a = none
  | .link t => ∃ a, m.held t = some (a, .linking)
  | .onRequestComplete t _ => m.held t = none
  | .proceed t => ∃ a stage, m.held t = some (a, stage) ∧ stage ≠ .linking
  | .onCommandsSocketClosed t => m.held t = none

/-! ## What a history says -/

/-- The request was queued and is not yet dequeued. -/
def PendingIn (h : List Entry) (id : Nat) : Prop :=
  (∃ token isLocal, Entry.queued id token isLocal ∈ h) ∧ Entry.dequeued id ∉ h

/-- The request was pending when the socket was closed. -/
def CutOff : List Entry → Nat → Prop
  | [], _ => False
  | .closed :: h, id => PendingIn h id ∨ CutOff h id
  | .queued _ _ _ :: h, id => CutOff h id
  | .dequeued _ :: h, id => CutOff h id
  | .sent _ _ :: h, id => CutOff h id

/-- The number of responses handed to `sendResponse` for a request. -/
def sentCount (h : List Entry) (id : Nat) : Nat :=
  h.countP fun
    | .sent i _ => i == id
    | _ => false

/-- The request an entry is about. -/
def Entry.about : Entry → Option Nat
  | .queued id _ _ => some id
  | .dequeued id => some id
  | .sent id _ => some id
  | .closed => none

theorem cutOff_cons {e : Entry} {i : Nat} (he : e.about = some i) (h : List Entry) (id : Nat) :
    CutOff (e :: h) id ↔ CutOff h id := by
  cases e with
  | closed => cases he
  | queued _ _ _ => exact Iff.rfl
  | dequeued _ => exact Iff.rfl
  | sent _ _ => exact Iff.rfl

theorem CutOff.queued {h : List Entry} {id : Nat} (hc : CutOff h id) :
    ∃ token isLocal, Entry.queued id token isLocal ∈ h := by
  induction h with
  | nil => cases hc
  | cons e h ih =>
      have hor : (∃ token isLocal, Entry.queued id token isLocal ∈ h) ∨ CutOff h id := by
        cases e with
        | closed => exact hc.imp (fun hp => hp.1) (fun hc => hc)
        | queued _ _ _ => exact Or.inr hc
        | dequeued _ => exact Or.inr hc
        | sent _ _ => exact Or.inr hc
      obtain ⟨token, isLocal, hm⟩ := hor.elim (fun hq => hq) ih
      exact ⟨token, isLocal, List.mem_cons_of_mem _ hm⟩

theorem sentCount_cons {e : Entry} {h : List Entry} {id : Nat}
    (he : ∀ token, e ≠ .sent id token) : sentCount (e :: h) id = sentCount h id := by
  cases e with
  | sent i token =>
      have hi : i ≠ id := fun hi => he token (hi ▸ rfl)
      simp [sentCount, hi]
  | queued _ _ _ => simp [sentCount]
  | dequeued _ => simp [sentCount]
  | closed => simp [sentCount]

theorem sentCount_sent (h : List Entry) (id : Nat) (token : Int) :
    sentCount (.sent id token :: h) id = sentCount h id + 1 := by
  simp [sentCount]

theorem sentCount_eq_zero {h : List Entry} {id : Nat} :
    sentCount h id = 0 ↔ ∀ token, Entry.sent id token ∉ h := by
  rw [sentCount, List.countP_eq_zero]
  constructor
  · intro hall token hm
    exact absurd (hall _ hm) (by simp)
  · intro hall e he
    cases e with
    | sent i token =>
        have hi : i ≠ id := fun hi => hall token (hi ▸ he)
        simpa using hi
    | queued _ _ _ => simp
    | dequeued _ => simp
    | closed => simp

/-- What every history of the system satisfies. -/
structure HistoryOk (h : List Entry) (serial : Nat) : Prop where
  past : ∀ id token isLocal, .queued id token isLocal ∈ h → id < serial
  order : ∀ id, .dequeued id ∈ h → ∃ token isLocal, Entry.queued id token isLocal ∈ h
  origin : ∀ id token, .sent id token ∈ h → .queued id token false ∈ h ∧ .dequeued id ∈ h
  unique : ∀ id token isLocal token' isLocal', .queued id token isLocal ∈ h →
    .queued id token' isLocal' ∈ h → token = token' ∧ isLocal = isLocal'
  once : ∀ id, sentCount h id ≤ 1
  silent : ∀ id, CutOff h id → sentCount h id = 0

/-- The record of a request on the list. -/
structure ListedOk (h : List Entry) (v : RequestInfo α Nat) : Prop where
  queued : .queued v.ghost v.token v.isLocal ∈ h
  waiting : .dequeued v.ghost ∉ h
  marked : CutOff h v.ghost → v.cancelled = true

/-- The record of a request that was dequeued and not yet answered. -/
structure Taken (h : List Entry) (v : RequestInfo α Nat) : Prop where
  queued : .queued v.ghost v.token v.isLocal ∈ h
  dequeued : .dequeued v.ghost ∈ h
  unanswered : sentCount h v.ghost = 0
  marked : CutOff h v.ghost → v.cancelled = true

/-- The record that a thread holds at a stage. -/
def HeldOk (h : List Entry) (v : RequestInfo α Nat) : Stage → Prop
  | .linking => ∀ token isLocal, Entry.queued v.ghost token isLocal ∉ h
  | .dequeued => Taken h v
  | .answering => Taken h v ∧ v.isLocal = false
  | .sending => Taken h v ∧ v.isLocal = false ∧ ¬ CutOff h v.ghost
  | .freeing => True

section Frame

variable {h : List Entry} {v : RequestInfo α Nat} {e : Entry} {i : Nat}

omit [DecidableEq α] in
theorem ListedOk.frame (hv : ListedOk h v) (he : e.about = some i) (hne : v.ghost ≠ i) :
    ListedOk (e :: h) v where
  queued := List.mem_cons_of_mem _ hv.queued
  waiting := by
    intro hm
    rcases List.mem_cons.mp hm with heq | hm
    · rw [← heq] at he
      exact hne (Option.some.inj he)
    · exact hv.waiting hm
  marked := fun hc => hv.marked ((cutOff_cons he h _).mp hc)

omit [DecidableEq α] in
theorem Taken.frame (hv : Taken h v) (he : e.about = some i) (hne : v.ghost ≠ i) :
    Taken (e :: h) v where
  queued := List.mem_cons_of_mem _ hv.queued
  dequeued := List.mem_cons_of_mem _ hv.dequeued
  unanswered := by
    rw [sentCount_cons, hv.unanswered]
    intro token heq
    rw [heq] at he
    exact hne (Option.some.inj he)
  marked := fun hc => hv.marked ((cutOff_cons he h _).mp hc)

omit [DecidableEq α] in
theorem HeldOk.frame {stage : Stage} (hv : HeldOk h v stage) (he : e.about = some i)
    (hne : v.ghost ≠ i) : HeldOk (e :: h) v stage := by
  cases stage with
  | linking =>
      intro token isLocal hm
      rcases List.mem_cons.mp hm with heq | hm
      · rw [← heq] at he
        exact hne (Option.some.inj he)
      · exact hv token isLocal hm
  | dequeued => exact Taken.frame hv he hne
  | answering => exact ⟨hv.1.frame he hne, hv.2⟩
  | sending =>
      exact ⟨hv.1.frame he hne, hv.2.1, fun hc => hv.2.2 ((cutOff_cons he h _).mp hc)⟩
  | freeing => trivial

omit [DecidableEq α] in
/-- Closing the socket cuts off no request that a thread holds. -/
theorem HeldOk.closed {stage : Stage} (hv : HeldOk h v stage) :
    HeldOk (.closed :: h) v stage := by
  have htaken : Taken h v → Taken (.closed :: h) v ∧
      (¬ CutOff h v.ghost → ¬ CutOff (.closed :: h) v.ghost) := by
    intro ht
    have hback : CutOff (.closed :: h) v.ghost → CutOff h v.ghost := by
      intro hc
      rcases hc with hp | hc
      · exact absurd ht.dequeued hp.2
      · exact hc
    refine ⟨⟨List.mem_cons_of_mem _ ht.queued, List.mem_cons_of_mem _ ht.dequeued, ?_,
      fun hc => ht.marked (hback hc)⟩, fun hno hc => hno (hback hc)⟩
    rw [sentCount_cons (by simp)]
    exact ht.unanswered
  cases stage with
  | linking =>
      intro token isLocal hm
      exact hv token isLocal (by simpa using hm)
  | dequeued => exact (htaken hv).1
  | answering => exact ⟨(htaken hv.1).1, hv.2⟩
  | sending => exact ⟨(htaken hv.1).1, hv.2.1, (htaken hv.1).2 hv.2.2⟩
  | freeing => trivial

end Frame

section HistorySteps

variable {h : List Entry} {n id : Nat} {token : Int} {isLocal : Bool}

theorem HistoryOk.later (hh : HistoryOk h n) : HistoryOk h (n + 1) :=
  { hh with past := fun id token isLocal hm => Nat.lt_succ_of_lt (hh.past id token isLocal hm) }

theorem HistoryOk.waiting_unanswered (hh : HistoryOk h n) (hid : Entry.dequeued id ∉ h) :
    sentCount h id = 0 :=
  sentCount_eq_zero.mpr fun token hm => hid (hh.origin id token hm).2

theorem HistoryOk.queue (hh : HistoryOk h n)
    (hnew : ∀ token isLocal, Entry.queued id token isLocal ∉ h) (hid : id < n) :
    HistoryOk (.queued id token isLocal :: h) n where
  past := by
    intro i tok loc hm
    rcases List.mem_cons.mp hm with heq | hm
    · cases heq
      exact hid
    · exact hh.past i tok loc hm
  order := by
    intro i hm
    obtain ⟨tok, loc, hq⟩ := hh.order i (by simpa using hm)
    exact ⟨tok, loc, List.mem_cons_of_mem _ hq⟩
  origin := by
    intro i tok hm
    obtain ⟨hq, hd⟩ := hh.origin i tok (by simpa using hm)
    exact ⟨List.mem_cons_of_mem _ hq, List.mem_cons_of_mem _ hd⟩
  unique := by
    intro i tok loc tok' loc' hm hm'
    rcases List.mem_cons.mp hm with heq | hm
    · rcases List.mem_cons.mp hm' with heq' | hm'
      · cases heq
        cases heq'
        exact ⟨rfl, rfl⟩
      · cases heq
        exact absurd hm' (hnew tok' loc')
    · rcases List.mem_cons.mp hm' with heq' | hm'
      · cases heq'
        exact absurd hm (hnew tok loc)
      · exact hh.unique i tok loc tok' loc' hm hm'
  once := by
    intro i
    rw [sentCount_cons (by simp)]
    exact hh.once i
  silent := by
    intro i hc
    rw [sentCount_cons (by simp)]
    exact hh.silent i hc

/-- An entry that queues nothing. -/
theorem HistoryOk.add {e : Entry} (hh : HistoryOk h n)
    (hnew : ∀ i tok loc, e ≠ .queued i tok loc)
    (hdeq : ∀ i, e = .dequeued i → ∃ tok loc, Entry.queued i tok loc ∈ h)
    (hsent : ∀ i tok, e = .sent i tok → .queued i tok false ∈ h ∧ .dequeued i ∈ h)
    (honce : ∀ i, sentCount (e :: h) i ≤ 1)
    (hsilent : ∀ i, CutOff (e :: h) i → sentCount (e :: h) i = 0) : HistoryOk (e :: h) n := by
  have hq : ∀ i tok loc, .queued i tok loc ∈ e :: h → .queued i tok loc ∈ h := by
    intro i tok loc hm
    rcases List.mem_cons.mp hm with heq | hm
    · exact absurd heq.symm (hnew i tok loc)
    · exact hm
  refine ⟨?_, ?_, ?_, ?_, honce, hsilent⟩
  · intro i tok loc hm
    exact hh.past i tok loc (hq i tok loc hm)
  · intro i hm
    rcases List.mem_cons.mp hm with heq | hm
    · obtain ⟨tok, loc, hi⟩ := hdeq i heq.symm
      exact ⟨tok, loc, List.mem_cons_of_mem _ hi⟩
    · obtain ⟨tok, loc, hi⟩ := hh.order i hm
      exact ⟨tok, loc, List.mem_cons_of_mem _ hi⟩
  · intro i tok hm
    have hold : .queued i tok false ∈ h ∧ .dequeued i ∈ h := by
      rcases List.mem_cons.mp hm with heq | hm
      · exact hsent i tok heq.symm
      · exact hh.origin i tok hm
    exact ⟨List.mem_cons_of_mem _ hold.1, List.mem_cons_of_mem _ hold.2⟩
  · intro i tok loc tok' loc' hm hm'
    exact hh.unique i tok loc tok' loc' (hq i tok loc hm) (hq i tok' loc' hm')

theorem HistoryOk.dequeue (hh : HistoryOk h n)
    (hid : Entry.queued id token isLocal ∈ h) : HistoryOk (.dequeued id :: h) n := by
  refine hh.add (by simp) ?_ (by simp) ?_ ?_
  · intro i heq
    cases heq
    exact ⟨token, isLocal, hid⟩
  · intro i
    rw [sentCount_cons (by simp)]
    exact hh.once i
  · intro i hc
    rw [sentCount_cons (by simp)]
    exact hh.silent i hc

theorem HistoryOk.send (hh : HistoryOk h n) (hq : Entry.queued id token false ∈ h)
    (hd : Entry.dequeued id ∈ h) (hnone : sentCount h id = 0) (hcut : ¬ CutOff h id) :
    HistoryOk (.sent id token :: h) n := by
  have hother : ∀ i, i ≠ id → sentCount (.sent id token :: h) i = sentCount h i := by
    intro i hi
    apply sentCount_cons
    intro tok heq
    cases heq
    exact hi rfl
  refine hh.add (by simp) (by simp) ?_ ?_ ?_
  · intro i tok heq
    cases heq
    exact ⟨hq, hd⟩
  · intro i
    by_cases hi : i = id
    · rw [hi, sentCount_sent]
      omega
    · rw [hother i hi]
      exact hh.once i
  · intro i hc
    have hi : i ≠ id := fun hi => hcut (hi ▸ hc)
    rw [hother i hi]
    exact hh.silent i hc

theorem HistoryOk.close (hh : HistoryOk h n) : HistoryOk (.closed :: h) n := by
  refine hh.add (by simp) (by simp) (by simp) ?_ ?_
  · intro i
    rw [sentCount_cons (by simp)]
    exact hh.once i
  · intro i hc
    rw [sentCount_cons (by simp)]
    rcases hc with hp | hc
    · exact hh.waiting_unanswered hp.2
    · exact hh.silent i hc

end HistorySteps

/-! ## The invariant -/

/-- No two threads hold the same record. -/
def Apart (held : τ → Option (α × Stage)) : Prop :=
  ∀ t u a stage stage', held t = some (a, stage) → held u = some (a, stage') → t = u

omit [DecidableEq α] in
theorem Apart.update {held : τ → Option (α × Stage)} {t : τ} {x : Option (α × Stage)}
    (h : Apart held)
    (hx : ∀ a stage, x = some (a, stage) → ∀ u stage', u ≠ t → held u ≠ some (a, stage')) :
    Apart (Function.update held t x) := by
  intro u w a stage stage' hu hw
  by_cases hut : u = t
  · by_cases hwt : w = t
    · rw [hut, hwt]
    · rw [hut, Function.update_self] at hu
      rw [Function.update_of_ne hwt] at hw
      exact absurd hw (hx a stage hu w stage' hwt)
  · rw [Function.update_of_ne hut] at hu
    by_cases hwt : w = t
    · rw [hwt, Function.update_self] at hw
      exact absurd hu (hx a stage' hw u stage hut)
    · rw [Function.update_of_ne hwt] at hw
      exact h u w a stage stage' hu hw

/-- The invariant of a state whose list is `l`. -/
structure BookInv (m : Bookkeeping α τ) (l : List α) : Prop where
  pending : Pending m.requests l
  listed : ∀ a ∈ l, ∃ v, m.requests.info a = some v ∧ ListedOk m.history v
  held : ∀ t a stage, m.held t = some (a, stage) →
    a ∉ l ∧ ∃ v, m.requests.info a = some v ∧ HeldOk m.history v stage
  apart : Apart m.held
  serials : ∀ a v, m.requests.info a = some v → v.ghost < m.serial
  distinct : ∀ a b v w, m.requests.info a = some v → m.requests.info b = some w →
    v.ghost = w.ghost → a = b
  history : HistoryOk m.history m.serial
  all : ∀ id, PendingIn m.history id → ∃ a ∈ l, ∃ v, m.requests.info a = some v ∧ v.ghost = id

omit [DecidableEq α] [DecidableEq τ] in
theorem start_inv : BookInv (Bookkeeping.start : Bookkeeping α τ) [] where
  pending := ⟨rfl, by simp⟩
  listed := by simp
  held := by simp [Bookkeeping.start]
  apart := by simp [Bookkeeping.start, Apart]
  serials := by simp [Bookkeeping.start, Requests.empty, Requests.info]
  distinct := by simp [Bookkeeping.start, Requests.empty, Requests.info]
  history := ⟨by simp [Bookkeeping.start], by simp [Bookkeeping.start],
    by simp [Bookkeeping.start], by simp [Bookkeeping.start], by simp [Bookkeeping.start, sentCount],
    by simp [Bookkeeping.start, CutOff]⟩
  all := by simp [Bookkeeping.start, PendingIn]

section Steps

variable {m : Bookkeeping α τ} {l : List α} {t : τ}

theorem calloc_info_self (m : Bookkeeping α τ) (t : τ) (a : α) (request : Nat) (token : Int)
    (isLocal : Bool) : (m.calloc t a request token isLocal).requests.info a =
      some ⟨token, request, none, false, isLocal, m.serial⟩ :=
  info_alloc_self m.requests a _

theorem calloc_info_of_ne (m : Bookkeeping α τ) (t : τ) {a b : α} (hb : b ≠ a) (request : Nat)
    (token : Int) (isLocal : Bool) :
    (m.calloc t a request token isLocal).requests.info b = m.requests.info b :=
  info_alloc_of_ne hb _

/-- Only the caller of `calloc` holds a new record. -/
theorem calloc_held_cases {a b : α} {request : Nat} {token : Int} {isLocal : Bool} {u : τ}
    {stage : Stage} (hu : (m.calloc t a request token isLocal).held u = some (b, stage)) :
    (u ≠ t ∧ m.held u = some (b, stage)) ∨ (u = t ∧ b = a ∧ stage = .linking) := by
  by_cases hut : u = t
  · rw [hut] at hu
    simp only [Bookkeeping.calloc, Function.update_self] at hu
    obtain ⟨rfl, rfl⟩ := Prod.mk.inj (Option.some.inj hu)
    exact Or.inr ⟨hut, rfl, rfl⟩
  · simp only [Bookkeeping.calloc, Function.update_of_ne hut] at hu
    exact Or.inl ⟨hut, hu⟩

/-- `calloc` gives its caller a record that no other thread and no list holds. -/
theorem calloc_keeps (h : BookInv m l) {a : α} (hfree : m.requests.heap a = none)
    (request : Nat) (token : Int) (isLocal : Bool) :
    BookInv (m.calloc t a request token isLocal) l := by
  have hother : ∀ b v, m.requests.info b = some v → b ≠ a := fun b v hv => ne_of_info hfree hv
  have hinfo : ∀ b, b ≠ a →
      (m.calloc t a request token isLocal).requests.info b = m.requests.info b :=
    fun b hb => calloc_info_of_ne m t hb request token isLocal
  have hinfoa := calloc_info_self m t a request token isLocal
  have ha : a ∉ l := by
    intro ha
    obtain ⟨v, hv, -⟩ := h.listed a ha
    exact hother a v hv rfl
  refine ⟨h.pending.write_other ha _, ?_, ?_, ?_, ?_, ?_, h.history.later, ?_⟩
  · intro b hb
    obtain ⟨v, hv, hok⟩ := h.listed b hb
    exact ⟨v, by rw [hinfo b (hother b v hv), hv], hok⟩
  · intro u b stage hu
    rcases calloc_held_cases hu with ⟨-, hu⟩ | ⟨-, rfl, rfl⟩
    · obtain ⟨hb, v, hv, hok⟩ := h.held u b stage hu
      exact ⟨hb, v, by rw [hinfo b (hother b v hv), hv], hok⟩
    · refine ⟨ha, _, hinfoa, ?_⟩
      intro tok loc hm
      exact absurd (h.history.past _ _ _ hm) (Nat.lt_irrefl _)
  · refine h.apart.update ?_
    intro b stage hb u stage' _ hu
    obtain ⟨rfl, -⟩ := Prod.mk.inj (Option.some.inj hb)
    obtain ⟨-, v, hv, -⟩ := h.held u a stage' hu
    exact hother a v hv rfl
  · intro b v hv
    by_cases hba : b = a
    · rw [hba, hinfoa] at hv
      cases hv
      exact Nat.lt_succ_self _
    · rw [hinfo b hba] at hv
      exact Nat.lt_succ_of_lt (h.serials b v hv)
  · intro b c v w hv hw hvw
    by_cases hba : b = a
    · by_cases hca : c = a
      · rw [hba, hca]
      · rw [hba, hinfoa] at hv
        rw [hinfo c hca] at hw
        cases hv
        exact absurd (h.serials c w hw) (by rw [← hvw]; exact Nat.lt_irrefl _)
    · rw [hinfo b hba] at hv
      by_cases hca : c = a
      · rw [hca, hinfoa] at hw
        cases hw
        exact absurd (h.serials b v hv) (by rw [hvw]; exact Nat.lt_irrefl _)
      · rw [hinfo c hca] at hw
        exact h.distinct b c v w hv hw hvw
  · intro id hid
    obtain ⟨b, hb, v, hv, hgid⟩ := h.all id hid
    exact ⟨b, hb, v, by rw [hinfo b (hother b v hv), hv], hgid⟩

/-- The push puts the caller's record on the list. -/
theorem link_keeps (h : BookInv m l) {a : α} (hheld : m.held t = some (a, .linking))
    (fuel : Nat) : ∃ m', bookStep fuel m (.link t) = some m' ∧ BookInv m' (a :: l) ∧
      m'.requests.info = m.requests.info ∧ m'.held = Function.update m.held t none ∧
      m'.serial = m.serial := by
  obtain ⟨ha, v, hv, hnew⟩ := h.held t a .linking hheld
  obtain ⟨w, hw, rfl⟩ := heap_of_info hv
  obtain ⟨q, hlink, hpending, hinfo⟩ := link_spec h.pending (by rw [hw]; rfl) ha
  have hne : ∀ b v, b ≠ a → m.requests.info b = some v → v.ghost ≠ w.ghost :=
    fun b v hba hb heq => hba (h.distinct b a v _ hb hv heq)
  refine ⟨{ m.hold t none with
      requests := q
      history := .queued w.ghost w.token w.isLocal :: m.history },
    by simp [bookStep, hheld, hw, hlink],
    ⟨hpending, ?_, ?_, ?_, ?_, ?_, ?_, ?_⟩, hinfo, rfl, rfl⟩
  · intro b hb
    rw [hinfo]
    by_cases hba : b = a
    · rw [hba]
      refine ⟨_, hv, List.mem_cons_self, ?_, ?_⟩
      · intro hm
        obtain ⟨tok, loc, hq⟩ := h.history.order w.ghost (by simpa using hm)
        exact hnew tok loc hq
      · intro hc
        obtain ⟨tok, loc, hq⟩ := CutOff.queued (h := m.history) hc
        exact absurd hq (hnew tok loc)
    · obtain ⟨v, hvb, hok⟩ := h.listed b (List.mem_of_ne_of_mem hba hb)
      exact ⟨v, hvb, hok.frame rfl (hne b v hba hvb)⟩
  · intro u b stage hu
    have hut : u ≠ t := by
      intro hut
      simp [Bookkeeping.hold, hut] at hu
    simp only [Bookkeeping.hold, Function.update_of_ne hut] at hu
    obtain ⟨hb, v, hvb, hok⟩ := h.held u b stage hu
    have hba : b ≠ a := fun hba => hut (h.apart u t a stage .linking (hba ▸ hu) hheld)
    rw [hinfo]
    exact ⟨by simp [hba, hb], v, hvb, hok.frame rfl (hne b v hba hvb)⟩
  · exact h.apart.update (by simp)
  · rw [hinfo]
    exact h.serials
  · rw [hinfo]
    exact h.distinct
  · exact h.history.queue hnew (h.serials a { w with pNext := none } hv)
  · intro id hid
    rw [hinfo]
    by_cases heq : id = w.ghost
    · exact ⟨a, List.mem_cons_self, _, hv, heq.symm⟩
    · obtain ⟨⟨tok, loc, hq⟩, hd⟩ := hid
      have hq : Entry.queued id tok loc ∈ m.history := by simpa [heq] using hq
      obtain ⟨b, hb, v, hvb, hgid⟩ := h.all id ⟨⟨tok, loc, hq⟩, by simpa using hd⟩
      exact ⟨b, List.mem_cons_of_mem _ hb, v, hvb, hgid⟩

/-- A token that is not on the list changes nothing. -/
theorem complete_unknown (h : BookInv m l) {fuel : Nat} (hfuel : l.length < fuel)
    {token : Option α} (hnot : ∀ a ∈ l, token ≠ some a) :
    bookStep fuel m (.onRequestComplete t token) = some m := by
  have hrun := (checkAndDequeueRequestInfo_spec h.pending hfuel token).1 hnot
  simp [bookStep, hrun]

/-- A token on the list leaves it, and its record belongs to the caller. -/
theorem complete_keeps (h : BookInv m l) {fuel : Nat} (hfuel : l.length < fuel) {a : α}
    (ha : a ∈ l) : ∃ m', bookStep fuel m (.onRequestComplete t (some a)) = some m' ∧
      BookInv m' (l.erase a) ∧ m'.requests.info = m.requests.info ∧
      m'.held = Function.update m.held t (some (a, .dequeued)) ∧ m'.serial = m.serial := by
  obtain ⟨q, hrun, hpending, hinfo⟩ :=
    (checkAndDequeueRequestInfo_spec h.pending hfuel (some a)).2 a ha rfl
  obtain ⟨v, hv, hok⟩ := h.listed a ha
  have hnd : l.Nodup := chain_nodup h.pending.chain
  obtain ⟨w, hw, rfl⟩ := heap_of_info (q := q) (by rw [hinfo]; exact hv)
  have hne : ∀ b v, b ≠ a → m.requests.info b = some v → v.ghost ≠ w.ghost :=
    fun b v hba hb heq => hba (h.distinct b a v _ hb hv heq)
  have hout : ∀ u b stage, m.held u = some (b, stage) → b ≠ a :=
    fun u b stage hu hba => (h.held u b stage hu).1 (hba ▸ ha)
  refine ⟨{ m.hold t (some (a, .dequeued)) with
      requests := q
      history := .dequeued w.ghost :: m.history }, by simp [bookStep, hrun, hw],
    ⟨hpending, ?_, ?_, ?_, ?_, ?_, ?_, ?_⟩, hinfo, rfl, rfl⟩
  · intro b hb
    obtain ⟨hba, hb⟩ := hnd.mem_erase_iff.mp hb
    obtain ⟨v, hvb, hok⟩ := h.listed b hb
    rw [hinfo]
    exact ⟨v, hvb, hok.frame rfl (hne b v hba hvb)⟩
  · intro u b stage hu
    rw [hinfo]
    by_cases hut : u = t
    · rw [hut] at hu
      simp only [Bookkeeping.hold, Function.update_self] at hu
      obtain ⟨rfl, rfl⟩ := Prod.mk.inj (Option.some.inj hu)
      refine ⟨fun hm => (hnd.mem_erase_iff.mp hm).1 rfl, _, hv,
        List.mem_cons_of_mem _ hok.queued, List.mem_cons_self, ?_, hok.marked⟩
      rw [sentCount_cons (by simp)]
      exact h.history.waiting_unanswered hok.waiting
    · simp only [Bookkeeping.hold, Function.update_of_ne hut] at hu
      obtain ⟨hb, v, hvb, hok⟩ := h.held u b stage hu
      exact ⟨fun hm => hb (List.mem_of_mem_erase hm), v, hvb,
        hok.frame rfl (hne b v (hout u b stage hu) hvb)⟩
  · refine h.apart.update ?_
    intro b stage hb u stage' _ hu
    obtain ⟨rfl, -⟩ := Prod.mk.inj (Option.some.inj hb)
    exact hout u a stage' hu rfl
  · rw [hinfo]
    exact h.serials
  · rw [hinfo]
    exact h.distinct
  · exact h.history.dequeue hok.queued
  · intro id hid
    obtain ⟨⟨tok, loc, hq⟩, hd⟩ := hid
    obtain ⟨hne', hd⟩ := List.ne_and_not_mem_of_not_mem_cons hd
    obtain ⟨b, hb, v, hvb, hgid⟩ := h.all id ⟨⟨tok, loc, by simpa using hq⟩, hd⟩
    rw [hinfo]
    refine ⟨b, hnd.mem_erase_iff.mpr ⟨?_, hb⟩, v, hvb, hgid⟩
    intro hba
    rw [hba, hv] at hvb
    cases hvb
    exact hne' (by rw [← hgid])

omit [DecidableEq α] in
/-- A thread moves on to a stage that its record is fit for. -/
theorem BookInv.rehold (h : BookInv m l) {a : α} {stage stage' : Stage}
    (hheld : m.held t = some (a, stage))
    (hok : ∀ v, m.requests.info a = some v → HeldOk m.history v stage →
      HeldOk m.history v stage') : BookInv (m.hold t (some (a, stage'))) l := by
  refine { h with held := ?_, apart := ?_ }
  · intro u b s hu
    by_cases hut : u = t
    · rw [hut] at hu
      simp only [Bookkeeping.hold, Function.update_self] at hu
      obtain ⟨rfl, rfl⟩ := Prod.mk.inj (Option.some.inj hu)
      obtain ⟨ha, v, hv, hv'⟩ := h.held t a stage hheld
      exact ⟨ha, v, hv, hok v hv hv'⟩
    · simp only [Bookkeeping.hold, Function.update_of_ne hut] at hu
      exact h.held u b s hu
  · refine h.apart.update ?_
    intro b s hb u s' hut hu
    obtain ⟨rfl, -⟩ := Prod.mk.inj (Option.some.inj hb)
    exact hut (h.apart u t a s' stage hu hheld)

omit [DecidableEq α] in
/-- The send writes down the response, for a request that had none. -/
theorem BookInv.send (h : BookInv m l) {a : α} {v : RequestInfo α Nat}
    (hheld : m.held t = some (a, .sending)) (hv : m.requests.info a = some v) :
    BookInv { m.hold t (some (a, .freeing)) with
      history := .sent v.ghost v.token :: m.history } l := by
  obtain ⟨ha, w, hw, htaken, hlocal, hcut⟩ := h.held t a .sending hheld
  obtain rfl : v = w := Option.some.inj (hv.symm.trans hw)
  have hne : ∀ b w, b ≠ a → m.requests.info b = some w → w.ghost ≠ v.ghost :=
    fun b w hba hb heq => hba (h.distinct b a w v hb hv heq)
  have hq := htaken.queued
  rw [hlocal] at hq
  have hfreeing : BookInv (m.hold t (some (a, .freeing))) l :=
    h.rehold hheld (fun _ _ _ => trivial)
  refine ⟨h.pending, ?_, ?_, hfreeing.apart,
    h.serials, h.distinct, h.history.send hq htaken.dequeued htaken.unanswered hcut, ?_⟩
  · intro b hb
    obtain ⟨w, hw, hok⟩ := h.listed b hb
    exact ⟨w, hw, hok.frame rfl (hne b w (fun hba => ha (hba ▸ hb)) hw)⟩
  · intro u b s hu
    by_cases hut : u = t
    · rw [hut] at hu
      simp only [Bookkeeping.hold, Function.update_self] at hu
      obtain ⟨rfl, rfl⟩ := Prod.mk.inj (Option.some.inj hu)
      exact ⟨ha, v, hv, trivial⟩
    · simp only [Bookkeeping.hold, Function.update_of_ne hut] at hu
      obtain ⟨hb, w, hw, hok⟩ := h.held u b s hu
      have hba : b ≠ a := fun hba => hut (h.apart u t a s .sending (hba ▸ hu) hheld)
      exact ⟨hb, w, hw, hok.frame rfl (hne b w hba hw)⟩
  · intro id hid
    obtain ⟨⟨tok, loc, hq⟩, hd⟩ := hid
    exact h.all id ⟨⟨tok, loc, by simpa using hq⟩, by simpa using hd⟩

/-- `free` of a record that only the caller holds. -/
theorem BookInv.free (h : BookInv m l) {a : α} (hheld : m.held t = some (a, .freeing)) :
    BookInv { m.hold t none with requests := m.requests.free a } l := by
  obtain ⟨ha, -⟩ := h.held t a .freeing hheld
  have hinfo : ∀ b, b ≠ a → (m.requests.free a).info b = m.requests.info b := by
    intro b hb
    simp [Requests.free, Requests.info, hb]
  have hback : ∀ b v, (m.requests.free a).info b = some v → m.requests.info b = some v := by
    intro b v hv
    by_cases hba : b = a
    · simp [hba, Requests.free, Requests.info] at hv
    · rwa [hinfo b hba] at hv
  have hne : ∀ b ∈ l, b ≠ a := fun b hb hba => ha (hba ▸ hb)
  refine ⟨h.pending.write_other ha none, ?_, ?_, h.apart.update (by simp), ?_, ?_,
    h.history, ?_⟩
  · intro b hb
    obtain ⟨v, hv, hok⟩ := h.listed b hb
    exact ⟨v, (hinfo b (hne b hb)).trans hv, hok⟩
  · intro u b s hu
    have hut : u ≠ t := by
      intro hut
      simp [Bookkeeping.hold, hut] at hu
    simp only [Bookkeeping.hold, Function.update_of_ne hut] at hu
    obtain ⟨hb, v, hv, hok⟩ := h.held u b s hu
    have hba : b ≠ a := fun hba => hut (h.apart u t a s .freeing (hba ▸ hu) hheld)
    exact ⟨hb, v, (hinfo b hba).trans hv, hok⟩
  · intro b v hv
    exact h.serials b v (hback b v hv)
  · intro b c v w hv hw
    exact h.distinct b c v w (hback b v hv) (hback c w hw)
  · intro id hid
    obtain ⟨b, hb, v, hv, hgid⟩ := h.all id hid
    exact ⟨b, hb, v, (hinfo b (hne b hb)).trans hv, hgid⟩

/-- `RIL_onRequestComplete` behind the dequeue. -/
theorem proceed_keeps (h : BookInv m l) {a : α} {stage : Stage}
    (hheld : m.held t = some (a, stage)) (hstage : stage ≠ .linking) :
    ∃ m', m.proceed t = some m' ∧ BookInv m' l := by
  obtain ⟨-, v, hv, -⟩ := h.held t a stage hheld
  obtain ⟨w, hw, rfl⟩ := heap_of_info hv
  have hsame : ∀ v, m.requests.info a = some v →
      v.isLocal = w.isLocal ∧ v.cancelled = w.cancelled := by
    intro v' hv'
    rw [hv] at hv'
    cases hv'
    exact ⟨rfl, rfl⟩
  cases stage with
  | linking => exact absurd rfl hstage
  | dequeued =>
      refine ⟨_, by simp [Bookkeeping.proceed, hheld, hw]; rfl, h.rehold hheld ?_⟩
      intro v hv hok
      cases hl : w.isLocal with
      | true => exact trivial
      | false => exact ⟨hok, by rw [(hsame v hv).1, hl]⟩
  | answering =>
      refine ⟨_, by simp [Bookkeeping.proceed, hheld, hw]; rfl, h.rehold hheld ?_⟩
      intro v hv hok
      cases hc : w.cancelled with
      | true => exact trivial
      | false =>
          refine ⟨hok.1, hok.2, ?_⟩
          intro hcut
          have hmark := hok.1.marked hcut
          rw [(hsame v hv).2, hc] at hmark
          cases hmark
  | sending =>
      exact ⟨_, by simp [Bookkeeping.proceed, hheld, hw], h.send hheld hv⟩
  | freeing =>
      exact ⟨_, by simp [Bookkeeping.proceed, hheld], h.free hheld⟩

/-- The marking pass cancels exactly the requests that it cuts off. -/
theorem closed_keeps (h : BookInv m l) {fuel : Nat} (hfuel : l.length < fuel) :
    ∃ m', bookStep fuel m (.onCommandsSocketClosed t) = some m' ∧ BookInv m' l ∧
      (∀ a, m'.requests.info a =
        if a ∈ l then (m.requests.info a).map RequestInfo.cancel else m.requests.info a) ∧
      m'.held = m.held ∧ m'.serial = m.serial := by
  obtain ⟨q, hrun, hpending, hinfo⟩ := onCommandsSocketClosed_spec h.pending hfuel
  have hback : ∀ b v, q.info b = some v →
      ∃ w, m.requests.info b = some w ∧ v.ghost = w.ghost := by
    intro b v hv
    rw [hinfo] at hv
    by_cases hb : b ∈ l
    · simp only [hb, if_true, Option.map_eq_some_iff] at hv
      obtain ⟨w, hw, rfl⟩ := hv
      exact ⟨w, hw, rfl⟩
    · simp only [hb, if_false] at hv
      exact ⟨v, hv, rfl⟩
  refine ⟨{ m with requests := q, history := .closed :: m.history }, by simp [bookStep, hrun],
    ⟨hpending, ?_, ?_, h.apart, ?_, ?_, h.history.close, ?_⟩, hinfo, rfl, rfl⟩
  · intro b hb
    obtain ⟨v, hv, hok⟩ := h.listed b hb
    refine ⟨v.cancel, by simp [hinfo, hb, hv], List.mem_cons_of_mem _ hok.queued, ?_,
      fun _ => rfl⟩
    intro hm
    rcases List.mem_cons.mp hm with heq | hm
    · cases heq
    · exact hok.waiting hm
  · intro u b s hu
    obtain ⟨hb, v, hv, hok⟩ := h.held u b s hu
    exact ⟨hb, v, by simp [hinfo, hb, hv], hok.closed⟩
  · intro b v hv
    obtain ⟨w, hw, hvw⟩ := hback b v hv
    rw [hvw]
    exact h.serials b w hw
  · intro b c v w hv hw hvw
    obtain ⟨v', hv', hvv⟩ := hback b v hv
    obtain ⟨w', hw', hww⟩ := hback c w hw
    exact h.distinct b c v' w' hv' hw' (by rw [← hvv, ← hww, hvw])
  · intro id hid
    obtain ⟨⟨tok, loc, hq⟩, hd⟩ := hid
    obtain ⟨b, hb, v, hv, hgid⟩ := h.all id ⟨⟨tok, loc, by simpa using hq⟩, by simpa using hd⟩
    exact ⟨b, hb, v.cancel, by simp [hinfo, hb, hv], hgid⟩

/-- One step of any thread. -/
theorem bookStep_keeps (h : BookInv m l) {fuel : Nat} (hfuel : l.length < fuel)
    {move : Move α τ} (hlegal : move.Legal m) :
    ∃ m' l', bookStep fuel m move = some m' ∧ BookInv m' l' ∧ l'.length ≤ l.length + 1 := by
  cases move with
  | processCommandBuffer t a request token =>
      exact ⟨_, l, rfl, calloc_keeps h hlegal.2 request token false, by omega⟩
  | issueLocalRequest t a request =>
      exact ⟨_, l, rfl, calloc_keeps h hlegal.2 request localToken true, by omega⟩
  | link t =>
      obtain ⟨a, ha⟩ := hlegal
      obtain ⟨m', hrun, h', -⟩ := link_keeps h ha fuel
      exact ⟨m', a :: l, hrun, h', by simp⟩
  | onRequestComplete t token =>
      by_cases hon : ∃ a ∈ l, token = some a
      · obtain ⟨a, ha, rfl⟩ := hon
        obtain ⟨m', hrun, h', -⟩ := complete_keeps (t := t) h hfuel ha
        have hlen := List.length_erase_le (a := a) (l := l)
        exact ⟨m', l.erase a, hrun, h', by omega⟩
      · have hnot : ∀ a ∈ l, token ≠ some a := fun a ha heq => hon ⟨a, ha, heq⟩
        exact ⟨m, l, complete_unknown h hfuel hnot, h, by omega⟩
  | proceed t =>
      obtain ⟨a, stage, hheld, hstage⟩ := hlegal
      obtain ⟨m', hrun, h'⟩ := proceed_keeps h hheld hstage
      exact ⟨m', l, hrun, h', by omega⟩
  | onCommandsSocketClosed t =>
      obtain ⟨m', hrun, h', -⟩ := closed_keeps (t := t) h hfuel
      exact ⟨m', l, hrun, h', by omega⟩

theorem bookRun_keeps {fuel : Nat} {moves : List (Move α τ)} (h : BookInv m l)
    (hfuel : l.length + moves.length < fuel)
    (hlegal : Along (bookStep fuel) Move.Legal m moves) :
    ∃ m' l', exec (bookStep fuel) m moves = some m' ∧ BookInv m' l' ∧ l'.length < fuel := by
  induction moves generalizing m l with
  | nil => exact ⟨m, l, rfl, h, by simpa using hfuel⟩
  | cons move moves ih =>
      simp only [List.length_cons] at hfuel
      have hroom : l.length < fuel := by omega
      obtain ⟨m₁, l₁, hstep, h₁, hlen⟩ := bookStep_keeps h hroom hlegal.1
      obtain ⟨m', l', hrun, h', hlen'⟩ := ih h₁ (by omega) (hlegal.2 m₁ hstep)
      exact ⟨m', l', exec_cons_some.mpr ⟨m₁, hstep, hrun⟩, h', hlen'⟩

end Steps

/-! ## The guarantees -/

/-- What holds in a state whose list is `l`: the list has no repetition and
holds exactly the requests that were queued and not dequeued; no request has
two responses, and a response carries the token of a request that is not
local; a request that was pending when the socket was closed has none; and a
token that is not on the list does nothing. -/
structure Booked (fuel : Nat) (m : Bookkeeping α τ) (l : List α) : Prop where
  list : Chain m.requests.next m.requests.pending l
  nodup : l.Nodup
  exactly : ∀ id, PendingIn m.history id ↔
    ∃ a ∈ l, (m.requests.heap a).map (·.ghost) = some id
  distinct : ∀ a ∈ l, ∀ b ∈ l,
    (m.requests.heap a).map (·.ghost) = (m.requests.heap b).map (·.ghost) → a = b
  once : ∀ id, sentCount m.history id ≤ 1
  token : ∀ id token, .sent id token ∈ m.history → ∃ isLocal,
    Entry.queued id token isLocal ∈ m.history
  notLocal : ∀ id token, .queued id token true ∈ m.history → sentCount m.history id = 0
  notCutOff : ∀ id, CutOff m.history id → sentCount m.history id = 0
  unknown : ∀ t token, m.held t = none → (∀ a ∈ l, token ≠ some a) →
    bookStep fuel m (.onRequestComplete t token) = some m

theorem BookInv.booked {m : Bookkeeping α τ} {l : List α} {fuel : Nat} (h : BookInv m l)
    (hfuel : l.length < fuel) : Booked fuel m l where
  list := h.pending.chain
  nodup := chain_nodup h.pending.chain
  exactly := by
    intro id
    constructor
    · intro hid
      obtain ⟨a, ha, v, hv, hgid⟩ := h.all id hid
      obtain ⟨w, hw, rfl⟩ := heap_of_info hv
      exact ⟨a, ha, by rw [hw, ← hgid]; rfl⟩
    · intro hid
      obtain ⟨a, ha, hgid⟩ := hid
      obtain ⟨v, hv, hok⟩ := h.listed a ha
      obtain ⟨w, hw, rfl⟩ := heap_of_info hv
      rw [hw] at hgid
      obtain rfl : w.ghost = id := Option.some.inj hgid
      exact ⟨⟨_, _, hok.queued⟩, hok.waiting⟩
  distinct := by
    intro a ha b hb heq
    obtain ⟨v, hv, -⟩ := h.listed a ha
    obtain ⟨w, hw, -⟩ := h.listed b hb
    obtain ⟨v', hv', rfl⟩ := heap_of_info hv
    obtain ⟨w', hw', rfl⟩ := heap_of_info hw
    rw [hv', hw'] at heq
    exact h.distinct a b _ _ hv hw (Option.some.inj heq)
  once := h.history.once
  token := fun id token hm => ⟨false, (h.history.origin id token hm).1⟩
  notLocal := by
    intro id token hq
    apply sentCount_eq_zero.mpr
    intro tok hm
    have hfalse := (h.history.origin id tok hm).1
    exact absurd (h.history.unique id _ _ _ _ hq hfalse).2 (by simp)
  notCutOff := h.history.silent
  unknown := fun _ _ _ hnot => complete_unknown h hfuel hnot

/-- **Request bookkeeping.**  Whatever the threads do, and whichever tokens the
vendor completes, no step follows a dangling pointer, and the list and the
responses stay in order. -/
theorem requests_every_run (moves : List (Move α τ)) (fuel : Nat)
    (hfuel : moves.length < fuel)
    (hlegal : Along (bookStep fuel) Move.Legal Bookkeeping.start moves) :
    ∃ m l, exec (bookStep fuel) Bookkeeping.start moves = some m ∧ Booked fuel m l := by
  obtain ⟨m, l, hrun, h, hlen⟩ := bookRun_keeps start_inv (by simpa using hfuel) hlegal
  exact ⟨m, l, hrun, h.booked hlen⟩

/-- A request is answered and freed, its token comes again, and the next request
gets the same address and is cut off. -/
def reusedAddress : List (Move Nat Bool) :=
  [.processCommandBuffer false 7 1 40, .link false, .onRequestComplete true (some 7),
    .proceed true, .proceed true, .proceed true, .proceed true,
    .onRequestComplete true (some 7), .processCommandBuffer false 7 1 41, .link false,
    .onCommandsSocketClosed false, .onRequestComplete true (some 7)]

theorem requests_reusedAddress :
    ∃ m l, exec (bookStep 13) Bookkeeping.start reusedAddress = some m ∧ Booked 13 m l := by
  refine requests_every_run reusedAddress 13 (by decide) ?_
  refine ⟨⟨rfl, rfl⟩, fun _ h₁ => ?_⟩
  cases h₁
  refine ⟨⟨7, rfl⟩, fun _ h₂ => ?_⟩
  cases h₂
  refine ⟨rfl, fun _ h₃ => ?_⟩
  cases h₃
  refine ⟨⟨7, _, rfl, by decide⟩, fun _ h₄ => ?_⟩
  cases h₄
  refine ⟨⟨7, _, rfl, by decide⟩, fun _ h₅ => ?_⟩
  cases h₅
  refine ⟨⟨7, _, rfl, by decide⟩, fun _ h₆ => ?_⟩
  cases h₆
  refine ⟨⟨7, _, rfl, by decide⟩, fun _ h₇ => ?_⟩
  cases h₇
  refine ⟨rfl, fun _ h₈ => ?_⟩
  cases h₈
  refine ⟨⟨rfl, rfl⟩, fun _ h₉ => ?_⟩
  cases h₉
  refine ⟨⟨7, rfl⟩, fun _ h₁₀ => ?_⟩
  cases h₁₀
  refine ⟨rfl, fun _ h₁₁ => ?_⟩
  cases h₁₁
  exact ⟨rfl, fun _ _ => trivial⟩

end Libril
