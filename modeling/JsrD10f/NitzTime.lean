import Mathlib.Data.List.Basic
import JsrD10f.Runs
import JsrD10f.ResponseStream

/-!
# The time of the network

`RIL_UNSOL_NITZ_TIME_RECEIVED` cannot be asked for again.  When its response does
not reach the client, a copy stays in `s_lastNITZTimeData` and the next connection
sends it.

Two threads are at work: the vendor's, which handles one notification after the
other, and the event loop, which accepts a connection, sends the copy and frees
it.  The copy is freed whether or not its send worked, and nothing drops it when a
newer notification gets through first.  Here is what has to hold at each step for
the client to see every notification at most once, in order, and for the last one
not to be lost.
-/

namespace NitzTime

open Runs

/-- A notification with its place in the order of reception, from 1 on, and the
bytes of its parcel. -/
structure Notification where
  number : Nat
  parcel : List UInt8
deriving DecidableEq, Repr

/-- The tests of `sendResponseRaw` let it pass. -/
def Notification.fits (n : Notification) : Bool :=
  n.parcel.length ≤ ResponseStream.maxCommandBytes

/-- The command descriptor.  After a failed write it is closed, while
`s_fdCommand` still has its number. -/
inductive Fd where
  | none | up | broken
deriving DecidableEq, Repr

/-- Where the event loop stands in `listenCallback`: outside, in front of the test
of `s_lastNITZTimeData`, or between the send and the free. -/
inductive Connect where
  | idle | accepted | flushed
deriving DecidableEq, Repr

/-- `storing` has the notification whose send failed, until the copy is made.
`delivered` are the notifications that the client gets, over all connections. -/
structure Nitz where
  fdCommand : Fd
  connect : Connect
  storing : Option Notification
  lastNitzTimeData : Option Notification
  received : Nat
  delivered : List Notification
deriving DecidableEq, Repr

def Nitz.start : Nitz where
  fdCommand := .none
  connect := .idle
  storing := none
  lastNitzTimeData := none
  received := 0
  delivered := []

/-- `works` says what the system makes of the writes. -/
inductive Label where
  | notify (parcel : List UInt8) (works : Bool)
  | store
  | accept
  | flush (works : Bool)
  | free
  | breakDown
  | disconnect
deriving DecidableEq, Repr

/-- The send gets through. -/
def Nitz.sends (s : Nitz) (n : Notification) (works : Bool) : Bool :=
  s.fdCommand = .up && n.fits && works

/-- The descriptor behind a send. -/
def Nitz.afterSend (s : Nitz) (n : Notification) (works : Bool) : Fd :=
  if s.fdCommand = .up && n.fits && !works then .broken else s.fdCommand

/-- `sendResponseRaw` of a notification. -/
def Nitz.send (s : Nitz) (n : Notification) (works : Bool) : Nitz :=
  { s with fdCommand := s.afterSend n works,
           delivered := if s.sends n works then s.delivered ++ [n] else s.delivered }

/-- The next notification. -/
def Nitz.next (s : Nitz) (parcel : List UInt8) : Notification := ⟨s.received + 1, parcel⟩

/-- One step of the vendor's thread (`notify`, `store`), of the event loop
(`accept`, `flush`, `free`, `disconnect`) or of another sender. -/
def step (s : Nitz) : Label → Option Nitz
  | .notify parcel works =>
      if s.storing = none then
        let n := s.next parcel
        some { s.send n works with
               received := s.received + 1,
               storing := if s.sends n works then none else some n }
      else none
  | .store =>
      match s.storing with
      | some n => some { s with lastNitzTimeData := some n, storing := none }
      | none => none
  | .accept =>
      if s.fdCommand = .none ∧ s.connect = .idle then
        some { s with fdCommand := .up, connect := .accepted }
      else none
  | .flush works =>
      if s.connect = .accepted then
        match s.lastNitzTimeData with
        | some n => some { s.send n works with connect := .flushed }
        | none => some { s with connect := .idle }
      else none
  | .free =>
      if s.connect = .flushed then
        some { s with lastNitzTimeData := none, connect := .idle }
      else none
  | .breakDown => if s.fdCommand = .up then some { s with fdCommand := .broken } else none
  | .disconnect =>
      if s.connect = .idle ∧ s.fdCommand ≠ .none then some { s with fdCommand := .none } else none

/-- The last notification has reached the client. -/
def Nitz.LastDelivered (s : Nitz) : Prop :=
  ∃ n ∈ s.delivered, n.number = s.received

instance lastDeliveredDecidable (s : Nitz) : Decidable s.LastDelivered :=
  inferInstanceAs (Decidable (∃ n ∈ s.delivered, n.number = s.received))

/-- A notification gets through only when no copy of an older one waits to be
sent; no copy is made between the send of a copy and its free; and the copy of the
last notification is sent with success. -/
def Label.Careful (s : Nitz) : Label → Prop
  | .notify parcel works =>
      s.sends (s.next parcel) works = true →
        ∀ n, s.lastNitzTimeData = some n → n.fits = true → s.connect = .flushed
  | .store => s.connect ≠ .flushed
  | .flush works =>
      ∀ n, s.lastNitzTimeData = some n → n.number = s.received → s.sends n works = true
  | _ => True

instance carefulDecidable (s : Nitz) (l : Label) : Decidable (l.Careful s) := by
  cases l with
  | notify parcel works =>
      cases hlast : s.lastNitzTimeData with
      | none => exact isTrue (by simp [Label.Careful, hlast])
      | some n =>
          exact decidable_of_iff
            (s.sends (s.next parcel) works = true → n.fits = true → s.connect = .flushed)
            (by simp [Label.Careful, hlast])
  | flush works =>
      cases hlast : s.lastNitzTimeData with
      | none => exact isTrue (by simp [Label.Careful, hlast])
      | some n =>
          exact decidable_of_iff (n.number = s.received → s.sends n works = true)
            (by simp [Label.Careful, hlast])
  | store => exact inferInstanceAs (Decidable (s.connect ≠ .flushed))
  | accept => exact isTrue trivial
  | free => exact isTrue trivial
  | breakDown => exact isTrue trivial
  | disconnect => exact isTrue trivial

/-! ## What holds at each step -/

/-- What the client has is in order, the copy is newer than that, and the last
notification is delivered, on its way into the copy, or the copy. -/
structure Orderly (s : Nitz) : Prop where
  sorted : s.delivered.Pairwise (fun a b => a.number < b.number)
  bounded : ∀ n ∈ s.delivered, n.number ≤ s.received
  kept : ∀ n, s.lastNitzTimeData = some n → n.number ≤ s.received
  newer : ∀ n, s.lastNitzTimeData = some n → n.fits = true → s.connect ≠ .flushed →
    ∀ m ∈ s.delivered, m.number < n.number
  storing : ∀ n, s.storing = some n → n.number = s.received ∧ ¬s.LastDelivered ∧
    ∀ m, s.lastNitzTimeData = some m → m.number < s.received
  retained : s.storing = none → 0 < s.received → ¬s.LastDelivered →
    s.connect ≠ .flushed ∧ ∃ n, s.lastNitzTimeData = some n ∧ n.number = s.received

theorem orderly_start : Orderly Nitz.start where
  sorted := List.Pairwise.nil
  bounded := by simp [Nitz.start]
  kept := by simp [Nitz.start]
  newer := by simp [Nitz.start]
  storing := by simp [Nitz.start]
  retained := by simp [Nitz.start]

/-- A newer notification behind the others. -/
theorem sorted_append {l : List Notification} {n : Notification}
    (h : l.Pairwise (fun a b => a.number < b.number)) (hn : ∀ m ∈ l, m.number < n.number) :
    (l ++ [n]).Pairwise (fun a b => a.number < b.number) := by
  rw [List.pairwise_append]
  refine ⟨h, List.pairwise_singleton _ _, ?_⟩
  intro a ha b hb
  rw [List.mem_singleton.mp hb]
  exact hn a ha

section Steps

variable {s : Nitz}

theorem Orderly.notify (h : Orderly s) {parcel : List UInt8} {works : Bool}
    (hcareful : Label.Careful s (.notify parcel works)) :
    Orderly { s.send (s.next parcel) works with
              received := s.received + 1,
              storing := if s.sends (s.next parcel) works then none else some (s.next parcel) } := by
  have hnumber : (s.next parcel).number = s.received + 1 := rfl
  have hold : ∀ m ∈ s.delivered, m.number < (s.next parcel).number := by
    intro m hm
    have := h.bounded m hm
    omega
  cases hsends : s.sends (s.next parcel) works with
  | true =>
      simp only [Nitz.send, hsends, if_true]
      constructor
      · exact sorted_append h.sorted hold
      · intro n hn
        rcases List.mem_append.mp hn with hn | hn
        · exact Nat.le_succ_of_le (h.bounded n hn)
        · rw [List.mem_singleton.mp hn]
          exact Nat.le_refl _
      · intro n hn
        exact Nat.le_succ_of_le (h.kept n hn)
      · intro n hn hfits hconnect
        exact absurd (hcareful hsends n hn hfits) hconnect
      · intro n hn
        cases hn
      · intro _ _ hlast
        exact absurd ⟨s.next parcel, by simp, hnumber⟩ hlast
  | false =>
      simp only [Nitz.send, hsends, Bool.false_eq_true, if_false]
      constructor
      · exact h.sorted
      · intro n hn
        exact Nat.le_succ_of_le (h.bounded n hn)
      · intro n hn
        exact Nat.le_succ_of_le (h.kept n hn)
      · exact h.newer
      · intro n hn
        obtain rfl : s.next parcel = n := Option.some.inj hn
        refine ⟨hnumber, ?_, ?_⟩
        · rintro ⟨m, hm, hlast⟩
          have hle : m.number ≤ s.received := h.bounded m hm
          have heq : m.number = s.received + 1 := hlast
          omega
        · intro m hm
          exact Nat.lt_succ_of_le (h.kept m hm)
      · intro hn
        cases hn

theorem Orderly.store (h : Orderly s) (hcareful : Label.Careful s .store) {n : Notification}
    (hstoring : s.storing = some n) :
    Orderly { s with lastNitzTimeData := some n, storing := none } := by
  obtain ⟨hnumber, hlast, -⟩ := h.storing n hstoring
  constructor
  · exact h.sorted
  · exact h.bounded
  · intro m hm
    obtain rfl : n = m := Option.some.inj hm
    exact Nat.le_of_eq hnumber
  · intro m hm _ _ d hd
    obtain rfl : n = m := Option.some.inj hm
    have hle := h.bounded d hd
    have hne : d.number ≠ s.received := fun heq => hlast ⟨d, hd, heq⟩
    omega
  · intro m hm
    cases hm
  · intro _ _ _
    exact ⟨hcareful, n, rfl, hnumber⟩

/-- A step of the event loop or of the connection that leaves the copy and the
deliveries alone. -/
theorem Orderly.other (h : Orderly s) (fd : Fd) {connect : Connect}
    (hconnect : connect = s.connect ∨ (connect ≠ .flushed ∧ s.connect ≠ .flushed)) :
    Orderly { s with fdCommand := fd, connect := connect } := by
  have hflushed : connect ≠ .flushed ↔ s.connect ≠ .flushed := by
    rcases hconnect with rfl | ⟨hc, hs⟩
    · exact Iff.rfl
    · simp [hc, hs]
  constructor
  · exact h.sorted
  · exact h.bounded
  · exact h.kept
  · intro n hn hfits hc
    exact h.newer n hn hfits (hflushed.mp hc)
  · exact h.storing
  · intro hstoring hreceived hlast
    obtain ⟨hc, hn⟩ := h.retained hstoring hreceived hlast
    exact ⟨hflushed.mpr hc, hn⟩

theorem Orderly.flush (h : Orderly s) {works : Bool} (hcareful : Label.Careful s (.flush works))
    (haccepted : s.connect = .accepted) {n : Notification} (hn : s.lastNitzTimeData = some n) :
    Orderly { s.send n works with connect := .flushed } := by
  have hconnect : s.connect ≠ .flushed := by simp [haccepted]
  cases hsends : s.sends n works with
  | true =>
      have hfits : n.fits = true := by
        simp only [Nitz.sends, Bool.and_eq_true] at hsends
        exact hsends.1.2
      have hold := h.newer n hn hfits hconnect
      simp only [Nitz.send, hsends, if_true]
      constructor
      · exact sorted_append h.sorted hold
      · intro m hm
        rcases List.mem_append.mp hm with hm | hm
        · exact h.bounded m hm
        · rw [List.mem_singleton.mp hm]
          exact h.kept n hn
      · exact h.kept
      · intro _ _ _ hc
        exact absurd rfl hc
      · intro m hm
        obtain ⟨hnumber, hlast, hother⟩ := h.storing m hm
        refine ⟨hnumber, ?_, hother⟩
        rintro ⟨d, hd, hdlast⟩
        rcases List.mem_append.mp hd with hd | hd
        · exact hlast ⟨d, hd, hdlast⟩
        · rw [List.mem_singleton.mp hd] at hdlast
          exact absurd hdlast (Nat.ne_of_lt (hother n hn))
      · intro hstoring hreceived hlast
        have hbefore : ¬s.LastDelivered := by
          rintro ⟨d, hd, hdlast⟩
          exact hlast ⟨d, List.mem_append_left _ hd, hdlast⟩
        obtain ⟨-, m, hm, hmlast⟩ := h.retained hstoring hreceived hbefore
        obtain rfl : n = m := Option.some.inj (hn.symm.trans hm)
        exact absurd ⟨n, by simp, hmlast⟩ hlast
  | false =>
      have hnumber : n.number ≠ s.received := by
        intro heq
        rw [hcareful n hn heq] at hsends
        cases hsends
      simp only [Nitz.send, hsends, Bool.false_eq_true, if_false]
      constructor
      · exact h.sorted
      · exact h.bounded
      · exact h.kept
      · intro _ _ _ hc
        exact absurd rfl hc
      · exact h.storing
      · intro hstoring hreceived hlast
        obtain ⟨-, m, hm, hmlast⟩ := h.retained hstoring hreceived hlast
        obtain rfl : n = m := Option.some.inj (hn.symm.trans hm)
        exact absurd hmlast hnumber

theorem Orderly.free (h : Orderly s) (hflushed : s.connect = .flushed) :
    Orderly { s with lastNitzTimeData := none, connect := .idle } := by
  constructor
  · exact h.sorted
  · exact h.bounded
  · intro n hn
    cases hn
  · intro n hn
    cases hn
  · intro n hn
    obtain ⟨hnumber, hlast, -⟩ := h.storing n hn
    refine ⟨hnumber, hlast, ?_⟩
    intro m hm
    cases hm
  · intro hstoring hreceived hlast
    exact absurd hflushed (h.retained hstoring hreceived hlast).1

end Steps

theorem step_orderly {s s' : Nitz} {l : Label} (h : Orderly s) (hcareful : l.Careful s)
    (hstep : step s l = some s') : Orderly s' := by
  cases l with
  | notify parcel works =>
      simp only [step] at hstep
      split at hstep
      · obtain rfl := Option.some.inj hstep
        exact h.notify hcareful
      · cases hstep
  | store =>
      simp only [step] at hstep
      split at hstep
      · rename_i n hn
        obtain rfl := Option.some.inj hstep
        exact h.store hcareful hn
      · cases hstep
  | accept =>
      simp only [step] at hstep
      split at hstep
      · rename_i hidle
        obtain rfl := Option.some.inj hstep
        exact h.other .up (.inr ⟨by simp, by simp [hidle.2]⟩)
      · cases hstep
  | flush works =>
      simp only [step] at hstep
      split at hstep
      · rename_i haccepted
        split at hstep
        · rename_i n hn
          obtain rfl := Option.some.inj hstep
          exact h.flush hcareful haccepted hn
        · obtain rfl := Option.some.inj hstep
          exact h.other s.fdCommand (.inr ⟨by simp, by simp [haccepted]⟩)
      · cases hstep
  | free =>
      simp only [step] at hstep
      split at hstep
      · rename_i hflushed
        obtain rfl := Option.some.inj hstep
        exact h.free hflushed
      · cases hstep
  | breakDown =>
      simp only [step] at hstep
      split at hstep
      · obtain rfl := Option.some.inj hstep
        exact h.other .broken (.inl rfl)
      · cases hstep
  | disconnect =>
      simp only [step] at hstep
      split at hstep
      · obtain rfl := Option.some.inj hstep
        exact h.other .none (.inl rfl)
      · cases hstep

/-! ## Whole runs -/

/-- A copy that is sent with success reaches the client. -/
theorem step_flush {s : Nitz} {n : Notification} {works : Bool}
    (haccepted : s.connect = .accepted) (hn : s.lastNitzTimeData = some n)
    (hsends : s.sends n works = true) :
    ∃ u, step s (.flush works) = some u ∧ u.delivered = s.delivered ++ [n] := by
  refine ⟨{ s.send n works with connect := .flushed }, ?_, ?_⟩
  · simp [step, haccepted, hn]
  · simp [Nitz.send, hsends]

/-- A new connection sends the copy. -/
theorem exec_accept_flush {s : Nitz} {n : Notification} (hfd : s.fdCommand = .none)
    (hidle : s.connect = .idle) (hn : s.lastNitzTimeData = some n) (hfits : n.fits = true) :
    ∃ u, exec step s [.accept, .flush true] = some u ∧ u.delivered = s.delivered ++ [n] := by
  have haccept : step s .accept = some { s with fdCommand := .up, connect := .accepted } := by
    simp [step, hfd, hidle]
  obtain ⟨u, hu, hdelivered⟩ :=
    @step_flush { s with fdCommand := .up, connect := .accepted } n true rfl hn
      (by simp [Nitz.sends, hfits])
  refine ⟨u, exec_cons_some.mpr ⟨_, haccept, ?_⟩, hdelivered⟩
  exact exec_cons_some.mpr ⟨u, hu, rfl⟩

/-- **Delivery of the time.**  In a run of careful steps the client gets the
notifications in their order and each at most once; and the last one that was
received, as long as it is not delivered, is in `s_lastNITZTimeData`, from where
the next connection sends it. -/
theorem nitz_delivered_in_order {labels : List Label} {s : Nitz}
    (hcareful : Along step (fun s l => l.Careful s) Nitz.start labels)
    (hrun : exec step Nitz.start labels = some s) :
    s.delivered.Pairwise (fun a b => a.number < b.number) ∧
    (s.storing = none → 0 < s.received → ¬s.LastDelivered →
      ∃ n, s.lastNitzTimeData = some n ∧ n.number = s.received ∧
        (∀ works, s.connect = .accepted → s.sends n works = true →
          ∃ u, step s (.flush works) = some u ∧ u.delivered = s.delivered ++ [n]) ∧
        (s.fdCommand = .none → s.connect = .idle → n.fits = true →
          ∃ u, exec step s [.accept, .flush true] = some u ∧
            u.delivered = s.delivered ++ [n])) := by
  have h : Orderly s :=
    exec_invariant (fun _ _ _ hs hok hstep => step_orderly hs hok hstep) orderly_start hcareful hrun
  refine ⟨h.sorted, ?_⟩
  intro hstoring hreceived hlast
  obtain ⟨-, n, hn, hnumber⟩ := h.retained hstoring hreceived hlast
  refine ⟨n, hn, hnumber, ?_, ?_⟩
  · intro works haccepted hsends
    exact step_flush haccepted hn hsends
  · intro hfd hidle hfits
    exact exec_accept_flush hfd hidle hn hfits

/-- Two notifications before the client connects, and one after its first
connection broke down. -/
def missedTwice : List Label :=
  [.notify [1] true, .store, .notify [2] true, .store, .accept, .flush true, .free, .breakDown,
    .notify [3] true, .store, .disconnect]

theorem nitz_delivered_in_order_missedTwice :
    ∃ s, exec step Nitz.start missedTwice = some s ∧ s.delivered = [⟨2, [2]⟩] ∧
      ∃ u, exec step s [.accept, .flush true] = some u ∧
        u.delivered = [⟨2, [2]⟩, ⟨3, [3]⟩] := by
  obtain ⟨s, hrun, hs⟩ : ∃ s, exec step Nitz.start missedTwice = some s ∧
      s = ⟨.none, .idle, none, some ⟨3, [3]⟩, 3, [⟨2, [2]⟩]⟩ :=
    ⟨_, rfl, by decide⟩
  obtain ⟨n, hn, -, -, hnext⟩ :=
    (nitz_delivered_in_order (by decide +kernel : Along step _ Nitz.start missedTwice) hrun).2
      (by rw [hs]) (by rw [hs]; decide) (by rw [hs]; decide)
  obtain rfl : (⟨3, [3]⟩ : Notification) = n := by
    rw [hs] at hn
    exact Option.some.inj hn
  obtain ⟨u, hu, hdelivered⟩ := hnext (by rw [hs]) (by rw [hs]) (by decide)
  rw [hs] at hdelivered
  exact ⟨s, hrun, by rw [hs], u, hu, hdelivered⟩

/-- The copy is freed although its send failed, and the last notification is lost;
and a notification that slips in between the accept and the flush comes before the
older copy. -/
theorem nitz_lost_or_late :
    (¬∀ labels s, exec step Nitz.start labels = some s → s.storing = none → 0 < s.received →
      ¬s.LastDelivered → ∃ n, s.lastNitzTimeData = some n ∧ n.number = s.received) ∧
    ¬∀ labels s, exec step Nitz.start labels = some s →
      s.delivered.Pairwise (fun a b => a.number < b.number) := by
  constructor
  · intro hall
    obtain ⟨n, hn, -⟩ := hall [.notify [1] true, .store, .accept, .flush false, .free] _ rfl
      (by decide) (by decide) (by decide)
    cases hn
  · intro hall
    have h := hall [.notify [1] true, .store, .accept, .notify [2] true, .flush true, .free] _ rfl
    revert h
    decide

end NitzTime
