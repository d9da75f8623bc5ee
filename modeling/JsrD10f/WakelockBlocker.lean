import Mathlib.Logic.Function.Basic
import Mathlib.Data.List.Basic
import JsrD10f.Runs

/-!
# Blocked wake locks and their notifications

A patch of `PowerManagerService` lets the user block wake locks by tag.  The
unpatched service remembers in every wake lock whether its acquisition has been
reported, so that a release is reported exactly when the acquisition was.  The
patch reports both whenever the lock is not blocked at the moment.

That is not the same.  A lock may be held while the service becomes ready, and
acquiring a lock again recomputes whether it is blocked, from settings that may
have changed.  Under the conditions stated here, which exclude just these two,
the reports about every lock are balanced in every run.

The patch shows the service only where it changes it.  What happens to a held lock
that is acquired with other properties is a parameter, `Unpatched`.
-/

namespace PowerManager

open Runs

variable {α : Type} [DecidableEq α]

/-- What an acquisition passes, apart from the lock object. -/
structure Properties where
  flags : Int
  tag : List Char
  packageName : List Char
  workSource : Option (List Int)
  ownerUid : Int
  ownerPid : Int
deriving DecidableEq, Repr

structure WakeLock where
  properties : Properties
  isBlocked : Bool
deriving DecidableEq, Repr

/-- A call of `onWakeLockAcquired` or `onWakeLockReleased`. -/
structure Notification (α : Type) where
  lock : α
  acquired : Bool
  properties : Properties
deriving DecidableEq, Repr

/-- The fields of the service.  A lock object is in `mWakeLocks` at most once,
so the list is a partial function here; `notifier` lists the calls the notifier
has seen. -/
structure Service (α : Type) where
  systemReady : Bool
  wakeLockBlockingEnabled : Int
  blockedWakeLocks : List (List Char)
  seenWakeLocks : List (List Char)
  wakeLocks : α → Option WakeLock
  notifier : List (Notification α)

/-- The parts of a text between bars.  Empty parts at the end are dropped. -/
def splitBars (text : List Char) : List (List Char) :=
  ((text.splitOn '|').reverse.dropWhile List.isEmpty).reverse

/-- `setBlockedWakeLocks`. -/
def Service.setBlockedWakeLocks (s : Service α) (list : Option (List Char)) : Service α :=
  { s with blockedWakeLocks :=
      match list with
      | none => []
      | some text => if text.length ≠ 0 then splitBars text else [] }

/-- The part of `updateSettingsLocked` that the patch adds. -/
def Service.updateSettingsLocked (s : Service α) (enabled : Int) (list : Option (List Char)) :
    Service α :=
  Service.setBlockedWakeLocks { s with wakeLockBlockingEnabled := enabled } list

/-- `blockWakelock` for a tag. -/
def Service.blocks (s : Service α) (tag : List Char) : Bool :=
  s.wakeLockBlockingEnabled = 1 && tag ∈ s.blockedWakeLocks

/-- `notifyWakeLockAcquiredLocked` and `notifyWakeLockReleasedLocked`. -/
def Service.notify (s : Service α) (lock : α) (acquired : Bool) (w : WakeLock) : Service α :=
  if s.systemReady && !w.isBlocked then
    { s with notifier := s.notifier ++ [⟨lock, acquired, w.properties⟩] }
  else s

/-- The table with another entry for a lock. -/
def Service.put (s : Service α) (lock : α) (w : Option WakeLock) : Service α :=
  { s with wakeLocks := Function.update s.wakeLocks lock w }

/-- `mSeenWakeLocks.add`. -/
def Service.see (s : Service α) (tag : List Char) : Service α :=
  { s with seenWakeLocks :=
      if tag ∈ s.seenWakeLocks then s.seenWakeLocks else s.seenWakeLocks ++ [tag] }

/-- The lines of `acquireWakeLockInternal` that the patch does not show: the comparison of
a held lock with what is acquired, and what is done when they differ, behind the release
that is reported first. -/
structure Unpatched (α : Type) where
  hasSameProperties : Properties → Properties → Bool
  updateExisting : Service α → α → WakeLock → Properties → Service α

/-- The branch of `acquireWakeLockInternal` for a lock that is held. -/
def Service.acquireAgain (u : Unpatched α) (s : Service α) (lock : α) (w : WakeLock)
    (p : Properties) : Service α :=
  if !u.hasSameProperties w.properties p then
    u.updateExisting (s.notify lock false w) lock w p
  else s.put lock (some w)

/-- `acquireWakeLockInternal`.  A new lock whose owner is dead is refused. -/
def Service.acquire (u : Unpatched α) (s : Service α) (lock : α) (p : Properties)
    (alive : Bool) : Service α :=
  match s.wakeLocks lock with
  | some w => (s.see p.tag).acquireAgain u lock { w with isBlocked := s.blocks p.tag } p
  | none =>
      if alive then
        let w : WakeLock := ⟨p, s.blocks p.tag⟩
        ((s.see p.tag).notify lock true w).put lock (some w)
      else s.see p.tag

/-- The release of a lock, as in the unpatched service. -/
def Service.release (s : Service α) (lock : α) : Service α :=
  match s.wakeLocks lock with
  | some w => (s.put lock none).notify lock false w
  | none => s

inductive Label (α : Type) where
  | acquire (lock : α) (p : Properties) (alive : Bool)
  | release (lock : α)
  | settings (enabled : Int) (list : Option (List Char))
  | systemReady
deriving Repr

def serviceStep (u : Unpatched α) (s : Service α) : Label α → Option (Service α)
  | .acquire lock p alive => some (s.acquire u lock p alive)
  | .release lock => some (s.release lock)
  | .settings enabled list => some (s.updateSettingsLocked enabled list)
  | .systemReady => some { s with systemReady := true }

def Service.start : Service α where
  systemReady := false
  wakeLockBlockingEnabled := 0
  blockedWakeLocks := []
  seenWakeLocks := []
  wakeLocks := fun _ => none
  notifier := []

/-- What the notifier has seen of a lock: `true` for an acquisition. -/
def Service.seen (s : Service α) (lock : α) : List Bool :=
  (s.notifier.filter (fun n => n.lock = lock)).map Notification.acquired

/-- The reports alternate, and the next one is `next`. -/
def alternates : Bool → List Bool → Bool
  | _, [] => true
  | next, b :: l => b = next && alternates (!next) l

/-- The condition on a step: a lock that is held when the service becomes ready
is blocked, and acquiring a held lock again after that does not change whether
it is blocked. -/
def Label.Steady (s : Service α) : Label α → Prop
  | .acquire lock p _ => s.systemReady = true →
      ∀ w ∈ s.wakeLocks lock, s.blocks p.tag = w.isBlocked
  | .systemReady => s.systemReady = false → ∀ lock, ∀ w ∈ s.wakeLocks lock, w.isBlocked = true
  | _ => True

/-! ## Alternating reports -/

/-- The report that has to come next. -/
def nextAfter : Bool → List Bool → Bool
  | next, [] => next
  | next, _ :: l => nextAfter (!next) l

/-- The reports alternate, starting with an acquisition; the last one is an
acquisition exactly when `isOpen`. -/
structure Reported (l : List Bool) (isOpen : Bool) : Prop where
  alternating : alternates true l = true
  next : nextAfter true l = !isOpen

theorem alternates_concat (next : Bool) (l : List Bool) :
    alternates next (l ++ [nextAfter next l]) = alternates next l := by
  induction l generalizing next with
  | nil => simp [alternates, nextAfter]
  | cons b l ih => simp [alternates, nextAfter, ih]

theorem nextAfter_concat (next b : Bool) (l : List Bool) :
    nextAfter next (l ++ [b]) = !nextAfter next l := by
  induction l generalizing next with
  | nil => rfl
  | cons c l ih => simp [nextAfter, ih]

/-- The report that is due keeps the order. -/
theorem Reported.concat {l : List Bool} {isOpen : Bool} (h : Reported l isOpen) :
    Reported (l ++ [!isOpen]) (!isOpen) where
  alternating := by
    rw [← h.next, alternates_concat]
    exact h.alternating
  next := by
    rw [nextAfter_concat, h.next]

/-- The acquisition of the lock has been reported, and its release has not. -/
def Service.isOpen (s : Service α) (lock : α) : Bool :=
  match s.wakeLocks lock with
  | some w => s.systemReady && !w.isBlocked
  | none => false

def Balanced (s : Service α) : Prop :=
  ∀ lock, Reported (s.seen lock) (s.isOpen lock)

theorem notify_seen (s : Service α) (lock : α) (acquired : Bool) (w : WakeLock) :
    (s.notify lock acquired w).seen lock =
      if s.systemReady && !w.isBlocked then s.seen lock ++ [acquired] else s.seen lock := by
  unfold Service.notify Service.seen
  by_cases hready : (s.systemReady && !w.isBlocked) = true
  · rw [if_pos hready, if_pos hready]
    simp
  · rw [if_neg hready, if_neg hready]

/-- A report of the opposite of what the lock's state is reported as. -/
theorem Reported.notify {s : Service α} {lock : α} {acquired : Bool} {w : WakeLock}
    (h : Reported (s.seen lock) (!acquired && (s.systemReady && !w.isBlocked))) :
    Reported ((s.notify lock acquired w).seen lock)
      (acquired && (s.systemReady && !w.isBlocked)) := by
  rw [notify_seen]
  by_cases hready : (s.systemReady && !w.isBlocked) = true
  · rw [if_pos hready]
    rw [hready, Bool.and_true] at h ⊢
    have hconcat := h.concat
    rwa [Bool.not_not] at hconcat
  · rw [if_neg hready]
    rw [Bool.eq_false_iff.mpr hready, Bool.and_false] at h ⊢
    exact h

/-- Only one lock changes. -/
theorem Balanced.update {s : Service α} (h : Balanced s) (t : Service α) (lock : α)
    (hready : t.systemReady = s.systemReady)
    (hlocks : ∀ lock', lock' ≠ lock → t.wakeLocks lock' = s.wakeLocks lock')
    (hseen : ∀ lock', lock' ≠ lock → t.seen lock' = s.seen lock')
    (hlock : Reported (t.seen lock) (t.isOpen lock)) : Balanced t := by
  intro lock'
  by_cases heq : lock' = lock
  · rw [heq]
    exact hlock
  · have hopen : t.isOpen lock' = s.isOpen lock' := by
      unfold Service.isOpen
      rw [hlocks lock' heq, hready]
    rw [hseen lock' heq, hopen]
    exact h lock'

instance steadyDecidable (s : Service Bool) (l : Label Bool) : Decidable (l.Steady s) := by
  cases l <;> unfold Label.Steady <;> infer_instance

end PowerManager
