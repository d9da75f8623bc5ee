import Mathlib.Data.List.Basic
import Mathlib.Logic.Function.Basic
import JsrD10f.Runs
import JsrD10f.Records

/-!
# The stream of responses

Responses and notifications are sent by any thread, over one connection.  Each
`sendResponseRaw` holds `s_writeMutex` while it writes the length of its data and
then the data.  A `write` may take a part of what it is given only, or nothing,
and is tried again; any other failure closes the descriptor and ends the call.

The machine takes one system call at a time and the threads in any order.
Whatever the system answers, the bytes that the socket accepts are frames in the
order of the lock, and only the last of them may be broken off.
-/

namespace ResponseStream

open Runs Records

variable {τ : Type} [DecidableEq τ]

/-- `MAX_COMMAND_BYTES`. -/
def maxCommandBytes : Nat := 8192

/-- The header of a frame: a length in the byte order of the network. -/
def htonl : LengthCode UInt8 where
  width := 4
  bound := 4294967296
  encode n := [UInt8.ofNat (n / 16777216), UInt8.ofNat (n / 65536), UInt8.ofNat (n / 256),
    UInt8.ofNat n]
  decode bytes := bytes.foldl (fun n b => 256 * n + b.toNat) 0
  width_pos := by decide
  length_encode _ := rfl
  decode_encode n hn := by
    simp only [List.foldl_cons, List.foldl_nil, UInt8.toNat_ofNat']
    omega

/-- The two buffers that a call writes. -/
inductive Part where
  | header | payload
deriving DecidableEq, Repr

/-- How far a call is: in front of the lock, inside of `blockingWrite`, or with
its result in front of the unlock. -/
inductive Phase where
  | waiting
  | writing (part : Part) (writeOffset : Nat)
  | leaving (ret : Int)
deriving DecidableEq, Repr

/-- A call of `sendResponseRaw`; `id` counts the calls. -/
structure Call where
  id : Nat
  data : List UInt8
  phase : Phase
deriving DecidableEq, Repr

/-- What a call sends. -/
abbrev Sending := Nat × List UInt8

def Call.sending (c : Call) : Sending := (c.id, c.data)

/-- `connected` says that `s_fdCommand` is not negative, `isOpen` that its
descriptor is open and `failed` that a `write` has failed.  `entered` has the
calls in the order of the lock and `returned` the results. -/
structure Stream (τ : Type) where
  connected : Bool
  isOpen : Bool
  failed : Bool
  calls : τ → Option Call
  owner : Option τ
  accepted : List UInt8
  made : Nat
  entered : List Sending
  returned : List (Sending × Int)

/-- A new connection. -/
def Stream.start : Stream τ where
  connected := true
  isOpen := true
  failed := false
  calls _ := none
  owner := none
  accepted := []
  made := 0
  entered := []
  returned := []

/-- The answer to a `write`; `again` stands for `EINTR` and `EAGAIN`. -/
inductive WriteResult where
  | accepted (n : Nat)
  | again
  | error
deriving DecidableEq, Repr

/-- A step of a thread, or the event loop that ends the connection. -/
inductive Label (τ : Type) where
  | call (t : τ) (data : List UInt8)
  | lock (t : τ)
  | write (t : τ) (result : WriteResult)
  | unlock (t : τ)
  | hangUp
deriving DecidableEq, Repr

def buffer (data : List UInt8) : Part → List UInt8
  | .header => htonl.encode data.length
  | .payload => data

/-- The loop test of `blockingWrite`, and what follows where the loop ends. -/
def blockingWrite (data : List UInt8) : Part → Nat → Phase
  | .header, writeOffset =>
      if writeOffset < 4 then .writing .header writeOffset
      else if 0 < data.length then .writing .payload 0 else .leaving 0
  | .payload, writeOffset =>
      if writeOffset < data.length then .writing .payload writeOffset else .leaving 0

def Stream.setPhase (s : Stream τ) (t : τ) (c : Call) (phase : Phase) : Stream τ :=
  { s with calls := Function.update s.calls t (some { c with phase := phase }) }

/-- The tests in front of the lock. -/
def Stream.call (s : Stream τ) (t : τ) (data : List UInt8) : Stream τ :=
  if s.connected = false ∨ maxCommandBytes < data.length then
    { s with made := s.made + 1, returned := s.returned ++ [((s.made, data), -1)] }
  else
    { s with made := s.made + 1,
             calls := Function.update s.calls t (some ⟨s.made, data, .waiting⟩) }

def Stream.lock (s : Stream τ) (t : τ) (c : Call) : Stream τ :=
  { s.setPhase t c (blockingWrite c.data .header 0) with
    owner := some t, entered := s.entered ++ [c.sending] }

/-- One `write` and what the loop makes of its result.  On a closed descriptor it
can only fail. -/
def Stream.write (s : Stream τ) (t : τ) (c : Call) (part : Part) (writeOffset : Nat) :
    WriteResult → Option (Stream τ)
  | .accepted n =>
      if s.isOpen = true ∧ n ≤ (buffer c.data part).length - writeOffset then
        some { s.setPhase t c (blockingWrite c.data part (writeOffset + n)) with
               accepted := s.accepted ++ ((buffer c.data part).drop writeOffset).take n }
      else none
  | .again => if s.isOpen = true then some s else none
  | .error => some { s.setPhase t c (.leaving (-1)) with isOpen := false, failed := true }

def Stream.unlock (s : Stream τ) (t : τ) (c : Call) (ret : Int) : Stream τ :=
  { s with owner := none,
           calls := Function.update s.calls t none,
           returned := s.returned ++ [(c.sending, ret)] }

/-- One step; a thread that is in no call may begin one. -/
def step (s : Stream τ) : Label τ → Option (Stream τ)
  | .call t data => if s.calls t = none then some (s.call t data) else none
  | .lock t =>
      match s.calls t with
      | some c => if c.phase = .waiting ∧ s.owner = none then some (s.lock t c) else none
      | none => none
  | .write t result =>
      match s.calls t with
      | some c =>
          match c.phase with
          | .writing part writeOffset => s.write t c part writeOffset result
          | _ => none
      | none => none
  | .unlock t =>
      match s.calls t with
      | some c =>
          match c.phase with
          | .leaving ret => some (s.unlock t c ret)
          | _ => none
      | none => none
  | .hangUp => some { s with connected := false, isOpen := false }

/-- The frames of some calls, one after the other. -/
def frames (sendings : List Sending) : List UInt8 :=
  ((sendings.map Prod.snd).map (frame htonl)).flatten

/-- The calls that have returned 0. -/
def Stream.sent (s : Stream τ) : List Sending :=
  (s.returned.filter (fun r => r.2 = 0)).map Prod.fst

/-- The call that holds the lock, has written everything and will return 0. -/
def Stream.finishing (s : Stream τ) : List Sending :=
  match s.owner.bind s.calls with
  | some c => if c.phase = .leaving 0 then [c.sending] else []
  | none => []

/-- How much of its frame a call has written. -/
def Call.written (c : Call) : Nat :=
  match c.phase with
  | .waiting => 0
  | .writing .header writeOffset => writeOffset
  | .writing .payload writeOffset => 4 + writeOffset
  | .leaving _ => 4 + c.data.length

/-! ## What a step does -/

theorem step_cases {s s' : Stream τ} {l : Label τ} (h : step s l = some s') :
    (∃ t data, l = .call t data ∧ s.calls t = none ∧ s' = s.call t data) ∨
    (∃ t c, l = .lock t ∧ s.calls t = some c ∧ c.phase = .waiting ∧ s.owner = none ∧
      s' = s.lock t c) ∨
    (∃ t c part writeOffset result, l = .write t result ∧ s.calls t = some c ∧
      c.phase = .writing part writeOffset ∧ s.write t c part writeOffset result = some s') ∨
    (∃ t c ret, l = .unlock t ∧ s.calls t = some c ∧ c.phase = .leaving ret ∧
      s' = s.unlock t c ret) ∨
    (l = .hangUp ∧ s' = { s with connected := false, isOpen := false }) := by
  cases l with
  | call t data =>
      simp only [step] at h
      split at h
      · rename_i hfree
        exact .inl ⟨t, data, rfl, hfree, (Option.some.inj h).symm⟩
      · cases h
  | lock t =>
      right; left
      simp only [step] at h
      split at h
      · rename_i c hc
        split at h
        · rename_i hw
          exact ⟨t, c, rfl, hc, hw.1, hw.2, (Option.some.inj h).symm⟩
        · cases h
      · cases h
  | write t result =>
      right; right; left
      simp only [step] at h
      split at h
      · rename_i c hc
        split at h
        · rename_i part writeOffset hphase
          exact ⟨t, c, part, writeOffset, result, rfl, hc, hphase, h⟩
        · cases h
      · cases h
  | unlock t =>
      right; right; right; left
      simp only [step] at h
      split at h
      · rename_i c hc
        split at h
        · rename_i ret hphase
          exact ⟨t, c, ret, rfl, hc, hphase, (Option.some.inj h).symm⟩
        · cases h
      · cases h
  | hangUp =>
      right; right; right; right
      exact ⟨rfl, (Option.some.inj h).symm⟩

theorem write_cases {s s' : Stream τ} {t : τ} {c : Call} {part : Part} {writeOffset : Nat}
    {result : WriteResult} (h : s.write t c part writeOffset result = some s') :
    (∃ n, s.isOpen = true ∧ n ≤ (buffer c.data part).length - writeOffset ∧
      s' = { s.setPhase t c (blockingWrite c.data part (writeOffset + n)) with
             accepted := s.accepted ++ ((buffer c.data part).drop writeOffset).take n }) ∨
    (s.isOpen = true ∧ s' = s) ∨
    s' = { s.setPhase t c (.leaving (-1)) with isOpen := false, failed := true } := by
  cases result with
  | accepted n =>
      simp only [Stream.write] at h
      split at h
      · rename_i hn
        exact .inl ⟨n, hn.1, hn.2, (Option.some.inj h).symm⟩
      · cases h
  | again =>
      simp only [Stream.write] at h
      split at h
      · rename_i hopen
        exact .inr (.inl ⟨hopen, (Option.some.inj h).symm⟩)
      · cases h
  | error => exact .inr (.inr (Option.some.inj h).symm)

/-! ## The lock -/

/-- Every call but the one of the owner waits for the lock, and no call is longer
than the tests in front of the lock allow. -/
structure Guarded (s : Stream τ) : Prop where
  waiting : ∀ t c, s.calls t = some c → (c.phase = .waiting ↔ s.owner ≠ some t)
  running : ∀ t, s.owner = some t → s.calls t ≠ none
  small : ∀ t c, s.calls t = some c → c.data.length ≤ maxCommandBytes
  smallEntered : ∀ e ∈ s.entered, e.2.length ≤ maxCommandBytes

section Guarded

variable {s : Stream τ} {t : τ} {c : Call}

/-- After an update for one thread a call is the new one, or one of another thread. -/
theorem update_call_cases {calls : τ → Option Call} {u : τ} {x : Option Call} {d : Call}
    (hd : Function.update calls t x u = some d) :
    (u = t ∧ x = some d) ∨ (u ≠ t ∧ calls u = some d) := by
  by_cases hu : u = t
  · rw [hu, Function.update_self] at hd
    exact .inl ⟨hu, hd⟩
  · rw [Function.update_of_ne hu] at hd
    exact .inr ⟨hu, hd⟩

theorem Guarded.owner_eq (h : Guarded s) (hc : s.calls t = some c) (hphase : c.phase ≠ .waiting) :
    s.owner = some t := by
  by_contra howner
  exact hphase ((h.waiting t c hc).mpr howner)

theorem blockingWrite_ne_waiting (data : List UInt8) (part : Part) (writeOffset : Nat) :
    blockingWrite data part writeOffset ≠ .waiting := by
  unfold blockingWrite
  split <;> split <;> try split
  all_goals simp

/-- The owner of the lock goes on. -/
theorem Guarded.setPhase (h : Guarded s) (hc : s.calls t = some c) (howner : s.owner = some t)
    {phase : Phase} (hphase : phase ≠ .waiting) : Guarded (s.setPhase t c phase) := by
  refine ⟨?_, ?_, ?_, h.smallEntered⟩
  · intro u d hd
    rcases update_call_cases hd with ⟨rfl, hnew⟩ | ⟨-, hold⟩
    · cases hnew
      simp [hphase, Stream.setPhase, howner]
    · exact h.waiting u d hold
  · intro u hu
    by_cases hut : u = t
    · subst hut
      simp [Stream.setPhase]
    · simp only [Stream.setPhase, Function.update_of_ne hut]
      exact h.running u hu
  · intro u d hd
    rcases update_call_cases hd with ⟨rfl, hnew⟩ | ⟨-, hold⟩
    · cases hnew
      exact h.small u c hc
    · exact h.small u d hold

theorem Guarded.call (h : Guarded s) (hfree : s.calls t = none) (data : List UInt8) :
    Guarded (s.call t data) := by
  unfold Stream.call
  split
  · exact ⟨h.waiting, h.running, h.small, h.smallEntered⟩
  · rename_i hsmall
    have howner : s.owner ≠ some t := fun ho => h.running t ho hfree
    refine ⟨?_, ?_, ?_, h.smallEntered⟩
    · intro u d hd
      rcases update_call_cases hd with ⟨rfl, hnew⟩ | ⟨-, hold⟩
      · cases hnew
        simp [howner]
      · exact h.waiting u d hold
    · intro u hu
      have hut : u ≠ t := by
        rintro rfl
        exact howner hu
      simp only [Function.update_of_ne hut]
      exact h.running u hu
    · intro u d hd
      rcases update_call_cases hd with ⟨rfl, hnew⟩ | ⟨-, hold⟩
      · cases hnew
        exact Nat.le_of_not_lt (not_or.mp hsmall).2
      · exact h.small u d hold

theorem Guarded.lock (h : Guarded s) (hc : s.calls t = some c) (howner : s.owner = none) :
    Guarded (s.lock t c) := by
  refine ⟨?_, ?_, ?_, ?_⟩
  · intro u d hd
    rcases update_call_cases hd with ⟨rfl, hnew⟩ | ⟨hu, hold⟩
    · cases hnew
      simp [Stream.lock, blockingWrite_ne_waiting]
    · have hwaiting := (h.waiting u d hold).mpr (by simp [howner])
      simp [Stream.lock, hwaiting, Ne.symm hu]
  · intro u hu
    obtain rfl : t = u := Option.some.inj hu
    simp [Stream.lock, Stream.setPhase]
  · intro u d hd
    rcases update_call_cases hd with ⟨rfl, hnew⟩ | ⟨-, hold⟩
    · cases hnew
      exact h.small u c hc
    · exact h.small u d hold
  · intro e he
    rcases List.mem_append.mp he with he | he
    · exact h.smallEntered e he
    · rw [List.mem_singleton.mp he]
      exact h.small t c hc

theorem Guarded.unlock (h : Guarded s) (howner : s.owner = some t) (ret : Int) :
    Guarded (s.unlock t c ret) := by
  refine ⟨?_, ?_, ?_, h.smallEntered⟩
  · intro u d hd
    rcases update_call_cases hd with ⟨-, hnew⟩ | ⟨hu, hold⟩
    · cases hnew
    · have hwaiting := (h.waiting u d hold).mpr (by simp [howner, Ne.symm hu])
      simp [Stream.unlock, hwaiting]
  · intro u hu
    simp [Stream.unlock] at hu
  · intro u d hd
    rcases update_call_cases hd with ⟨-, hnew⟩ | ⟨-, hold⟩
    · cases hnew
    · exact h.small u d hold

end Guarded

theorem step_guarded {s s' : Stream τ} {l : Label τ} (h : Guarded s) (hstep : step s l = some s') :
    Guarded s' := by
  rcases step_cases hstep with ⟨t, data, -, hfree, rfl⟩ | ⟨t, c, -, hc, -, howner, rfl⟩ |
    ⟨t, c, part, o, result, -, hc, hphase, hwrite⟩ | ⟨t, c, ret, -, hc, hphase, rfl⟩ | ⟨-, rfl⟩
  · exact h.call hfree data
  · exact h.lock hc howner
  · have howner := h.owner_eq hc (by simp [hphase])
    rcases write_cases hwrite with ⟨n, -, -, rfl⟩ | ⟨-, rfl⟩ | rfl
    · have hnext := h.setPhase hc howner (blockingWrite_ne_waiting c.data part (o + n))
      exact ⟨hnext.waiting, hnext.running, hnext.small, hnext.smallEntered⟩
    · exact h
    · have hnext := h.setPhase hc howner (show Phase.leaving (-1) ≠ .waiting by simp)
      exact ⟨hnext.waiting, hnext.running, hnext.small, hnext.smallEntered⟩
  · exact h.unlock (h.owner_eq hc (by simp [hphase])) ret
  · exact ⟨h.waiting, h.running, h.small, h.smallEntered⟩

/-! ## The frames -/

@[simp] theorem frames_nil : frames [] = [] := rfl

theorem frames_append (a b : List Sending) : frames (a ++ b) = frames a ++ frames b := by
  simp [frames]

theorem frames_singleton (e : Sending) : frames [e] = frame htonl e.2 := by
  simp [frames]

/-- `blockingWrite` is inside of its buffer, or the call will return 0. -/
def Call.InLoop (c : Call) : Prop :=
  match c.phase with
  | .waiting => False
  | .writing part writeOffset => writeOffset < (buffer c.data part).length
  | .leaving ret => ret = 0

theorem length_buffer_header (data : List UInt8) : (buffer data .header).length = 4 := rfl

/-- The loop test decides between the next write and the return. -/
theorem blockingWrite_spec (c : Call) (part : Part) (writeOffset : Nat)
    (h : writeOffset ≤ (buffer c.data part).length) :
    Call.InLoop { c with phase := blockingWrite c.data part writeOffset } ∧
      Call.written { c with phase := blockingWrite c.data part writeOffset } =
        Call.written { c with phase := .writing part writeOffset } := by
  cases part with
  | header =>
      rw [length_buffer_header] at h
      by_cases hlt : writeOffset < 4
      · simp only [blockingWrite, if_pos hlt]
        exact ⟨hlt, trivial⟩
      · have hfour : writeOffset = 4 := by omega
        subst hfour
        by_cases hdata : 0 < c.data.length
        · simp only [blockingWrite, if_neg hlt, if_pos hdata]
          exact ⟨hdata, rfl⟩
        · have hnil : c.data.length = 0 := by omega
          simp only [blockingWrite, if_neg hlt, if_neg hdata]
          exact ⟨rfl, by simp [Call.written, hnil]⟩
  | payload =>
      by_cases hlt : writeOffset < c.data.length
      · simp only [blockingWrite, if_pos hlt]
        exact ⟨hlt, trivial⟩
      · have hend : writeOffset = c.data.length := by
          simp only [buffer] at h
          omega
        simp only [blockingWrite, if_neg hlt]
        exact ⟨rfl, by simp [Call.written, hend]⟩

/-- The bytes that a `write` takes continue the frame. -/
theorem frame_chunk (data : List UInt8) (part : Part) (id writeOffset n : Nat)
    (hn : writeOffset + n ≤ (buffer data part).length) :
    (frame htonl data).take (Call.written ⟨id, data, .writing part (writeOffset + n)⟩) =
      (frame htonl data).take (Call.written ⟨id, data, .writing part writeOffset⟩) ++
        ((buffer data part).drop writeOffset).take n := by
  cases part with
  | header =>
      simp only [Call.written, List.take_add]
      congr 1
      have hfour : (htonl.encode data.length).length = 4 := rfl
      rw [length_buffer_header] at hn
      have hlength : n ≤ ((htonl.encode data.length).drop writeOffset).length := by
        rw [List.length_drop]
        omega
      rw [frame, List.drop_append_of_le_length (by omega), List.take_append_of_le_length hlength,
        buffer]
  | payload =>
      have hdrop : (frame htonl data).drop (4 + writeOffset) = data.drop writeOffset := by
        rw [← List.drop_drop]
        rfl
      simp only [Call.written, ← Nat.add_assoc]
      rw [List.take_add, hdrop]
      rfl

/-- Something is missing as long as the loop goes on. -/
theorem written_lt {c : Call} (h : c.InLoop) {part : Part} {writeOffset : Nat}
    (hphase : c.phase = .writing part writeOffset) :
    c.written < (frame htonl c.data).length := by
  rw [length_frame]
  obtain ⟨id, data, phase⟩ := c
  obtain rfl : phase = .writing part writeOffset := hphase
  cases part with
  | header =>
      have ho : writeOffset < 4 := h
      simp only [Call.written, htonl]
      omega
  | payload =>
      have ho : writeOffset < data.length := h
      simp only [Call.written, htonl]
      omega

theorem take_written_leaving {c : Call} {ret : Int} (hphase : c.phase = .leaving ret) :
    (frame htonl c.data).take c.written = frame htonl c.data := by
  apply List.take_of_length_le
  rw [length_frame]
  simp [Call.written, hphase, htonl]

/-- What has been written: whole frames and, while the lock is held, the first
part of the next one.  After a failure a frame stays broken off, and no call
returns 0 any more. -/
inductive Progress (s : Stream τ) : Prop where
  | free (hfailed : s.failed = false) (howner : s.owner = none) (hentered : s.entered = s.sent)
      (haccepted : s.accepted = frames s.sent)
  | held (t : τ) (c : Call) (hfailed : s.failed = false) (howner : s.owner = some t)
      (hc : s.calls t = some c) (hloop : c.InLoop) (hentered : s.entered = s.sent ++ [c.sending])
      (haccepted : s.accepted = frames s.sent ++ (frame htonl c.data).take c.written)
  | broken (e : Sending) (later : List Sending) (k : Nat) (hfailed : s.failed = true)
      (hclosed : s.isOpen = false) (hentered : s.entered = s.sent ++ e :: later)
      (hk : k < (frame htonl e.2).length)
      (haccepted : s.accepted = frames s.sent ++ (frame htonl e.2).take k)
      (hleaving : ∀ t c ret, s.calls t = some c → c.phase = .leaving ret → ret = -1)

theorem sent_unlock (s : Stream τ) (t : τ) (c : Call) (ret : Int) :
    (s.unlock t c ret).sent = s.sent ++ if ret = 0 then [c.sending] else [] := by
  unfold Stream.sent Stream.unlock
  by_cases hret : ret = 0
  · simp [List.filter_append, hret]
  · simp [List.filter_append, hret]

theorem Progress.call {s : Stream τ} {t : τ} (h : Progress s) (hfree : s.calls t = none)
    (data : List UInt8) : Progress (s.call t data) := by
  have hsent : (s.call t data).sent = s.sent := by
    unfold Stream.call Stream.sent
    split <;> simp [List.filter_append]
  have hfields : (s.call t data).failed = s.failed ∧ (s.call t data).owner = s.owner ∧
      (s.call t data).entered = s.entered ∧ (s.call t data).accepted = s.accepted ∧
      (s.call t data).isOpen = s.isOpen := by
    unfold Stream.call
    split <;> simp
  have hcalls : ∀ u c, (s.call t data).calls u = some c →
      s.calls u = some c ∨ c.phase = .waiting := by
    intro u c hc
    unfold Stream.call at hc
    split at hc
    · exact .inl hc
    · rcases update_call_cases hc with ⟨-, hnew⟩ | ⟨-, hold⟩
      · cases hnew
        exact .inr rfl
      · exact .inl hold
  obtain ⟨hf, ho, he, ha, hi⟩ := hfields
  cases h with
  | free hfailed howner hentered haccepted =>
      exact .free (hf.trans hfailed) (ho.trans howner) (by rw [he, hsent, hentered])
        (by rw [ha, hsent, haccepted])
  | held u c hfailed howner hc hloop hentered haccepted =>
      have hut : u ≠ t := by
        rintro rfl
        rw [hfree] at hc
        cases hc
      have hcu : (s.call t data).calls u = some c := by
        unfold Stream.call
        split
        · exact hc
        · simp only [Function.update_of_ne hut, hc]
      exact .held u c (hf.trans hfailed) (ho.trans howner) hcu hloop
        (by rw [he, hsent, hentered]) (by rw [ha, hsent, haccepted])
  | broken e later k hfailed hclosed hentered hk haccepted hleaving =>
      refine .broken e later k (hf.trans hfailed) (hi.trans hclosed) (by rw [he, hsent, hentered]) hk
        (by rw [ha, hsent, haccepted]) ?_
      intro u c ret hc hphase
      rcases hcalls u c hc with hc | hwaiting
      · exact hleaving u c ret hc hphase
      · rw [hwaiting] at hphase
        cases hphase

theorem Progress.lock {s : Stream τ} {t : τ} {c : Call} (h : Progress s)
    (howner : s.owner = none) : Progress (s.lock t c) := by
  have hnext : (s.lock t c).calls t = some { c with phase := .writing .header 0 } := by
    simp [Stream.lock, Stream.setPhase, blockingWrite]
  cases h with
  | free hfailed _ hentered haccepted =>
      apply Progress.held (s := s.lock t c) t _ hfailed rfl hnext (show 0 < 4 by decide)
      · show s.entered ++ [c.sending] = s.sent ++ [c.sending]
        rw [hentered]
      · show s.accepted = frames s.sent ++ []
        rw [haccepted, List.append_nil]
  | held u d _ howner' => simp [howner] at howner'
  | broken e later k hfailed hclosed hentered hk haccepted hleaving =>
      apply Progress.broken (s := s.lock t c) e (later ++ [c.sending]) k hfailed hclosed _ hk
        haccepted
      · intro u d ret hd hphase
        rcases update_call_cases hd with ⟨-, hnew⟩ | ⟨-, hold⟩
        · cases hnew
          cases hphase
        · exact hleaving u d ret hold hphase
      · show s.entered ++ [c.sending] = s.sent ++ e :: (later ++ [c.sending])
        rw [hentered, List.append_assoc, List.cons_append]

omit [DecidableEq τ] in
/-- Only one call can be that of the owner. -/
theorem owner_call_eq {s : Stream τ} {t u : τ} {c d : Call} (howner : s.owner = some t)
    (hc : s.calls t = some c) (howner' : s.owner = some u) (hd : s.calls u = some d) :
    u = t ∧ d = c := by
  obtain rfl : t = u := Option.some.inj (howner.symm.trans howner')
  exact ⟨rfl, Option.some.inj (hd.symm.trans hc)⟩

/-- Some bytes are written. -/
theorem Progress.accept {s : Stream τ} {t : τ} {id : Nat} {data : List UInt8} {part : Part}
    {writeOffset n : Nat} (h : Progress s)
    (hc : s.calls t = some ⟨id, data, .writing part writeOffset⟩) (howner : s.owner = some t)
    (hopen : s.isOpen = true) (hn : n ≤ (buffer data part).length - writeOffset) :
    Progress { s.setPhase t ⟨id, data, .writing part writeOffset⟩
        (blockingWrite data part (writeOffset + n)) with
      accepted := s.accepted ++ ((buffer data part).drop writeOffset).take n } := by
  cases h with
  | free _ howner' => simp [howner] at howner'
  | held u d hfailed howner' hd hloop hentered haccepted =>
      obtain ⟨rfl, rfl⟩ := owner_call_eq howner hc howner' hd
      have hle : writeOffset + n ≤ (buffer data part).length := by
        have hlt : writeOffset < (buffer data part).length := hloop
        omega
      obtain ⟨hloop', hwritten⟩ :=
        blockingWrite_spec ⟨id, data, .waiting⟩ part (writeOffset + n) hle
      refine .held u ⟨id, data, blockingWrite data part (writeOffset + n)⟩ hfailed howner
        (by simp [Stream.setPhase]) hloop' hentered ?_
      have hwritten' : Call.written ⟨id, data, blockingWrite data part (writeOffset + n)⟩ =
          Call.written ⟨id, data, .writing part (writeOffset + n)⟩ := hwritten
      show s.accepted ++ ((buffer data part).drop writeOffset).take n = _
      rw [hwritten', frame_chunk data part id writeOffset n hle, haccepted, List.append_assoc]
      rfl
  | broken e later k hfailed hclosed =>
      rw [hclosed] at hopen
      cases hopen

/-- A failed write leaves a frame broken off for good. -/
theorem Progress.fail {s : Stream τ} {t : τ} {id : Nat} {data : List UInt8} {part : Part}
    {writeOffset : Nat} (h : Progress s) (hguarded : Guarded s)
    (hc : s.calls t = some ⟨id, data, .writing part writeOffset⟩) (howner : s.owner = some t) :
    Progress { s.setPhase t ⟨id, data, .writing part writeOffset⟩ (.leaving (-1)) with
      isOpen := false, failed := true } := by
  cases h with
  | free _ howner' => simp [howner] at howner'
  | held u d hfailed howner' hd hloop hentered haccepted =>
      obtain ⟨rfl, rfl⟩ := owner_call_eq howner hc howner' hd
      refine .broken (id, data) [] _ rfl rfl hentered (written_lt hloop rfl) haccepted ?_
      intro v d ret hd hp
      rcases update_call_cases hd with ⟨-, hnew⟩ | ⟨hv, hold⟩
      · cases hnew
        exact (Phase.leaving.inj hp).symm
      · have hwaiting := (hguarded.waiting v d hold).mpr (by simp [howner, Ne.symm hv])
        rw [hwaiting] at hp
        cases hp
  | broken e later k hfailed hclosed hentered hk haccepted hleaving =>
      refine .broken e later k rfl rfl hentered hk haccepted ?_
      intro u d ret hd hp
      rcases update_call_cases hd with ⟨-, hnew⟩ | ⟨-, hold⟩
      · cases hnew
        exact (Phase.leaving.inj hp).symm
      · exact hleaving u d ret hold hp

theorem Progress.write {s s' : Stream τ} {t : τ} {c : Call} {part : Part} {writeOffset : Nat}
    {result : WriteResult} (h : Progress s) (hguarded : Guarded s) (hc : s.calls t = some c)
    (howner : s.owner = some t) (hphase : c.phase = .writing part writeOffset)
    (hwrite : s.write t c part writeOffset result = some s') : Progress s' := by
  obtain ⟨id, data, phase⟩ := c
  obtain rfl : phase = .writing part writeOffset := hphase
  rcases write_cases hwrite with ⟨n, hopen, hn, rfl⟩ | ⟨-, rfl⟩ | rfl
  · exact h.accept hc howner hopen hn
  · exact h
  · exact h.fail hguarded hc howner

theorem Progress.unlock {s : Stream τ} {t : τ} {c : Call} {ret : Int} (h : Progress s)
    (hc : s.calls t = some c) (howner : s.owner = some t) (hphase : c.phase = .leaving ret) :
    Progress (s.unlock t c ret) := by
  cases h with
  | free _ howner' => simp [howner] at howner'
  | held u d hfailed howner' hd hloop hentered haccepted =>
      obtain ⟨rfl, rfl⟩ := owner_call_eq howner hc howner' hd
      have hret : ret = 0 := by
        simpa [Call.InLoop, hphase] using hloop
      have hsent : (s.unlock u d ret).sent = s.sent ++ [d.sending] := by
        simp [sent_unlock, hret]
      refine .free hfailed rfl (hentered.trans hsent.symm) ?_
      rw [hsent, frames_append, frames_singleton]
      rw [take_written_leaving hphase] at haccepted
      exact haccepted
  | broken e later k hfailed hclosed hentered hk haccepted hleaving =>
      have hret := hleaving t c ret hc hphase
      have hsent : (s.unlock t c ret).sent = s.sent := by
        simp [sent_unlock, hret]
      refine .broken e later k hfailed hclosed (by rw [hsent]; exact hentered) hk
        (by rw [hsent]; exact haccepted) ?_
      intro u d r hd hp
      rcases update_call_cases hd with ⟨-, hnew⟩ | ⟨-, hold⟩
      · cases hnew
      · exact hleaving u d r hold hp

omit [DecidableEq τ] in
theorem Progress.hangUp {s : Stream τ} (h : Progress s) :
    Progress { s with connected := false, isOpen := false } := by
  cases h with
  | free hfailed howner hentered haccepted => exact .free hfailed howner hentered haccepted
  | held t c hfailed howner hc hloop hentered haccepted =>
      exact .held t c hfailed howner hc hloop hentered haccepted
  | broken e later k hfailed _ hentered hk haccepted hleaving =>
      exact .broken e later k hfailed rfl hentered hk haccepted hleaving

theorem step_progress {s s' : Stream τ} {l : Label τ} (hguarded : Guarded s) (h : Progress s)
    (hstep : step s l = some s') : Progress s' := by
  rcases step_cases hstep with ⟨t, data, -, hfree, rfl⟩ | ⟨t, c, -, hc, -, howner, rfl⟩ |
    ⟨t, c, part, o, result, -, hc, hphase, hwrite⟩ | ⟨t, c, ret, -, hc, hphase, rfl⟩ | ⟨-, rfl⟩
  · exact h.call hfree data
  · exact h.lock howner
  · exact h.write hguarded hc (hguarded.owner_eq hc (by simp [hphase])) hphase hwrite
  · exact h.unlock hc (hguarded.owner_eq hc (by simp [hphase])) hphase
  · exact h.hangUp

/-! ## Whole runs -/

/-- What holds in every state of every run. -/
structure Sound (s : Stream τ) : Prop where
  guarded : Guarded s
  progress : Progress s

omit [DecidableEq τ] in
theorem sound_start : Sound (Stream.start : Stream τ) where
  guarded := ⟨by simp [Stream.start], by simp [Stream.start], by simp [Stream.start],
    by simp [Stream.start]⟩
  progress := .free rfl rfl rfl rfl

theorem step_sound {s s' : Stream τ} {l : Label τ} (h : Sound s) (hstep : step s l = some s') :
    Sound s' :=
  ⟨step_guarded h.guarded hstep, step_progress h.guarded h.progress hstep⟩

theorem run_sound {s u : Stream τ} {labels : List (Label τ)} (h : Sound s)
    (hrun : exec step s labels = some u) : Sound u :=
  exec_invariant (fun _ _ _ hs _ hstep => step_sound hs hstep) h (along_true step s labels) hrun

omit [DecidableEq τ] in
/-- The bytes are the frames in the order of the lock, up to some point. -/
theorem Sound.accepted_frames {s : Stream τ} (h : Sound s) :
    s.accepted <+: frames s.entered := by
  cases h.progress with
  | free _ _ hentered haccepted =>
      have hwhole : s.accepted = frames s.entered := by
        rw [haccepted, hentered]
      exact hwhole ▸ List.prefix_refl _
  | held t c _ _ _ _ hentered haccepted =>
      rw [haccepted, hentered, frames_append, frames_singleton]
      exact (List.prefix_append_right_inj _).mpr (List.take_prefix _ _)
  | broken e later k _ _ hentered _ haccepted =>
      have hentered' : s.entered = s.sent ++ ([e] ++ later) := hentered
      rw [haccepted, hentered', frames_append, frames_append, frames_singleton]
      apply (List.prefix_append_right_inj _).mpr
      exact (List.take_prefix _ _).trans (List.prefix_append _ _)

omit [DecidableEq τ] in
/-- The calls that have returned 0 are the first ones in the order of the lock,
and their frames are there. -/
theorem Sound.sent_frames {s : Stream τ} (h : Sound s) :
    s.sent <+: s.entered ∧ frames s.sent <+: s.accepted := by
  cases h.progress with
  | free _ _ hentered haccepted =>
      rw [haccepted, hentered]
      exact ⟨List.prefix_refl _, List.prefix_refl _⟩
  | held t c _ _ _ _ hentered haccepted =>
      rw [haccepted, hentered]
      exact ⟨List.prefix_append _ _, List.prefix_append _ _⟩
  | broken e later k _ _ hentered _ haccepted =>
      rw [haccepted, hentered]
      exact ⟨List.prefix_append _ _, List.prefix_append _ _⟩

omit [DecidableEq τ] in
theorem Guarded.bound {s : Stream τ} (h : Guarded s) {e : Sending} (he : e ∈ s.entered) :
    e.2.length < htonl.bound :=
  Nat.lt_of_le_of_lt (h.smallEntered e he) (by decide)

omit [DecidableEq τ] in
/-- What the reader makes of the bytes, when they are known to be some frames and
the first part of one more. -/
theorem Guarded.records_eq {s : Stream τ} (h : Guarded s) {whole : List Sending}
    (hwhole : ∀ e ∈ whole, e ∈ s.entered) {rest : List UInt8} (hrest : Incomplete htonl rest)
    (haccepted : s.accepted = frames whole ++ rest) :
    records htonl s.accepted = (whole.map Prod.snd, rest) := by
  rw [haccepted]
  apply records_frames _ hrest
  intro record hrecord
  obtain ⟨e, he, rfl⟩ := List.mem_map.mp hrecord
  exact h.bound (hwhole e he)

/-- A strict first part of the frame of `e`. -/
def Truncated (e : Sending) (rest : List UInt8) : Prop :=
  rest <+: frame htonl e.2 ∧ rest.length < (frame htonl e.2).length

theorem truncated_take {e : Sending} {k : Nat} (hk : k < (frame htonl e.2).length) :
    Truncated e ((frame htonl e.2).take k) := by
  constructor
  · exact List.take_prefix _ _
  · rw [List.length_take]
    omega

omit [DecidableEq τ] in
/-- While a frame is broken off, or not written to its end, the reader gets the calls
that were sent before. -/
theorem Guarded.records_truncated {s : Stream τ} (h : Guarded s) (hfinishing : s.finishing = [])
    {e : Sending} {later : List Sending} {k : Nat} (hentered : s.entered = s.sent ++ e :: later)
    (hk : k < (frame htonl e.2).length)
    (haccepted : s.accepted = frames s.sent ++ (frame htonl e.2).take k) :
    ∃ rest, records htonl s.accepted = ((s.sent ++ s.finishing).map Prod.snd, rest) ∧
      (rest = [] ∨ ∃ e ∈ s.entered, Truncated e rest) := by
  have hmem : e ∈ s.entered := by
    rw [hentered]
    simp
  refine ⟨_, h.records_eq ?_ (incomplete_take (h.bound hmem) hk) ?_,
    .inr ⟨e, hmem, truncated_take hk⟩⟩
  · intro d hd
    rw [hfinishing, List.append_nil] at hd
    rw [hentered]
    exact List.mem_append_left _ hd
  · rw [hfinishing, List.append_nil, haccepted]

theorem written_lt_of_not_leaving {c : Call} (hloop : c.InLoop) (hleaving : c.phase ≠ .leaving 0) :
    c.written < (frame htonl c.data).length := by
  rcases hphase : c.phase with _ | ⟨part, o⟩ | ret
  · simp [Call.InLoop, hphase] at hloop
  · exact written_lt hloop hphase
  · have hret : ret = 0 := by
      simpa [Call.InLoop, hphase] using hloop
    exact absurd (hret ▸ hphase) hleaving

omit [DecidableEq τ] in
/-- A call that returns -1 is not one that succeeds. -/
theorem finishing_eq_nil {s : Stream τ}
    (hleaving : ∀ t c ret, s.calls t = some c → c.phase = .leaving ret → ret = -1) :
    s.finishing = [] := by
  unfold Stream.finishing
  split
  · rename_i c hc
    obtain ⟨t, -, ht⟩ := Option.bind_eq_some_iff.mp hc
    split
    · rename_i hphase
      exact absurd (hleaving t c 0 ht hphase) (by decide)
    · rfl
  · rfl

omit [DecidableEq τ] in
/-- The reader gets the calls that succeed, and at most one record that was broken
off. -/
theorem Sound.records_sent {s : Stream τ} (h : Sound s) :
    ∃ rest, records htonl s.accepted = ((s.sent ++ s.finishing).map Prod.snd, rest) ∧
      (rest = [] ∨ ∃ e ∈ s.entered, Truncated e rest) := by
  cases h.progress with
  | free _ howner hentered haccepted =>
      have hfinishing : s.finishing = [] := by
        simp [Stream.finishing, howner]
      refine ⟨[], h.guarded.records_eq ?_ (incomplete_nil htonl) ?_, .inl rfl⟩
      · intro e he
        rw [hfinishing, List.append_nil] at he
        rw [hentered]
        exact he
      · rw [hfinishing, List.append_nil, List.append_nil, haccepted]
  | held t c _ howner hc hloop hentered haccepted =>
      by_cases hleaving : c.phase = .leaving 0
      · have hfinishing : s.finishing = [c.sending] := by
          simp [Stream.finishing, howner, hc, hleaving]
        refine ⟨[], h.guarded.records_eq ?_ (incomplete_nil htonl) ?_, .inl rfl⟩
        · intro e he
          rw [hfinishing] at he
          rw [hentered]
          exact he
        · rw [hfinishing, haccepted, take_written_leaving hleaving, frames_append,
            frames_singleton, List.append_nil]
          rfl
      · have hfinishing : s.finishing = [] := by
          simp [Stream.finishing, howner, hc, hleaving]
        exact h.guarded.records_truncated hfinishing hentered
          (written_lt_of_not_leaving hloop hleaving) haccepted
  | broken e later k _ _ hentered hk haccepted hleaving =>
      exact h.guarded.records_truncated (finishing_eq_nil hleaving) hentered hk haccepted

/-! ## After a failure -/

omit [DecidableEq τ] in
/-- After a failure the descriptor is closed and no call is about to return 0. -/
theorem Sound.failed_closed {s : Stream τ} (h : Sound s) (hfailed : s.failed = true) :
    s.isOpen = false ∧
      ∀ t c ret, s.calls t = some c → c.phase = .leaving ret → ret = -1 := by
  cases h.progress with
  | free hf => simp [hfailed] at hf
  | held t c hf => simp [hfailed] at hf
  | broken e later k _ hclosed _ _ _ hleaving => exact ⟨hclosed, hleaving⟩

/-- What comes after a state adds no bytes, and every result is -1. -/
def Silent (s u : Stream τ) : Prop :=
  u.failed = true ∧ u.accepted = s.accepted ∧
    ∃ later, u.returned = s.returned ++ later ∧ ∀ r ∈ later, r.2 = -1

omit [DecidableEq τ] in
theorem Silent.trans {s u v : Stream τ} (h : Silent s u) (h' : Silent u v) : Silent s v := by
  obtain ⟨-, ha, later, hl, hall⟩ := h
  obtain ⟨hf, ha', later', hl', hall'⟩ := h'
  refine ⟨hf, ha'.trans ha, later ++ later', ?_, ?_⟩
  · rw [hl', hl, List.append_assoc]
  · intro r hr
    rcases List.mem_append.mp hr with hr | hr
    · exact hall r hr
    · exact hall' r hr

theorem step_silent {s s' : Stream τ} {l : Label τ} (h : Sound s) (hfailed : s.failed = true)
    (hstep : step s l = some s') : Silent s s' := by
  obtain ⟨hclosed, hleaving⟩ := h.failed_closed hfailed
  rcases step_cases hstep with ⟨t, data, -, hfree, rfl⟩ | ⟨t, c, -, hc, -, howner, rfl⟩ |
    ⟨t, c, part, o, result, -, hc, hphase, hwrite⟩ | ⟨t, c, ret, -, hc, hphase, rfl⟩ | ⟨-, rfl⟩
  · unfold Stream.call
    split
    · exact ⟨hfailed, rfl, [((s.made, data), -1)], rfl, by simp⟩
    · exact ⟨hfailed, rfl, [], by simp, by simp⟩
  · exact ⟨hfailed, rfl, [], by simp [Stream.lock, Stream.setPhase], by simp⟩
  · rcases write_cases hwrite with ⟨n, hopen, -, rfl⟩ | ⟨hopen, rfl⟩ | rfl
    · rw [hclosed] at hopen
      cases hopen
    · rw [hclosed] at hopen
      cases hopen
    · exact ⟨rfl, rfl, [], by simp [Stream.setPhase], by simp⟩
  · refine ⟨hfailed, rfl, [(c.sending, ret)], rfl, ?_⟩
    intro r hr
    rw [List.mem_singleton.mp hr]
    exact hleaving t c ret hc hphase
  · exact ⟨hfailed, rfl, [], by simp, by simp⟩

theorem run_silent {s u : Stream τ} {labels : List (Label τ)} (h : Sound s)
    (hfailed : s.failed = true) (hrun : exec step s labels = some u) : Silent s u := by
  induction labels generalizing s with
  | nil =>
      obtain rfl : s = u := Option.some.inj hrun
      exact ⟨hfailed, rfl, [], by simp, by simp⟩
  | cons l labels ih =>
      obtain ⟨t, ht, hu⟩ := exec_cons_some.mp hrun
      have hstep := step_silent h hfailed ht
      exact hstep.trans (ih (step_sound h ht) hstep.1 hu)

theorem step_write_error {s : Stream τ} {t : τ} {c : Call} {part : Part} {writeOffset : Nat}
    (hc : s.calls t = some c) (hphase : c.phase = .writing part writeOffset) :
    step s (.write t .error) =
      some { s.setPhase t c (.leaving (-1)) with isOpen := false, failed := true } := by
  simp [step, hc, hphase, Stream.write]

theorem step_unlock {s : Stream τ} {t : τ} {c : Call} {ret : Int}
    (hc : s.calls t = some c) (hphase : c.phase = .leaving ret) :
    step s (.unlock t) = some (s.unlock t c ret) := by
  simp [step, hc, hphase]

/-- A call inside of the lock whose next write fails returns -1 and frees it. -/
theorem exec_error_unlock {s : Stream τ} {t : τ} {c : Call} {part : Part} {writeOffset : Nat}
    (hc : s.calls t = some c) (hphase : c.phase = .writing part writeOffset) :
    ∃ u, exec step s [.write t .error, .unlock t] = some u ∧ u.owner = none ∧
      (c.sending, -1) ∈ u.returned ∧ ∀ v, v ≠ t → u.calls v = s.calls v := by
  let s' : Stream τ := { s.setPhase t c (.leaving (-1)) with isOpen := false, failed := true }
  have hc' : s'.calls t = some { c with phase := .leaving (-1) } := by
    simp [s', Stream.setPhase]
  refine ⟨s'.unlock t { c with phase := .leaving (-1) } (-1), ?_, rfl, ?_, ?_⟩
  · apply exec_cons_some.mpr
    exact ⟨s', step_write_error hc hphase, exec_cons_some.mpr ⟨_, step_unlock hc' rfl, rfl⟩⟩
  · simp [Stream.unlock, Call.sending]
  · intro v hv
    simp [Stream.unlock, s', Stream.setPhase, Function.update_of_ne hv]

/-- The lock becomes free. -/
theorem Sound.lock_freed {s : Stream τ} (h : Sound s) :
    ∃ labels u, exec step s labels = some u ∧ u.owner = none ∧
      ∀ t, s.owner ≠ some t → u.calls t = s.calls t := by
  cases howner : s.owner with
  | none => exact ⟨[], s, rfl, howner, fun _ _ => rfl⟩
  | some o =>
      obtain ⟨c, hc⟩ := Option.ne_none_iff_exists'.mp (h.guarded.running o howner)
      rcases hphase : c.phase with _ | ⟨part, writeOffset⟩ | ret
      · exact absurd howner ((h.guarded.waiting o c hc).mp hphase)
      · obtain ⟨u, hu, hfree, -, hcalls⟩ := exec_error_unlock hc hphase
        refine ⟨_, u, hu, hfree, ?_⟩
        intro t ht
        apply hcalls
        rintro rfl
        exact ht rfl
      · refine ⟨[.unlock o], s.unlock o c ret, ?_, rfl, ?_⟩
        · exact exec_cons_some.mpr ⟨_, step_unlock hc hphase, rfl⟩
        · intro t ht
          have hto : t ≠ o := by
            rintro rfl
            exact ht rfl
          simp [Stream.unlock, Function.update_of_ne hto]

/-- A call whose writes fail comes to its end. -/
theorem Sound.call_returns {s : Stream τ} (h : Sound s) {t : τ}
    (hfree : s.calls t = none) (data : List UInt8) :
    ∃ labels u, exec step s (.call t data :: labels) = some u ∧
      ((s.made, data), -1) ∈ u.returned := by
  have hcall : step s (.call t data) = some (s.call t data) := by
    simp [step, hfree]
  by_cases hrefused : s.connected = false ∨ maxCommandBytes < data.length
  · refine ⟨[], s.call t data, exec_cons_some.mpr ⟨_, hcall, rfl⟩, ?_⟩
    simp [Stream.call, hrefused]
  · have hc : (s.call t data).calls t = some ⟨s.made, data, .waiting⟩ := by
      simp [Stream.call, hrefused]
    have hsound := step_sound h hcall
    obtain ⟨labels, u, hrun, howner, hcalls⟩ := hsound.lock_freed
    have hcu : u.calls t = some ⟨s.made, data, .waiting⟩ := by
      rw [hcalls t ((hsound.guarded.waiting t _ hc).mp rfl), hc]
    have hlock : step u (.lock t) = some (u.lock t ⟨s.made, data, .waiting⟩) := by
      simp [step, hcu, howner]
    have hwriting : (u.lock t ⟨s.made, data, .waiting⟩).calls t =
        some ⟨s.made, data, .writing .header 0⟩ := by
      simp [Stream.lock, Stream.setPhase, blockingWrite]
    obtain ⟨v, hv, -, hreturned, -⟩ := exec_error_unlock hwriting rfl
    refine ⟨labels ++ (.lock t :: [.write t .error, .unlock t]), v, ?_, hreturned⟩
    apply exec_cons_some.mpr
    refine ⟨_, hcall, exec_append.mpr ⟨u, hrun, ?_⟩⟩
    exact exec_cons_some.mpr ⟨_, hlock, hv⟩

/-- **The stream of responses.**  In every run of any threads, with every answer of
the system: the accepted bytes are the first part of the frames in the order of
the lock; the frame of each call that returned 0 is among them; after a failed
`write` no bytes are added and every call comes to its end with -1; and the
records that can be read are those of the calls that succeed, in their order, with
at most one more that was broken off. -/
theorem response_stream_framed {labels : List (Label τ)} {s : Stream τ}
    (hrun : exec step Stream.start labels = some s) :
    s.accepted <+: frames s.entered ∧
    (∀ e, (e, 0) ∈ s.returned → ∃ earlier later, s.entered = earlier ++ e :: later ∧
      frames (earlier ++ [e]) <+: s.accepted) ∧
    (s.failed = true →
      (∀ more u, exec step s more = some u → u.accepted = s.accepted ∧
        ∃ later, u.returned = s.returned ++ later ∧ ∀ r ∈ later, r.2 = -1) ∧
      (∀ t data, s.calls t = none → ∃ more u, exec step s (.call t data :: more) = some u ∧
        ((s.made, data), -1) ∈ u.returned)) ∧
    ∃ rest, records htonl s.accepted = ((s.sent ++ s.finishing).map Prod.snd, rest) ∧
      (rest = [] ∨ ∃ e ∈ s.entered, Truncated e rest) := by
  have h := run_sound sound_start hrun
  refine ⟨h.accepted_frames, ?_, ?_, h.records_sent⟩
  · intro e he
    have hsent : e ∈ s.sent := by
      unfold Stream.sent
      exact List.mem_map.mpr ⟨(e, 0), List.mem_filter.mpr ⟨he, by simp⟩, rfl⟩
    obtain ⟨earlier, behind, hsplit⟩ := List.append_of_mem hsent
    obtain ⟨⟨later, hentered⟩, hframes⟩ := h.sent_frames
    refine ⟨earlier, behind ++ later, ?_, ?_⟩
    · rw [← hentered, hsplit, List.append_assoc, List.cons_append]
    · have hsplit' : s.sent = (earlier ++ [e]) ++ behind := by
        rw [hsplit, List.append_assoc, List.singleton_append]
      rw [hsplit', frames_append] at hframes
      exact (List.prefix_append _ _).trans hframes
  · intro hfailed
    constructor
    · intro more u hu
      exact (run_silent h hfailed hu).2
    · intro t data hfree
      exact h.call_returns hfree data

/-- Two threads; the second is broken off inside of its data. -/
def brokenOff : List (Label Bool) :=
  [.call true [7, 8], .call false [9, 9, 9], .lock true, .write true (.accepted 3), .write true .again,
    .write true (.accepted 1), .write true (.accepted 0), .write true (.accepted 2), .unlock true,
    .lock false, .write false (.accepted 4), .write false (.accepted 1), .write false .error,
    .unlock false]

theorem response_stream_framed_brokenOff :
    ∃ s, exec step Stream.start brokenOff = some s ∧ s.failed = true ∧
      s.accepted = [0, 0, 0, 2, 7, 8, 0, 0, 0, 3, 9] ∧ s.accepted <+: frames s.entered ∧
      ∃ rest, records htonl s.accepted = ((s.sent ++ s.finishing).map Prod.snd, rest) := by
  obtain ⟨s, hrun, hfailed, haccepted⟩ : ∃ s, exec step Stream.start brokenOff = some s ∧
      s.failed = true ∧ s.accepted = [0, 0, 0, 2, 7, 8, 0, 0, 0, 3, 9] :=
    ⟨_, rfl, rfl, by decide +kernel⟩
  obtain ⟨hfront, -, -, rest, hrecords, -⟩ := response_stream_framed hrun
  exact ⟨s, hrun, hfailed, haccepted, hfront, rest, hrecords⟩

end ResponseStream
