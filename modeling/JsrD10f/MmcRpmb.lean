import JsrD10f.MmcEffects

/-!
# Replay-protected memory

The `rpmb` commands exchange frames of 512 bytes with the device.  `do_rpmb_op` sends
a request and fetches the response; its comment leaves it to the caller to check
`result` and `req_resp` of what comes back.

No caller looks at `req_resp`.  A read of several blocks looks at the result of the
last frame only, and never compares address and block count with the request: the MAC
shows that the device has sent these frames at some time, not that it sent them now.

HMAC-SHA256 is a parameter.  Keys and data come from files that are read as a whole or
not at all; the output takes a number of bytes before a write fails.
-/

namespace MmcUtils

/-- `struct rpmb_frame` without its stuff bytes, the numbers in the order of the
machine. -/
structure RpmbFrame where
  keyMac : Vector UInt8 32
  data : Vector UInt8 256
  nonce : Vector UInt8 16
  writeCounter : UInt32
  addr : UInt16
  blockCount : UInt16
  result : UInt16
  reqResp : UInt16
deriving DecidableEq

/-- A frame that was initialised with its request only. -/
def RpmbFrame.request (reqResp : UInt16) : RpmbFrame where
  keyMac := Vector.replicate 32 0
  data := Vector.replicate 256 0
  nonce := Vector.replicate 16 0
  writeCounter := 0
  addr := 0
  blockCount := 0
  result := 0
  reqResp := reqResp

def mmcRpmbWriteKey : UInt16 := 1
def mmcRpmbReadCnt : UInt16 := 2
def mmcRpmbWrite : UInt16 := 3
def mmcRpmbRead : UInt16 := 4
def mmcRpmbReadResp : UInt16 := 5

/-- The code in the response to a request. -/
def responseCode (request : UInt16) : UInt16 :=
  256 * request

/-- One `ioctl` on the device. -/
inductive RpmbIoctl where
  | write (reliable : Bool) (frame : RpmbFrame)
  | read (blocks : Nat)
deriving DecidableEq

/-- What an operation gets: the result of each `ioctl`, the negative error number if it
fails, and the frames that are read. -/
structure RpmbAnswer where
  ioctl : Nat → Int
  frames : Nat → RpmbFrame

/-- The calls up to the first one that fails, with the result of the last. -/
def issue (ioctl : Nat → Int) : Nat → List RpmbIoctl → Int × List RpmbIoctl
  | _, [] => (0, [])
  | n, c :: rest =>
      if ioctl n < 0 || rest.isEmpty then (ioctl n, [c])
      else ((issue ioctl (n + 1) rest).1, c :: (issue ioctl (n + 1) rest).2)

/-- `-EINVAL`. -/
def invalidOp : Int × List RpmbIoctl := (-22, [])

/-- `do_rpmb_op`: its result, and the calls it has made. -/
def doRpmbOp (answer : RpmbAnswer) (frameIn : RpmbFrame) (outCnt : Nat) :
    Int × List RpmbIoctl :=
  if outCnt = 0 then invalidOp
  else if frameIn.reqResp = mmcRpmbWrite ∨ frameIn.reqResp = mmcRpmbWriteKey then
    if outCnt ≠ 1 then invalidOp
    else issue answer.ioctl 0
      [.write true frameIn, .write false (.request mmcRpmbReadResp), .read 1]
  else if frameIn.reqResp = mmcRpmbReadCnt then
    if outCnt ≠ 1 then invalidOp
    else issue answer.ioctl 0 [.write false frameIn, .read outCnt]
  else if frameIn.reqResp = mmcRpmbRead then
    issue answer.ioctl 0 [.write false frameIn, .read outCnt]
  else invalidOp

/-- How a command ends, what it wrote to the output, and the calls it made. -/
structure Outcome where
  ending : Ending
  output : List UInt8
  sent : List RpmbIoctl

/-- `exit(1)`. -/
def refused (sent : List RpmbIoctl) : Outcome :=
  ⟨.exit 1, [], sent⟩

/-- `exit(func(nargs, args))`; the parent sees the lowest byte. -/
def returned (ret : Int) : Ending :=
  .exit (ret % 256)

/-- The end of the two commands that write: the result of the operation and that of the
response are checked. -/
def checkResponse (before : List RpmbIoctl) (op : Int × List RpmbIoctl) (frameOut : RpmbFrame) :
    Outcome :=
  if op.1 ≠ 0 then refused (before ++ op.2)
  else if frameOut.result ≠ 0 then refused (before ++ op.2)
  else ⟨returned op.1, [], before ++ op.2⟩

def writeKeyFrame (key : Vector UInt8 32) : RpmbFrame :=
  { RpmbFrame.request mmcRpmbWriteKey with keyMac := key }

def readBlockFrame (addr : UInt16) : RpmbFrame :=
  { RpmbFrame.request mmcRpmbRead with addr := addr }

/-- The rest of the process around `do_rpmb_write_key`.  There is no key when the file
cannot be opened or is too short. -/
structure WriteKeyRun where
  opens : Bool
  key : Option (Vector UInt8 32)
  answer : RpmbAnswer

def doRpmbWriteKey (run : WriteKeyRun) : Outcome :=
  if !run.opens then refused []
  else
    match run.key with
    | none => refused []
    | some key =>
        checkResponse [] (doRpmbOp run.answer (writeKeyFrame key) 1) (run.answer.frames 0)

def counterOp (answer : RpmbAnswer) : Int × List RpmbIoctl :=
  doRpmbOp answer (.request mmcRpmbReadCnt) 1

/-- `rpmb_read_counter`: what it returns and the counter, or nothing if it ends the
process. -/
def rpmbReadCounter (answer : RpmbAnswer) : Option (Int × Option UInt32) :=
  if (counterOp answer).1 ≠ 0 then none
  else if (answer.frames 0).result ≠ 0 then some ((answer.frames 0).result.toNat, none)
  else some (0, some (answer.frames 0).writeCounter)

/-- A number, its most significant byte first. -/
def bigEndian (bytes n : Nat) : List UInt8 :=
  (List.range bytes).map fun i => UInt8.ofNat (n / 256 ^ (bytes - 1 - i))

/-- The bytes of a frame from `data` to its end. -/
def RpmbFrame.macInput (f : RpmbFrame) : List UInt8 :=
  f.data.toList ++ f.nonce.toList ++ bigEndian 4 f.writeCounter.toNat ++
    bigEndian 2 f.addr.toNat ++ bigEndian 2 f.blockCount.toNat ++ bigEndian 2 f.result.toNat ++
    bigEndian 2 f.reqResp.toNat

section Hmac

variable (hmac : List UInt8 → List UInt8 → Vector UInt8 32)

inductive KeyArgument where
  | absent
  | unreadable
  | given (key : Vector UInt8 32)
deriving DecidableEq

/-- The rest of the process around `do_rpmb_read_block`.  `room` is the number of bytes
that the output takes. -/
structure ReadBlockRun where
  opens : Bool
  allocates : Bool
  opensOutput : Bool
  key : KeyArgument
  answer : RpmbAnswer
  room : Nat

/-- The data of the first `n` frames. -/
def RpmbAnswer.readData (answer : RpmbAnswer) (n : Nat) : List UInt8 :=
  (List.range n).flatMap fun i => (answer.frames i).data.toList

/-- The MAC over the first `n` frames is the one in the last of them. -/
def macMatches (key : Vector UInt8 32) (answer : RpmbAnswer) (n : Nat) : Bool :=
  hmac key.toList ((List.range n).flatMap fun i => (answer.frames i).macInput) =
    (answer.frames (n - 1)).keyMac

/-- The check of the MAC, if there is a key. -/
def ReadBlockRun.verifies (run : ReadBlockRun) (n : Nat) : Bool :=
  match run.key with
  | .absent => true
  | .unreadable => false
  | .given key => macMatches hmac key run.answer n

/-- `do_rpmb_read_block`.  A number is missing when `strtol` finds it out of range. -/
def doRpmbReadBlock (addr blocksCnt : Option UInt16) (run : ReadBlockRun) : Outcome :=
  if !run.opens then refused []
  else
    match addr, blocksCnt with
    | some addr, some blocksCnt =>
        let n := blocksCnt.toNat
        if n = 0 then refused []
        else if !run.allocates || !run.opensOutput || run.key = .unreadable then refused []
        else
          let op := doRpmbOp run.answer (readBlockFrame addr) n
          if op.1 ≠ 0 then refused op.2
          else if (run.answer.frames (n - 1)).result ≠ 0 then refused op.2
          else if !run.verifies hmac n then refused op.2
          else if run.room < 256 * n then ⟨.exit 1, (run.answer.readData n).take run.room, op.2⟩
          -- the value returned is that of the last `write`
          else ⟨returned 256, run.answer.readData n, op.2⟩
    | _, _ => refused []

/-- The rest of the process around `do_rpmb_write_block`. -/
structure WriteBlockRun where
  opens : Bool
  counter : RpmbAnswer
  data : Option (Vector UInt8 256)
  key : Option (Vector UInt8 32)
  answer : RpmbAnswer

/-- The frame that `do_rpmb_write_block` sends. -/
def writeBlockFrame (addr : UInt16) (cnt : UInt32) (data : Vector UInt8 256)
    (key : Vector UInt8 32) : RpmbFrame :=
  let frame := { RpmbFrame.request mmcRpmbWrite with
    data := data, writeCounter := cnt, addr := addr, blockCount := 1 }
  { frame with keyMac := hmac key.toList frame.macInput }

/-- `do_rpmb_write_block`.  The counter is read before the arguments are looked at. -/
def doRpmbWriteBlock (addr : Option UInt16) (run : WriteBlockRun) : Outcome :=
  if !run.opens then refused []
  else
    match rpmbReadCounter run.counter, addr, run.data, run.key with
    | some (_, some cnt), some addr, some data, some key =>
        checkResponse (counterOp run.counter).2
          (doRpmbOp run.answer (writeBlockFrame hmac addr cnt data key) 1) (run.answer.frames 0)
    | _, _, _, _ => refused (counterOp run.counter).2

end Hmac

/-! ## What the code tests -/

/-- The two calls of a read operation succeed. -/
def RpmbAnswer.Reads (answer : RpmbAnswer) : Prop :=
  0 ≤ answer.ioctl 0 ∧ answer.ioctl 1 = 0

/-- The three calls of a write operation succeed. -/
def RpmbAnswer.Writes (answer : RpmbAnswer) : Prop :=
  0 ≤ answer.ioctl 0 ∧ 0 ≤ answer.ioctl 1 ∧ answer.ioctl 2 = 0

theorem issue_two (ioctl : Nat → Int) (a b : RpmbIoctl) :
    issue ioctl 0 [a, b] = if ioctl 0 < 0 then (ioctl 0, [a]) else (ioctl 1, [a, b]) := by
  simp [issue]

theorem issue_three (ioctl : Nat → Int) (a b c : RpmbIoctl) :
    issue ioctl 0 [a, b, c] =
      if ioctl 0 < 0 then (ioctl 0, [a])
      else if ioctl 1 < 0 then (ioctl 1, [a, b]) else (ioctl 2, [a, b, c]) := by
  by_cases h₀ : ioctl 0 < 0
  · simp [issue, h₀]
  · by_cases h₁ : ioctl 1 < 0 <;> simp [issue, h₀, h₁]

theorem doRpmbOp_read (answer : RpmbAnswer) {frame : RpmbFrame} {n : Nat} (hn : n ≠ 0)
    (hframe : frame.reqResp = mmcRpmbRead ∨ (frame.reqResp = mmcRpmbReadCnt ∧ n = 1)) :
    doRpmbOp answer frame n =
      if answer.ioctl 0 < 0 then (answer.ioctl 0, [.write false frame])
      else (answer.ioctl 1, [.write false frame, .read n]) := by
  rw [← issue_two answer.ioctl]
  rcases hframe with h | ⟨h, h1⟩
  · simp [doRpmbOp, hn, h, mmcRpmbRead, mmcRpmbWrite, mmcRpmbWriteKey, mmcRpmbReadCnt]
  · simp [doRpmbOp, h1, h, mmcRpmbWrite, mmcRpmbWriteKey, mmcRpmbReadCnt]

theorem doRpmbOp_write (answer : RpmbAnswer) {frame : RpmbFrame}
    (hframe : frame.reqResp = mmcRpmbWrite ∨ frame.reqResp = mmcRpmbWriteKey) :
    doRpmbOp answer frame 1 = issue answer.ioctl 0
      [.write true frame, .write false (.request mmcRpmbReadResp), .read 1] := by
  simp [doRpmbOp, hframe]

/-- A read operation succeeds when both of its calls do. -/
theorem doRpmbOp_read_eq_zero (answer : RpmbAnswer) {frame : RpmbFrame} {n : Nat} (hn : n ≠ 0)
    (hframe : frame.reqResp = mmcRpmbRead ∨ (frame.reqResp = mmcRpmbReadCnt ∧ n = 1)) :
    (doRpmbOp answer frame n).1 = 0 ↔ answer.Reads := by
  rw [doRpmbOp_read answer hn hframe, RpmbAnswer.Reads]
  split
  · constructor <;> intro h <;> omega
  · constructor <;> intro h <;> omega

theorem doRpmbOp_write_eq_zero (answer : RpmbAnswer) {frame : RpmbFrame}
    (hframe : frame.reqResp = mmcRpmbWrite ∨ frame.reqResp = mmcRpmbWriteKey) :
    (doRpmbOp answer frame 1).1 = 0 ↔ answer.Writes := by
  rw [doRpmbOp_write answer hframe, issue_three, RpmbAnswer.Writes]
  split
  · constructor <;> intro h <;> omega
  · split
    · constructor <;> intro h <;> omega
    · constructor <;> intro h <;> omega

theorem checkResponse_ending {before : List RpmbIoctl} {op : Int × List RpmbIoctl}
    {frameOut : RpmbFrame} :
    (checkResponse before op frameOut).ending = .exit 0 ↔ op.1 = 0 ∧ frameOut.result = 0 := by
  unfold checkResponse refused returned
  by_cases hret : op.1 = 0
  · by_cases hresult : frameOut.result = 0 <;> simp [hret, hresult]
  · simp [hret]

/-- What `do_rpmb_write_key` asks for. -/
structure WriteKeyRun.Accepted (run : WriteKeyRun) : Prop where
  opens : run.opens = true
  key : run.key.isSome = true
  answered : run.answer.Writes
  result : (run.answer.frames 0).result = 0

theorem doRpmbWriteKey_iff (run : WriteKeyRun) :
    (doRpmbWriteKey run).ending = .exit 0 ↔ run.Accepted := by
  have hop : ∀ key, (doRpmbOp run.answer (writeKeyFrame key) 1).1 = 0 ↔ run.answer.Writes :=
    fun key => doRpmbOp_write_eq_zero run.answer (Or.inr rfl)
  unfold doRpmbWriteKey
  constructor
  · intro h
    cases hopens : run.opens with
    | false => simp [hopens, refused] at h
    | true =>
        cases hkey : run.key with
        | none => simp [hopens, hkey, refused] at h
        | some key =>
            simp only [hopens, hkey, Bool.not_true, Bool.false_eq_true, if_false,
              checkResponse_ending, hop] at h
            exact ⟨hopens, by simp [hkey], h.1, h.2⟩
  · intro h
    obtain ⟨key, hkey⟩ := Option.isSome_iff_exists.mp h.key
    simp only [h.opens, hkey, Bool.not_true, Bool.false_eq_true, if_false, checkResponse_ending,
      hop]
    exact ⟨h.answered, h.result⟩

/-- What `rpmb_read_counter` asks for. -/
structure RpmbAnswer.CounterAccepted (answer : RpmbAnswer) : Prop where
  answered : answer.Reads
  result : (answer.frames 0).result = 0

theorem rpmbReadCounter_iff {answer : RpmbAnswer} {cnt : UInt32} :
    rpmbReadCounter answer = some (0, some cnt) ↔
      answer.CounterAccepted ∧ (answer.frames 0).writeCounter = cnt := by
  have hop : (counterOp answer).1 = 0 ↔ answer.Reads :=
    doRpmbOp_read_eq_zero answer (by decide) (Or.inr ⟨rfl, rfl⟩)
  unfold rpmbReadCounter
  by_cases hret : (counterOp answer).1 = 0
  · by_cases hresult : (answer.frames 0).result = 0
    · simp only [hret, hresult, ne_eq, not_true_eq_false, if_false, Option.some.injEq,
        Prod.mk.injEq, true_and]
      exact (and_iff_right ⟨hop.mp hret, hresult⟩).symm
    · simp only [hret, hresult, ne_eq, not_true_eq_false, not_false_eq_true, if_false, if_true,
        Option.some.injEq, Prod.mk.injEq, reduceCtorEq, and_false, false_iff]
      exact fun h => hresult h.1.result
  · simp only [hret, ne_eq, not_false_eq_true, if_true, reduceCtorEq, false_iff]
    exact fun h => hret (hop.mpr h.1.answered)

/-- The counter is there only when the function returns 0. -/
theorem rpmbReadCounter_counter {answer : RpmbAnswer} {ret : Int} {cnt : UInt32}
    (h : rpmbReadCounter answer = some (ret, some cnt)) : ret = 0 := by
  unfold rpmbReadCounter at h
  split at h
  · cases h
  · split at h
    · cases h
    · cases h
      rfl

/-- What `do_rpmb_write_block` asks for. -/
structure WriteBlockRun.Accepted (run : WriteBlockRun) : Prop where
  opens : run.opens = true
  counter : run.counter.CounterAccepted
  data : run.data.isSome = true
  key : run.key.isSome = true
  answered : run.answer.Writes
  result : (run.answer.frames 0).result = 0

theorem doRpmbWriteBlock_iff (hmac : List UInt8 → List UInt8 → Vector UInt8 32) (addr : UInt16)
    (run : WriteBlockRun) :
    (doRpmbWriteBlock hmac (some addr) run).ending = .exit 0 ↔ run.Accepted := by
  have hop : ∀ cnt data key,
      (doRpmbOp run.answer (writeBlockFrame hmac addr cnt data key) 1).1 = 0 ↔
        run.answer.Writes :=
    fun cnt data key => doRpmbOp_write_eq_zero run.answer (Or.inl rfl)
  unfold doRpmbWriteBlock
  constructor
  · intro h
    split at h
    · simp [refused] at h
    · rename_i hopens
      split at h
      · rename_i ret cnt addr' data key hcounter haddr hdata hkey
        cases haddr
        rw [rpmbReadCounter_counter hcounter] at hcounter
        rw [checkResponse_ending, hop] at h
        exact ⟨by simpa using hopens, (rpmbReadCounter_iff.mp hcounter).1, by simp [hdata],
          by simp [hkey], h.1, h.2⟩
      · simp [refused] at h
  · intro h
    obtain ⟨data, hdata⟩ := Option.isSome_iff_exists.mp h.data
    obtain ⟨key, hkey⟩ := Option.isSome_iff_exists.mp h.key
    have hcounter := rpmbReadCounter_iff.mpr ⟨h.counter, rfl⟩
    simp only [h.opens, hdata, hkey, hcounter, Bool.not_true, Bool.false_eq_true, if_false,
      checkResponse_ending, hop]
    exact ⟨h.answered, h.result⟩

section Read

variable (hmac : List UInt8 → List UInt8 → Vector UInt8 32)

/-- What `do_rpmb_read_block` asks for before it writes anything. -/
structure ReadBlockRun.Accepted (run : ReadBlockRun) (n : Nat) : Prop where
  opens : run.opens = true
  blocks : n ≠ 0
  allocates : run.allocates = true
  opensOutput : run.opensOutput = true
  answered : run.answer.Reads
  result : (run.answer.frames (n - 1)).result = 0
  verified : run.verifies hmac n = true

/-- What has to be in place before `do_rpmb_read_block` asks the device. -/
structure ReadBlockRun.Ready (run : ReadBlockRun) (n : Nat) : Prop where
  opens : run.opens = true
  blocks : n ≠ 0
  allocates : run.allocates = true
  opensOutput : run.opensOutput = true
  key : run.key ≠ .unreadable

/-- `do_rpmb_read_block` behind its operation. -/
def ReadBlockRun.finish (run : ReadBlockRun) (n : Nat) (op : Int × List RpmbIoctl) : Outcome :=
  if op.1 ≠ 0 then refused op.2
  else if (run.answer.frames (n - 1)).result ≠ 0 then refused op.2
  else if !run.verifies hmac n then refused op.2
  else if run.room < 256 * n then ⟨.exit 1, (run.answer.readData n).take run.room, op.2⟩
  else ⟨returned 256, run.answer.readData n, op.2⟩

theorem doRpmbReadBlock_ready (addr : UInt16) {blocksCnt : UInt16} {run : ReadBlockRun}
    (h : run.Ready blocksCnt.toNat) :
    doRpmbReadBlock hmac (some addr) (some blocksCnt) run =
      run.finish hmac blocksCnt.toNat
        (doRpmbOp run.answer (readBlockFrame addr) blocksCnt.toNat) := by
  simp only [doRpmbReadBlock, h.opens, h.blocks, h.allocates, h.opensOutput, h.key, Bool.not_true,
    Bool.false_eq_true, if_false, Bool.or_self, decide_false]
  rfl

theorem doRpmbReadBlock_unready (addr : UInt16) {blocksCnt : UInt16} {run : ReadBlockRun}
    (h : ¬run.Ready blocksCnt.toNat) :
    doRpmbReadBlock hmac (some addr) (some blocksCnt) run = refused [] := by
  unfold doRpmbReadBlock
  split
  · rfl
  · rename_i hopens
    dsimp only
    split
    · rfl
    · rename_i hblocks
      split
      · rfl
      · rename_i hready
        simp only [Bool.or_eq_true, not_or] at hready
        exact absurd ⟨by simpa using hopens, hblocks, by simpa using hready.1.1,
          by simpa using hready.1.2, by simpa using hready.2⟩ h

/-- The calls are those of the operation, however it ends. -/
theorem finish_sent (run : ReadBlockRun) (n : Nat) (op : Int × List RpmbIoctl) :
    (run.finish hmac n op).sent = op.2 := by
  unfold ReadBlockRun.finish
  split
  · rfl
  · split
    · rfl
    · split
      · rfl
      · split <;> rfl

variable {hmac} in
theorem ReadBlockRun.Accepted.ready {run : ReadBlockRun} {n : Nat} (h : run.Accepted hmac n) :
    run.Ready n := by
  refine ⟨h.opens, h.blocks, h.allocates, h.opensOutput, ?_⟩
  intro hkey
  have hverified := h.verified
  simp [ReadBlockRun.verifies, hkey] at hverified

/-- A reply that is not accepted leaves the output alone. -/
theorem doRpmbReadBlock_refused (addr : UInt16) {blocksCnt : UInt16} {run : ReadBlockRun}
    (h : ¬run.Accepted hmac blocksCnt.toNat) :
    (doRpmbReadBlock hmac (some addr) (some blocksCnt) run).ending = .exit 1 ∧
      (doRpmbReadBlock hmac (some addr) (some blocksCnt) run).output = [] := by
  by_cases hready : run.Ready blocksCnt.toNat
  · have hop : (doRpmbOp run.answer (readBlockFrame addr) blocksCnt.toNat).1 = 0 ↔
        run.answer.Reads := doRpmbOp_read_eq_zero run.answer hready.blocks (Or.inl rfl)
    rw [doRpmbReadBlock_ready hmac addr hready]
    unfold ReadBlockRun.finish
    split
    · exact ⟨rfl, rfl⟩
    · rename_i hret
      split
      · exact ⟨rfl, rfl⟩
      · rename_i hresult
        split
        · exact ⟨rfl, rfl⟩
        · rename_i hverified
          exact absurd ⟨hready.opens, hready.blocks, hready.allocates, hready.opensOutput,
            hop.mp (not_not.mp hret), not_not.mp hresult, by simpa using hverified⟩ h
  · rw [doRpmbReadBlock_unready hmac addr hready]
    exact ⟨rfl, rfl⟩

/-- An accepted reply goes to the output, block by block, as far as there is room. -/
theorem doRpmbReadBlock_accepted (addr : UInt16) {blocksCnt : UInt16} {run : ReadBlockRun}
    (h : run.Accepted hmac blocksCnt.toNat) :
    (doRpmbReadBlock hmac (some addr) (some blocksCnt) run).ending =
        (if run.room < 256 * blocksCnt.toNat then .exit 1 else .exit 0) ∧
      (doRpmbReadBlock hmac (some addr) (some blocksCnt) run).output =
        if run.room < 256 * blocksCnt.toNat then
          (run.answer.readData blocksCnt.toNat).take run.room
        else run.answer.readData blocksCnt.toNat := by
  have hop : (doRpmbOp run.answer (readBlockFrame addr) blocksCnt.toNat).1 = 0 :=
    (doRpmbOp_read_eq_zero run.answer h.blocks (Or.inl rfl)).mpr h.answered
  rw [doRpmbReadBlock_ready hmac addr h.ready]
  simp only [ReadBlockRun.finish, hop, h.result, h.verified, ne_eq, not_true_eq_false, if_false,
    Bool.not_true, Bool.false_eq_true]
  by_cases hroom : run.room < 256 * blocksCnt.toNat
  · simp [hroom]
  · simp [hroom, returned]

end Read

/-! ## What the callers should test -/

/-- The response to a request, without an error. -/
def RpmbFrame.Answers (frame : RpmbFrame) (request : UInt16) : Prop :=
  frame.result = 0 ∧ frame.reqResp = responseCode request

/-- What is asked of `do_rpmb_read_block`. -/
structure ReadsChecked (hmac : List UInt8 → List UInt8 → Vector UInt8 32)
    (addr blocksCnt : UInt16) (run : ReadBlockRun) (outcome : Outcome) : Prop where
  success : outcome.ending = .exit 0 →
    (∀ i, i < blocksCnt.toNat → (run.answer.frames i).Answers mmcRpmbRead) ∧
      outcome.output = run.answer.readData blocksCnt.toNat
  authentic : ∀ key, run.key = .given key → outcome.output ≠ [] →
    macMatches hmac key run.answer blocksCnt.toNat = true ∧
      ∀ i, i < blocksCnt.toNat →
        (run.answer.frames i).addr = addr ∧ (run.answer.frames i).blockCount = blocksCnt
  nothing : ¬run.Accepted hmac blocksCnt.toNat → outcome.output = []

/-- The fields of the frames that `do_rpmb_read_block` does not look at. -/
def ReadsUnchecked (addr blocksCnt : UInt16) (run : ReadBlockRun) : Prop :=
  (256 * blocksCnt.toNat ≤ run.room →
    ∀ i, i < blocksCnt.toNat → (run.answer.frames i).Answers mmcRpmbRead) ∧
  (0 < run.room → ∀ key, run.key = .given key → ∀ i, i < blocksCnt.toNat →
    (run.answer.frames i).addr = addr ∧ (run.answer.frames i).blockCount = blocksCnt)

theorem readData_length (answer : RpmbAnswer) (n : Nat) :
    (answer.readData n).length = 256 * n := by
  simp [RpmbAnswer.readData, List.length_flatMap, Nat.mul_comm]

theorem readsChecked_iff (hmac : List UInt8 → List UInt8 → Vector UInt8 32)
    (addr blocksCnt : UInt16) (run : ReadBlockRun) :
    ReadsChecked hmac addr blocksCnt run
        (doRpmbReadBlock hmac (some addr) (some blocksCnt) run) ↔
      (run.Accepted hmac blocksCnt.toNat → ReadsUnchecked addr blocksCnt run) := by
  by_cases haccepted : run.Accepted hmac blocksCnt.toNat
  · obtain ⟨hending, houtput⟩ := doRpmbReadBlock_accepted hmac addr haccepted
    have hlength := readData_length run.answer blocksCnt.toNat
    have hblocks := haccepted.blocks
    have hwritten : (doRpmbReadBlock hmac (some addr) (some blocksCnt) run).output ≠ [] ↔
        0 < run.room := by
      rw [houtput, ← List.length_pos_iff_ne_nil]
      split
      · rw [List.length_take]
        omega
      · omega
    constructor
    · intro h _
      refine ⟨fun hroom => ?_, fun hroom key hkey => ?_⟩
      · rw [if_neg (by omega)] at hending
        exact (h.success hending).1
      · exact (h.authentic key hkey (hwritten.mpr hroom)).2
    · intro h
      obtain ⟨hanswers, haddressed⟩ := h haccepted
      refine ⟨fun hzero => ?_, fun key hkey hsome => ?_, fun hnot => absurd haccepted hnot⟩
      · have hroom : ¬run.room < 256 * blocksCnt.toNat := by
          intro hroom
          rw [hending, if_pos hroom] at hzero
          cases hzero
        rw [houtput, if_neg hroom]
        exact ⟨hanswers (by omega), rfl⟩
      · have hmac := haccepted.verified
        rw [ReadBlockRun.verifies, hkey] at hmac
        exact ⟨hmac, haddressed (hwritten.mp hsome) key hkey⟩
  · obtain ⟨hending, houtput⟩ := doRpmbReadBlock_refused hmac addr haccepted
    refine iff_of_true ⟨?_, ?_, fun _ => houtput⟩ (fun h => absurd h haccepted)
    · intro h
      rw [hending] at h
      cases h
    · intro key _ hwritten
      exact absurd houtput hwritten

/-- **Replies are believed.**  For each of the four functions: what it reports is what
the contract of `do_rpmb_op` asks for if and only if the frames it accepts have the
right fields where it does not look. -/
theorem rpmb_replies_iff (hmac : List UInt8 → List UInt8 → Vector UInt8 32) :
    (∀ run : WriteKeyRun,
      ((doRpmbWriteKey run).ending = .exit 0 → (run.answer.frames 0).Answers mmcRpmbWriteKey) ↔
        (run.Accepted → (run.answer.frames 0).reqResp = responseCode mmcRpmbWriteKey)) ∧
    (∀ answer : RpmbAnswer,
      ((∃ cnt, rpmbReadCounter answer = some (0, some cnt)) →
          (answer.frames 0).Answers mmcRpmbReadCnt) ↔
        (answer.CounterAccepted →
          (answer.frames 0).reqResp = responseCode mmcRpmbReadCnt)) ∧
    (∀ (addr blocksCnt : UInt16) (run : ReadBlockRun),
      ReadsChecked hmac addr blocksCnt run
          (doRpmbReadBlock hmac (some addr) (some blocksCnt) run) ↔
        (run.Accepted hmac blocksCnt.toNat → ReadsUnchecked addr blocksCnt run)) ∧
    (∀ (addr : UInt16) (run : WriteBlockRun),
      ((doRpmbWriteBlock hmac (some addr) run).ending = .exit 0 →
          (run.counter.frames 0).Answers mmcRpmbReadCnt ∧
            (run.answer.frames 0).Answers mmcRpmbWrite) ↔
        (run.Accepted →
          (run.counter.frames 0).reqResp = responseCode mmcRpmbReadCnt ∧
            (run.answer.frames 0).reqResp = responseCode mmcRpmbWrite)) := by
  refine ⟨fun run => ?_, fun answer => ?_, readsChecked_iff hmac, fun addr run => ?_⟩
  · rw [doRpmbWriteKey_iff]
    exact forall_congr' fun h => and_iff_right h.result
  · have hsuccess : (∃ cnt, rpmbReadCounter answer = some (0, some cnt)) ↔
        answer.CounterAccepted := by
      simp only [rpmbReadCounter_iff, exists_and_left, exists_eq', and_true]
    rw [hsuccess]
    exact forall_congr' fun h => and_iff_right h.result
  · rw [doRpmbWriteBlock_iff]
    exact forall_congr' fun h =>
      and_congr (and_iff_right h.counter.result) (and_iff_right h.result)

/-- A device that answers everything with the response to a counter request. -/
def counterReply : RpmbAnswer where
  ioctl := fun _ => 0
  frames := fun _ => .request (responseCode mmcRpmbReadCnt)

/-- The key is said to be written although the device has answered something else. -/
theorem writeKey_believes_counterReply :
    ¬∀ run : WriteKeyRun, (doRpmbWriteKey run).ending = .exit 0 →
      (run.answer.frames 0).Answers mmcRpmbWriteKey := by
  intro hall
  have hanswers := hall ⟨true, some (Vector.replicate 32 7), counterReply⟩
    ((doRpmbWriteKey_iff _).mpr ⟨rfl, rfl, ⟨by decide, by decide, rfl⟩, rfl⟩)
  revert hanswers
  unfold RpmbFrame.Answers
  decide

end MmcUtils
