import JsrD10f.MmcRpmb

/-!
# Numbers on the command line

The `mmc` tool reads its numbers with `strtol`, whose result is a 32-bit `long`, and
then stores them in a byte, in 16 bits, or shifts by them.  Only the two `rpmb`
commands look whether `strtol` has found a number out of its range; nothing looks
whether the number fits where it goes.

The integer that a text stands for is `textValue`.  This file says for each of the
commands which integers reach the device as they are.
-/

namespace MmcUtils

/-! ## `strtol` -/

/-- `isspace`. -/
def isSpace (c : Char) : Bool :=
  c = ' ' || (9 ≤ c.toNat && c.toNat ≤ 13)

/-- The value of a digit or a letter, 36 for any other character. -/
def digitValue (c : Char) : Nat :=
  if 48 ≤ c.toNat ∧ c.toNat ≤ 57 then c.toNat - 48
  else if 97 ≤ c.toNat ∧ c.toNat ≤ 122 then c.toNat - 87
  else if 65 ≤ c.toNat ∧ c.toNat ≤ 90 then c.toNat - 55
  else 36

/-- The digits at the front of a text, behind those that give `acc`. -/
def digitsFrom (base : Nat) : Nat → List Char → Nat
  | acc, [] => acc
  | acc, c :: rest =>
      if digitValue c < base then digitsFrom base (acc * base + digitValue c) rest else acc

/-- The text without a sign.  With base 0 its first characters tell the base. -/
def magnitude (base : Nat) (text : List Char) : Nat :=
  if base ≠ 0 then digitsFrom base 0 text
  else if ['0', 'x'].isPrefixOf text || ['0', 'X'].isPrefixOf text then
    digitsFrom 16 0 (text.drop 2)
  else if ['0'].isPrefixOf text then digitsFrom 8 0 text
  else digitsFrom 10 0 text

/-- The integer that a text stands for. -/
def textValue (base : Nat) (text : List Char) : Int :=
  match text.dropWhile isSpace with
  | [] => 0
  | c :: rest =>
      if c = '-' then -magnitude base rest
      else if c = '+' then magnitude base rest
      else magnitude base (c :: rest)

def longMin : Int := -2147483648

def longMax : Int := 2147483647

/-- `strtol` sets `errno`. -/
def outOfRange (base : Nat) (text : List Char) : Bool :=
  textValue base text < longMin || longMax < textValue base text

def strtol (base : Nat) (text : List Char) : Int :=
  max longMin (min longMax (textValue base text))

theorem strtol_eq {base : Nat} {text : List Char} (h : outOfRange base text = false) :
    strtol base text = textValue base text := by
  simp only [outOfRange, Bool.or_eq_false_iff, decide_eq_false_iff_not] at h
  unfold strtol
  omega

/-- Inside the range of a `long` the text decides, outside of it the end of the range. -/
theorem strtol_cases (base : Nat) (text : List Char) :
    strtol base text = textValue base text ∨
      (textValue base text < -2147483648 ∧ strtol base text = -2147483648) ∨
      (2147483647 < textValue base text ∧ strtol base text = 2147483647) := by
  unfold strtol longMin longMax
  omega

example : strtol 0 " -0x1F".toList = -31 := by decide

example : strtol 10 "0000004294967296".toList = 2147483647 := by decide

/-! ## The commands -/

/-- `(__u8)v`. -/
def narrow8 (v : Int) : UInt8 :=
  UInt8.ofNat (v % 256).toNat

/-- `(uint16_t)v`. -/
def narrow16 (v : Int) : UInt16 :=
  UInt16.ofNat (v % 65536).toNat

/-- `do_write_extcsd_byte`: the register and the value it sends. -/
def doWriteExtcsdByte (opens : Bool) (offset value : List Char) : List (UInt8 × UInt8) :=
  if opens then [(narrow8 (strtol 0 offset), narrow8 (strtol 0 value))] else []

/-- `do_write_reliability_set` with its argument as a text. -/
def reliabilityCall (yes : Bool) (partition : List Char) (env : Environment) : PartitionCall :=
  ⟨yes, .writeReliabilitySet (strtol 10 partition), env⟩

/-- The writes that a call tries, unless it is rejected before. -/
def PartitionCall.issued (call : PartitionCall) (csd : ExtCsd) : List (Nat × UInt8) :=
  if call.env.opens && call.env.reads && call.command.admits csd then call.command.stages csd
  else []

/-- The numbers of the `rpmb` commands; `errno` is checked. -/
def rpmbNumber (text : List Char) : Option UInt16 :=
  if outOfRange 0 text then none else some (narrow16 (strtol 0 text))

theorem narrow8_toNat (v : Int) : ((narrow8 v).toNat : Int) = v % 256 := by
  rw [narrow8, UInt8.toNat_ofNat']
  omega

theorem narrow16_toNat (v : Int) : ((narrow16 v).toNat : Int) = v % 65536 := by
  rw [narrow16, UInt16.toNat_ofNat']
  omega

/-- A byte holds the number of a text if it is one of a byte. -/
theorem narrow8_strtol_iff (base : Nat) (text : List Char) :
    ((narrow8 (strtol base text)).toNat : Int) = textValue base text ↔
      0 ≤ textValue base text ∧ textValue base text < 256 := by
  rw [narrow8_toNat]
  have hcases := strtol_cases base text
  omega

/-- A number of the `rpmb` commands is that of the text, modulo `2^16`. -/
theorem rpmbNumber_eq_some {text : List Char} {n : UInt16} (h : rpmbNumber text = some n) :
    outOfRange 0 text = false ∧ n = narrow16 (textValue 0 text) := by
  unfold rpmbNumber at h
  split at h
  · cases h
  · rename_i hrange
    have hfalse : outOfRange 0 text = false := by simpa using hrange
    rw [strtol_eq hfalse] at h
    exact ⟨hfalse, (Option.some.inj h).symm⟩

theorem rpmbNumber_some {text : List Char} (h : outOfRange 0 text = false) :
    rpmbNumber text = some (narrow16 (textValue 0 text)) := by
  rw [rpmbNumber, h, if_neg Bool.false_ne_true, strtol_eq h]

theorem rpmbNumber_iff {text : List Char} {n : UInt16} (h : rpmbNumber text = some n) :
    (n.toNat : Int) = textValue 0 text ↔ 0 ≤ textValue 0 text ∧ textValue 0 text < 65536 := by
  obtain ⟨-, rfl⟩ := rpmbNumber_eq_some h
  rw [narrow16_toNat]
  omega

/-! ## What reaches the device -/

/-- The register and the value that are sent are those of the texts. -/
def ExtcsdExact (offset value : List Char) (sent : List (UInt8 × UInt8)) : Prop :=
  ∀ w ∈ sent, (w.1.toNat : Int) = textValue 0 offset ∧ (w.2.toNat : Int) = textValue 0 value

/-- The bit of `WR_REL_SET` that the text names is added, and nothing else. -/
def ReliabilityExact (csd : ExtCsd) (partition : List Char) (issued : List (Nat × UInt8)) :
    Prop :=
  ∀ w ∈ issued, w.1 = 167 ∧ ∃ i : Nat, i < 8 ∧ (i : Int) = textValue 10 partition ∧
    ∀ j, w.2.toNat.testBit j = (decide (j = i) || (csd 167).toNat.testBit j)

/-- Every request has the address of the text, and every read its number of blocks. -/
def ReadExact (addr blocks : List Char) (sent : List RpmbIoctl) : Prop :=
  (∀ reliable frame, .write reliable frame ∈ sent → (frame.addr.toNat : Int) = textValue 0 addr) ∧
    ∀ n : Nat, .read n ∈ sent → (n : Int) = textValue 0 blocks

/-- Every write request has the address of the text. -/
def WriteExact (addr : List Char) (sent : List RpmbIoctl) : Prop :=
  ∀ reliable frame, .write reliable frame ∈ sent → frame.reqResp = mmcRpmbWrite →
    (frame.addr.toNat : Int) = textValue 0 addr

theorem extcsd_exact_iff (opens : Bool) (offset value : List Char) :
    ExtcsdExact offset value (doWriteExtcsdByte opens offset value) ↔
      (opens = true → (0 ≤ textValue 0 offset ∧ textValue 0 offset < 256) ∧
        (0 ≤ textValue 0 value ∧ textValue 0 value < 256)) := by
  cases opens with
  | false => simp [ExtcsdExact, doWriteExtcsdByte]
  | true =>
      simp only [ExtcsdExact, doWriteExtcsdByte, if_true, List.mem_singleton, forall_eq,
        narrow8_strtol_iff, forall_const]

/-- The shift adds the bit of a partition that has one. -/
theorem reliability_bit {csd : ExtCsd} {i : Nat} (hi : i < 8) (j : Nat) :
    (csd 167 ||| shiftByte 1 i).toNat.testBit j =
      (decide (j = i) || (csd 167).toNat.testBit j) := by
  rw [shiftByte_partition hi, setBit_testBit _ hi]
  by_cases h : j = i <;> simp [h]

theorem reliability_exact_iff (csd : ExtCsd) (yes : Bool) (partition : List Char)
    (env : Environment) :
    ReliabilityExact csd partition ((reliabilityCall yes partition env).issued csd) ↔
      ((env.opens && env.reads && (PartitionCommand.writeReliabilitySet
          (strtol 10 partition)).admits csd) = true →
        0 ≤ textValue 10 partition ∧ textValue 10 partition < 8) := by
  unfold ReliabilityExact PartitionCall.issued reliabilityCall
  dsimp only
  split
  · rename_i hruns
    simp only [hruns, forall_const, PartitionCommand.stages, List.mem_singleton, forall_eq,
      true_and]
    constructor
    · rintro ⟨i, hi, hvalue, -⟩
      omega
    · rintro ⟨hlow, hhigh⟩
      obtain ⟨i, hi⟩ := Int.eq_ofNat_of_zero_le hlow
      have hstrtol : strtol 10 partition = i := by
        have hcases := strtol_cases 10 partition
        omega
      refine ⟨i, by omega, hi.symm, fun j => ?_⟩
      rw [hstrtol]
      exact reliability_bit (by omega) j
  · rename_i hruns
    simp [hruns]

section Rpmb

variable (hmac : List UInt8 → List UInt8 → Vector UInt8 32)

/-- `do_rpmb_read_block` comes to its operation. -/
structure ReadBlockRun.Asks (run : ReadBlockRun) (addr blocks : List Char) : Prop where
  opens : run.opens = true
  addrRange : outOfRange 0 addr = false
  blocksRange : outOfRange 0 blocks = false
  someBlocks : textValue 0 blocks % 65536 ≠ 0
  allocates : run.allocates = true
  opensOutput : run.opensOutput = true
  key : run.key ≠ .unreadable

/-- That is when both numbers are there and everything else is in place. -/
theorem ReadBlockRun.asks_iff {run : ReadBlockRun} {addr blocks : List Char} :
    run.Asks addr blocks ↔ ∃ addrNumber blocksCnt : UInt16, rpmbNumber addr = some addrNumber ∧
      rpmbNumber blocks = some blocksCnt ∧ run.Ready blocksCnt.toNat := by
  constructor
  · intro h
    refine ⟨_, _, rpmbNumber_some h.addrRange, rpmbNumber_some h.blocksRange, h.opens, ?_,
      h.allocates, h.opensOutput, h.key⟩
    have hnumber := narrow16_toNat (textValue 0 blocks)
    have hsome := h.someBlocks
    omega
  · rintro ⟨_, _, haddr, hblocks, hready⟩
    obtain ⟨haddrRange, -⟩ := rpmbNumber_eq_some haddr
    obtain ⟨hblocksRange, rfl⟩ := rpmbNumber_eq_some hblocks
    refine ⟨hready.opens, haddrRange, hblocksRange, ?_, hready.allocates, hready.opensOutput,
      hready.key⟩
    have hnumber := narrow16_toNat (textValue 0 blocks)
    have hsome := hready.blocks
    omega

/-- Without its operation a read makes no calls. -/
theorem doRpmbReadBlock_silent {addr blocks : List Char} {run : ReadBlockRun}
    (h : ¬run.Asks addr blocks) :
    (doRpmbReadBlock hmac (rpmbNumber addr) (rpmbNumber blocks) run).sent = [] := by
  cases haddr : rpmbNumber addr with
  | none =>
      unfold doRpmbReadBlock
      split <;> rfl
  | some addrNumber =>
      cases hblocks : rpmbNumber blocks with
      | none =>
          unfold doRpmbReadBlock
          split <;> rfl
      | some blocksCnt =>
          rw [doRpmbReadBlock_unready]
          · rfl
          · exact fun hready => h (ReadBlockRun.asks_iff.mpr ⟨_, _, haddr, hblocks, hready⟩)

theorem read_exact_iff (addr blocks : List Char) (run : ReadBlockRun) :
    ReadExact addr blocks
        (doRpmbReadBlock hmac (rpmbNumber addr) (rpmbNumber blocks) run).sent ↔
      (run.Asks addr blocks →
        (0 ≤ textValue 0 addr ∧ textValue 0 addr < 65536) ∧
          (0 ≤ run.answer.ioctl 0 → 0 ≤ textValue 0 blocks ∧ textValue 0 blocks < 65536)) := by
  by_cases hasks : run.Asks addr blocks
  · obtain ⟨addrNumber, blocksCnt, haddr, hblocks, hready⟩ := ReadBlockRun.asks_iff.mp hasks
    rw [haddr, hblocks, doRpmbReadBlock_ready hmac _ hready, finish_sent,
      doRpmbOp_read run.answer hready.blocks (Or.inl rfl), ← rpmbNumber_iff haddr,
      ← rpmbNumber_iff hblocks]
    simp only [hasks, forall_const]
    by_cases hfirst : run.answer.ioctl 0 < 0
    · have hnot : ¬0 ≤ run.answer.ioctl 0 := by omega
      simp [ReadExact, hfirst, hnot, readBlockFrame]
    · have hnot : 0 ≤ run.answer.ioctl 0 := by omega
      simp [ReadExact, hfirst, hnot, readBlockFrame]
  · rw [doRpmbReadBlock_silent hmac hasks]
    simp [ReadExact, hasks]

/-- `do_rpmb_write_block` comes to its write operation. -/
structure WriteBlockRun.Asks (run : WriteBlockRun) (addr : List Char) : Prop where
  opens : run.opens = true
  counter : run.counter.CounterAccepted
  addrRange : outOfRange 0 addr = false
  data : run.data.isSome = true
  key : run.key.isSome = true

theorem checkResponse_sent (before : List RpmbIoctl) (op : Int × List RpmbIoctl)
    (frameOut : RpmbFrame) : (checkResponse before op frameOut).sent = before ++ op.2 := by
  unfold checkResponse
  split
  · rfl
  · split <;> rfl

/-- The requests for the counter are no write requests. -/
theorem counterOp_writeExact (addr : List Char) (answer : RpmbAnswer) :
    WriteExact addr (counterOp answer).2 := by
  intro reliable frame hsent hwrite
  have hframe : frame = .request mmcRpmbReadCnt := by
    rw [counterOp, doRpmbOp_read answer (by decide) (Or.inr ⟨rfl, rfl⟩)] at hsent
    split at hsent <;> simp at hsent <;> exact hsent.2
  rw [hframe] at hwrite
  exact absurd hwrite (by decide)

/-- The frame is sent in any case, and it is the only write request. -/
theorem doRpmbOp_writeExact (addr : List Char) (answer : RpmbAnswer) {frame : RpmbFrame}
    (hframe : frame.reqResp = mmcRpmbWrite) :
    WriteExact addr (doRpmbOp answer frame 1).2 ↔ (frame.addr.toNat : Int) = textValue 0 addr := by
  have hresp : (RpmbFrame.request mmcRpmbReadResp).reqResp ≠ mmcRpmbWrite := by decide
  rw [doRpmbOp_write answer (Or.inl hframe), issue_three]
  unfold WriteExact
  constructor
  · intro h
    refine h true frame ?_ hframe
    split
    · simp
    · split <;> simp
  · intro h reliable frame' hsent hwrite
    have hcases : frame' = frame ∨ frame' = .request mmcRpmbReadResp := by
      split at hsent
      · simp at hsent
        exact Or.inl hsent.2
      · split at hsent <;> simp at hsent <;> rcases hsent with ⟨-, h⟩ | ⟨-, h⟩
        · exact Or.inl h
        · exact Or.inr h
        · exact Or.inl h
        · exact Or.inr h
    rcases hcases with rfl | rfl
    · exact h
    · exact absurd hwrite hresp

theorem writeExact_append {addr : List Char} {before after : List RpmbIoctl}
    (hbefore : WriteExact addr before) :
    WriteExact addr (before ++ after) ↔ WriteExact addr after := by
  unfold WriteExact at *
  constructor
  · intro h reliable frame hsent
    exact h reliable frame (List.mem_append_right before hsent)
  · intro h reliable frame hsent
    rcases List.mem_append.mp hsent with hsent | hsent
    · exact hbefore reliable frame hsent
    · exact h reliable frame hsent

theorem write_exact_iff (addr : List Char) (run : WriteBlockRun) :
    WriteExact addr (doRpmbWriteBlock hmac (rpmbNumber addr) run).sent ↔
      (run.Asks addr → 0 ≤ textValue 0 addr ∧ textValue 0 addr < 65536) := by
  have hcounter := counterOp_writeExact addr run.counter
  by_cases hasks : run.Asks addr
  · obtain ⟨data, hdata⟩ := Option.isSome_iff_exists.mp hasks.data
    obtain ⟨key, hkey⟩ := Option.isSome_iff_exists.mp hasks.key
    have hread := rpmbReadCounter_iff.mpr ⟨hasks.counter, rfl⟩
    have haddr := rpmbNumber_some hasks.addrRange
    simp only [doRpmbWriteBlock, hasks.opens, hread, haddr, hdata, hkey, Bool.not_true,
      Bool.false_eq_true, if_false, checkResponse_sent]
    rw [writeExact_append hcounter, doRpmbOp_writeExact addr run.answer rfl,
      ← rpmbNumber_iff haddr]
    simp only [hasks, forall_const]
    rfl
  · refine iff_of_true ?_ (fun h => absurd h hasks)
    unfold doRpmbWriteBlock
    split
    · intro reliable frame hsent
      cases hsent
    · rename_i hopens
      split
      · rename_i ret cnt addrNumber data key hread haddr hdata hkey
        rw [rpmbReadCounter_counter hread] at hread
        exact absurd ⟨by simpa using hopens, (rpmbReadCounter_iff.mp hread).1,
          (rpmbNumber_eq_some haddr).1, by simp [hdata], by simp [hkey]⟩ hasks
      · exact hcounter

/-- **Numbers that reach the device.**  For each command the numbers sent are those
given if and only if they fit where they go, or the command stops before. -/
theorem numbers_exact_iff :
    (∀ opens offset value,
      ExtcsdExact offset value (doWriteExtcsdByte opens offset value) ↔
        (opens = true → (0 ≤ textValue 0 offset ∧ textValue 0 offset < 256) ∧
          (0 ≤ textValue 0 value ∧ textValue 0 value < 256))) ∧
    (∀ csd yes partition env,
      ReliabilityExact csd partition ((reliabilityCall yes partition env).issued csd) ↔
        ((env.opens && env.reads && (PartitionCommand.writeReliabilitySet
            (strtol 10 partition)).admits csd) = true →
          0 ≤ textValue 10 partition ∧ textValue 10 partition < 8)) ∧
    (∀ addr blocks run,
      ReadExact addr blocks
          (doRpmbReadBlock hmac (rpmbNumber addr) (rpmbNumber blocks) run).sent ↔
        (run.Asks addr blocks →
          (0 ≤ textValue 0 addr ∧ textValue 0 addr < 65536) ∧
            (0 ≤ run.answer.ioctl 0 → 0 ≤ textValue 0 blocks ∧ textValue 0 blocks < 65536))) ∧
    (∀ addr run,
      WriteExact addr (doRpmbWriteBlock hmac (rpmbNumber addr) run).sent ↔
        (run.Asks addr → 0 ≤ textValue 0 addr ∧ textValue 0 addr < 65536)) :=
  ⟨extcsd_exact_iff, reliability_exact_iff, read_exact_iff hmac, write_exact_iff hmac⟩

end Rpmb

/-- Register 307 is sent as register 51. -/
theorem extcsd_write_truncates :
    ¬∀ opens offset value, ExtcsdExact offset value (doWriteExtcsdByte opens offset value) := by
  intro hall
  have h := hall true "307".toList "1".toList (51, 1) (by decide)
  exact absurd h.1 (by decide)

end MmcUtils
