import JsrD10f.MmcSizes

/-!
# Effects of the partitioning commands

Two questions that a script asks after one of the three commands: what does the exit
status say, and which registers were touched?

The status is that of `set_partitioning_setting_completed`, which returns 0 for
success and 1 for a dry run or a failure.  Its callers exit with 1 when it returns 0.

`gp create` computes addresses and masks from its arguments.  It accepts partition 0,
adds to the attribute of the partition instead of replacing it, and does not look at
the upper bits of the attribute.
-/

namespace MmcUtils

/-! ## Exit status -/

/-- How a process ends. -/
inductive Ending where
  | exit (status : Int)
  | killed
deriving DecidableEq, Repr

def r1SwitchError : UInt32 := 128

/-- `set_partitioning_setting_completed`.  `written` tells whether the register could
be written, `answer` is the response to `SEND_STATUS` if there is one. -/
def setPartitioningSettingCompleted (dryRun written : Bool) (answer : Option UInt32) : Int :=
  if dryRun then 1
  else if !written then 1
  else
    match answer with
    | none => 1
    | some response => if (response &&& r1SwitchError) ≠ 0 then 1 else 0

/-- The end of an invocation.  The division by a zero alignment comes after the tests
and before the first write. -/
def PartitionCall.ending (call : PartitionCall) (answer : Option UInt32) (csd : ExtCsd) :
    Ending :=
  if call.env.opens && call.env.reads && call.command.passes csd && !call.command.admits csd then
    .killed
  else if !call.finishes csd then .exit 1
  else if setPartitioningSettingCompleted (!call.yes)
      (call.env.allows (call.command.stages csd).length) answer = 0 then .exit 1
  else .exit 0

/-- The response to `SEND_STATUS` shows no error. -/
def ConfirmedBy (answer : Option UInt32) : Prop :=
  ∃ response, answer = some response ∧ (response &&& r1SwitchError) = 0

/-- What was asked for is done: all registers are written and within the limits, and
with `-y` the configuration is complete and the device confirms it. -/
def PartitionCall.Done (call : PartitionCall) (answer : Option UInt32) (csd : ExtCsd) : Prop :=
  call.finishes csd = true ∧
    (call.yes = true →
      call.env.allows (call.command.stages csd).length = true ∧ ConfirmedBy answer)

theorem setPartitioningSettingCompleted_eq_zero {dryRun written : Bool}
    {answer : Option UInt32} :
    setPartitioningSettingCompleted dryRun written answer = 0 ↔
      dryRun = false ∧ written = true ∧ ConfirmedBy answer := by
  unfold setPartitioningSettingCompleted ConfirmedBy
  cases dryRun with
  | true => simp
  | false =>
      cases written with
      | false => simp
      | true =>
          cases answer with
          | none => simp
          | some response => by_cases h : (response &&& r1SwitchError) = 0 <;> simp [h]

/-- Only an invocation that comes to its end can exit with 0, and then it does so when
the last step did not succeed. -/
theorem ending_eq_zero_iff (call : PartitionCall) (answer : Option UInt32) (csd : ExtCsd) :
    call.ending answer csd = .exit 0 ↔
      call.finishes csd = true ∧
        ¬(call.yes = true ∧ call.env.allows (call.command.stages csd).length = true ∧
          ConfirmedBy answer) := by
  unfold PartitionCall.ending
  cases hfinishes : call.finishes csd with
  | false =>
      simp only [Bool.not_false, if_true, Bool.false_eq_true, false_and, iff_false]
      split <;> simp
  | true =>
      have hadmits := admits_of_finishes hfinishes
      have hzero := @setPartitioningSettingCompleted_eq_zero (!call.yes)
        (call.env.allows (call.command.stages csd).length) answer
      rw [Bool.not_eq_false'] at hzero
      simp only [hadmits, Bool.not_true, Bool.and_false, Bool.false_eq_true, if_false, true_and]
      rw [← hzero]
      split
      · rename_i h
        simp [h]
      · rename_i h
        simp [h]

/-- **The exit status.**  It says what it should for a dry run, and for an invocation
that ends before the last step.  When an invocation with `-y` comes to the last step,
the status is always the wrong one. -/
theorem exit_status_iff (call : PartitionCall) (answer : Option UInt32) (csd : ExtCsd) :
    (call.ending answer csd = .exit 0 ↔ call.Done answer csd) ↔
      (call.yes = false ∨ call.finishes csd = false) := by
  rw [ending_eq_zero_iff, PartitionCall.Done]
  cases hfinishes : call.finishes csd with
  | false => simp
  | true =>
      cases hyes : call.yes with
      | false => simp
      | true =>
          simp only [true_and, forall_const, Bool.true_eq_false, or_self, iff_false]
          exact not_iff_self

/-- A write reliability setting that the device confirms ends with status 1. -/
theorem exit_status_of_success :
    ¬∀ (call : PartitionCall) (answer : Option UInt32) (csd : ExtCsd),
      call.ending answer csd = .exit 0 ↔ call.Done answer csd := by
  intro hall
  have hdone : (⟨true, .writeReliabilitySet 1, working⟩ : PartitionCall).Done (some 2304)
      freshDevice := by
    refine ⟨by decide, fun _ => ⟨by decide, 2304, rfl, by decide⟩⟩
  have hzero := (hall _ _ _).mpr hdone
  revert hzero
  decide

/-! ## What `gp create` touches -/

/-- The four bits of `EXT_PARTITIONS_ATTRIBUTE` that belong to a partition.  Two
partitions share a byte. -/
def nibble (value : UInt8) (partition : Int) : Nat :=
  if partition % 2 = 1 then value.toNat % 16 else value.toNat / 16

/-- The byte with the attribute of a partition. -/
def attributeByte (partition : Int) : Nat :=
  (52 + (partition - 1).tdiv 2).toNat

/-- The first byte of `GP_SIZE_MULT` of a partition. -/
def gpSizeMult (partition : Int) : Nat :=
  (143 + 3 * (partition - 1)).toNat

/-- The writes of `gp create` before the commit concern partition `partition` alone and
set what was asked for. -/
structure TouchesOwn (csd : ExtCsd) (lengthKib : UInt32) (partition enhAttr extAttr : Int)
    (writes : List (Nat × UInt8)) : Prop where
  number : 1 ≤ partition ∧ partition ≤ 4
  addresses : ∀ w ∈ writes, w.1 = extCsdEraseGroupDef ∨ w.1 = gpSizeMult partition ∨
    w.1 = gpSizeMult partition + 1 ∨ w.1 = gpSizeMult partition + 2 ∨ w.1 = 156 ∨
    w.1 = attributeByte partition
  multiplier : register (applyWrites csd writes) (gpSizeMult partition) = sizeMult csd lengthKib
  enhanced : ∀ i, i < 8 → ((applyWrites csd writes 156).toNat.testBit i =
    if (i : Int) = partition then decide (enhAttr ≠ 0) else (csd 156).toNat.testBit i)
  own : (nibble (applyWrites csd writes (attributeByte partition)) partition : Int) = extAttr
  neighbour : nibble (applyWrites csd writes (attributeByte partition)) (partition + 1) =
    nibble (csd (attributeByte partition)) (partition + 1)

/-- The attribute that is asked for covers the bits that are set already. -/
def AttributeFits (csd : ExtCsd) (partition extAttr : Int) : Prop :=
  extAttr = 0 ∨ (0 < extAttr ∧ extAttr < 16 ∧
    nibble (csd (attributeByte partition)) partition ||| extAttr.toNat = extAttr.toNat)

theorem setBit_testBit (v : UInt8) {p : Nat} (hp : p < 8) (i : Nat) :
    (v ||| UInt8.ofNat (2 ^ p)).toNat.testBit i = if i = p then true else v.toNat.testBit i := by
  have hlt : 2 ^ p < 256 := Nat.pow_lt_pow_right (by decide) hp
  rw [UInt8.toNat_or, UInt8.toNat_ofNat', Nat.mod_eq_of_lt hlt, Nat.testBit_or,
    Nat.testBit_two_pow]
  by_cases h : p = i <;> simp [h, eq_comm]

theorem clearBit_testBit (v : UInt8) {p : Nat} (hp : p < 8) {i : Nat} (hi : i < 8) :
    (v &&& ~~~UInt8.ofNat (2 ^ p)).toNat.testBit i =
      if i = p then false else v.toNat.testBit i := by
  have hlt : 2 ^ p < 256 := Nat.pow_lt_pow_right (by decide) hp
  have hnot : (~~~UInt8.ofNat (2 ^ p)).toNat = 2 ^ 8 - (2 ^ p + 1) := by
    rw [UInt8.toNat_not, UInt8.toNat_ofNat', Nat.mod_eq_of_lt hlt, Nat.sub_sub, Nat.add_comm]
    rfl
  rw [UInt8.toNat_and, hnot, Nat.testBit_and, Nat.testBit_two_pow_sub_succ hlt,
    Nat.testBit_two_pow]
  by_cases h : p = i <;> simp [h, hi, eq_comm]

/-- The bit of a partition in `PARTITIONS_ATTRIBUTE`. -/
theorem shiftByte_partition {p : Nat} (hp : p < 8) :
    shiftByte 1 p = UInt8.ofNat (2 ^ p) := by
  have hsmall : (p : Int) % 256 = p := by omega
  have hlt : 2 ^ p < 256 := Nat.pow_lt_pow_right (by decide) hp
  have hpow : (2 : Int) ^ p % 256 = ((2 ^ p : Nat) : Int) := by
    have hcast : (2 : Int) ^ p = ((2 ^ p : Nat) : Int) := (Int.natCast_pow 2 p).symm
    rw [hcast]
    exact Int.emod_eq_of_lt (Int.natCast_nonneg _) (Int.ofNat_lt.mpr hlt)
  rw [shiftByte, hsmall, if_pos (by omega), Int.one_mul, Int.toNat_natCast, hpow,
    Int.toNat_natCast]

theorem nibble_or (v x : UInt8) (p : Int) :
    nibble (v ||| x) p = nibble v p ||| nibble x p := by
  unfold nibble
  rw [UInt8.toNat_or]
  split
  · exact Nat.or_mod_two_pow (n := 4)
  · exact Nat.or_div_two_pow (n := 4)

theorem nibble_and (v x : UInt8) (p : Int) :
    nibble (v &&& x) p = nibble v p &&& nibble x p := by
  unfold nibble
  rw [UInt8.toNat_and]
  split
  · exact Nat.and_mod_two_pow (n := 4)
  · exact Nat.and_div_two_pow (n := 4)

theorem nibble_lt (v : UInt8) (p : Int) : nibble v p < 16 := by
  have hlt := v.toNat_lt
  unfold nibble
  split <;> omega

/-- The registers that are written. -/
theorem gpCreate_addresses {csd : ExtCsd} {lengthKib : UInt32} {p enhAttr extAttr : Int}
    (hp : 0 ≤ p) {w : Nat × UInt8}
    (hw : w ∈ (PartitionCommand.gpCreate lengthKib p enhAttr extAttr).stages csd) :
    w.1 = extCsdEraseGroupDef ∨ w.1 = gpSizeMult p ∨ w.1 = gpSizeMult p + 1 ∨
      w.1 = gpSizeMult p + 2 ∨ w.1 = 156 ∨ w.1 = attributeByte p := by
  simp only [PartitionCommand.stages, List.mem_cons, List.not_mem_nil, or_false] at hw
  unfold gpSizeMult
  rcases hw with rfl | rfl | rfl | rfl | rfl | rfl
  · exact Or.inl rfl
  · dsimp only
    omega
  · dsimp only
    omega
  · exact Or.inr (Or.inl rfl)
  · dsimp only
    omega
  · exact Or.inr (Or.inr (Or.inr (Or.inr (Or.inr rfl))))

section Attribute

variable {p : Int} (hp : p = 1 ∨ p = 2 ∨ p = 3 ∨ p = 4)

include hp

/-- The mask that clears an attribute keeps the neighbour's. -/
theorem nibble_mask : nibble (shiftByte 0xF (4 * p.tmod 2)) p = 0 ∧
    nibble (shiftByte 0xF (4 * p.tmod 2)) (p + 1) = 15 := by
  rcases hp with rfl | rfl | rfl | rfl <;> decide

/-- The attribute of a partition is moved to its half of the byte. -/
theorem nibble_shifted (extAttr : Int) :
    nibble (shiftByte extAttr (4 * (p - 1).tmod 2)) p = (extAttr % 16).toNat := by
  rcases hp with rfl | rfl | rfl | rfl <;> simp [nibble, shiftByte] <;> omega

theorem nibble_shifted_neighbour {extAttr : Int} (hlow : 0 ≤ extAttr) (hhigh : extAttr < 16) :
    nibble (shiftByte extAttr (4 * (p - 1).tmod 2)) (p + 1) = 0 := by
  rcases hp with rfl | rfl | rfl | rfl <;> simp [nibble, shiftByte] <;> omega

/-- The byte of the attributes afterwards. -/
theorem extAttribute_iff (v : UInt8) (extAttr : Int) :
    ((nibble (extAttribute v p extAttr) p : Int) = extAttr ∧
      nibble (extAttribute v p extAttr) (p + 1) = nibble v (p + 1)) ↔
    (extAttr = 0 ∨ (0 < extAttr ∧ extAttr < 16 ∧
      nibble v p ||| extAttr.toNat = extAttr.toNat)) := by
  obtain ⟨hown, hneighbour⟩ := nibble_mask hp
  by_cases hzero : extAttr = 0
  · have hkeep : nibble v (p + 1) &&& 15 = nibble v (p + 1) := by
      rw [Nat.and_two_pow_sub_one_eq_mod _ 4]
      exact Nat.mod_eq_of_lt (nibble_lt v (p + 1))
    simp [extAttribute, hzero, nibble_and, hown, hneighbour, hkeep]
  · have hvalue : extAttribute v p extAttr = v ||| shiftByte extAttr (4 * (p - 1).tmod 2) := by
      rw [extAttribute, if_pos hzero]
    rw [hvalue, nibble_or, nibble_or, nibble_shifted hp]
    constructor
    · rintro ⟨heq, -⟩
      have hlt : nibble v p ||| (extAttr % 16).toNat < 2 ^ 4 :=
        Nat.or_lt_two_pow (nibble_lt v p) (by omega)
      have hmod : (extAttr % 16).toNat = extAttr.toNat := by omega
      rw [hmod] at heq hlt
      exact Or.inr ⟨by omega, by omega, by omega⟩
    · rintro (h | ⟨hlow, hhigh, hcover⟩)
      · exact absurd h hzero
      · have hmod : (extAttr % 16).toNat = extAttr.toNat := by omega
        rw [hmod, hcover, nibble_shifted_neighbour hp (by omega) hhigh, Nat.or_zero]
        exact ⟨by omega, rfl⟩

/-- The two attribute registers behind the writes. -/
theorem gpCreate_attributes (csd : ExtCsd) (lengthKib : UInt32) (enhAttr extAttr : Int) :
    applyWrites csd ((PartitionCommand.gpCreate lengthKib p enhAttr extAttr).stages csd) 156 =
        (if enhAttr ≠ 0 then csd 156 ||| shiftByte 1 p else csd 156 &&& ~~~shiftByte 1 p) ∧
      applyWrites csd ((PartitionCommand.gpCreate lengthKib p enhAttr extAttr).stages csd)
        (attributeByte p) = extAttribute (csd (attributeByte p)) p extAttr := by
  rcases hp with rfl | rfl | rfl | rfl <;> exact ⟨rfl, rfl⟩

/-- A bit of `PARTITIONS_ATTRIBUTE` behind the writes. -/
theorem gpCreate_enhanced (csd : ExtCsd) (lengthKib : UInt32) (enhAttr extAttr : Int) {i : Nat}
    (hi : i < 8) :
    (applyWrites csd ((PartitionCommand.gpCreate lengthKib p enhAttr extAttr).stages csd)
        156).toNat.testBit i =
      if (i : Int) = p then decide (enhAttr ≠ 0) else (csd 156).toNat.testBit i := by
  rw [(gpCreate_attributes hp csd lengthKib enhAttr extAttr).1]
  obtain ⟨k, rfl⟩ : ∃ k : Nat, p = k := Int.eq_ofNat_of_zero_le (by omega)
  have hindex : ((i : Int) = k) ↔ i = k := Int.ofNat_inj
  simp only [hindex, shiftByte_partition (show k < 8 by omega)]
  by_cases henh : enhAttr = 0
  · rw [if_neg (by simp [henh]), clearBit_testBit _ (by omega) hi]
    simp [henh]
  · rw [if_pos henh, setBit_testBit _ (by omega)]
    simp [henh]

end Attribute

/-- **What `gp create` touches.**  For a request that is not rejected it is the
partition's own registers, with the values asked for, if and only if the partition is
not 0 and the attribute is clear, or has four bits that cover the old ones. -/
theorem gpCreate_touches_iff (csd : ExtCsd) (lengthKib : UInt32)
    (partition enhAttr extAttr : Int)
    (hadmits : (PartitionCommand.gpCreate lengthKib partition enhAttr extAttr).admits csd = true) :
    TouchesOwn csd lengthKib partition enhAttr extAttr
        ((PartitionCommand.gpCreate lengthKib partition enhAttr extAttr).stages csd) ↔
      partition ≠ 0 ∧ AttributeFits csd partition extAttr := by
  obtain ⟨h0, h4⟩ := admits_partition hadmits
  constructor
  · intro h
    have hp : partition = 1 ∨ partition = 2 ∨ partition = 3 ∨ partition = 4 := by
      have hnumber := h.number
      omega
    have hown := h.own
    have hneighbour := h.neighbour
    obtain ⟨-, hattribute⟩ := gpCreate_attributes hp csd lengthKib enhAttr extAttr
    rw [hattribute] at hown hneighbour
    exact ⟨by omega, (extAttribute_iff hp _ _).mp ⟨hown, hneighbour⟩⟩
  · rintro ⟨hne, hfits⟩
    have hp : partition = 1 ∨ partition = 2 ∨ partition = 3 ∨ partition = 4 := by omega
    have hdivisor := alignOf_ne_zero hadmits rfl
    obtain ⟨-, hattribute⟩ := gpCreate_attributes hp csd lengthKib enhAttr extAttr
    obtain ⟨hown, hneighbour⟩ :=
      (extAttribute_iff hp (csd (attributeByte partition)) extAttr).mpr hfits
    refine ⟨by omega, fun w hw => gpCreate_addresses h0 hw, ?_,
      fun i hi => gpCreate_enhanced hp csd lengthKib enhAttr extAttr hi, ?_, ?_⟩
    · exact stages_register hadmits rfl (sizeMult_lt hdivisor lengthKib)
    · rw [hattribute]
      exact hown
    · rw [hattribute]
      exact hneighbour

theorem gpCreate_touches_first :
    (PartitionCommand.gpCreate 65536 1 1 0).admits freshDevice = true ∧
      TouchesOwn freshDevice 65536 1 1 0
        ((PartitionCommand.gpCreate 65536 1 1 0).stages freshDevice) :=
  ⟨by decide, (gpCreate_touches_iff freshDevice 65536 1 1 0 (by decide)).mpr
    ⟨by decide, Or.inl rfl⟩⟩

/-- Partition 0 is accepted, and its length goes to the enhanced user area. -/
theorem gpCreate_accepts_zero :
    ¬∀ (csd : ExtCsd) (lengthKib : UInt32) (partition enhAttr extAttr : Int),
      (PartitionCommand.gpCreate lengthKib partition enhAttr extAttr).admits csd = true →
        TouchesOwn csd lengthKib partition enhAttr extAttr
          ((PartitionCommand.gpCreate lengthKib partition enhAttr extAttr).stages csd) := by
  intro hall
  have hnumber := (hall freshDevice 65536 0 0 0 (by decide)).number
  omega

end MmcUtils
