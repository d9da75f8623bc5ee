import JsrD10f.MmcPartitioning

/-!
# Sizes and addresses of the partitioning commands

The commands compute with sizes in KiB, in units of the write-protect group and in
sectors, all of them in 32 bits.  This file holds the unbounded values beside what the
code computes, and says for which devices and arguments the two agree.

* The limit check adds up five areas and compares with the capacity.  The sums are
  taken modulo `2^32`.
* A length is rounded to the next multiple of the group size.  The sum before the
  division may wrap, and the group size may be zero.
* The start of the enhanced area is written in sectors or bytes, and read back with
  the two kinds of devices exchanged.
-/

namespace MmcUtils

/-! ## The limit check -/

/-- The size in KiB that a register of three bytes stands for. -/
def area (csd : ExtCsd) (first : Nat) : Nat :=
  512 * register csd first * getHcEraseGrpSize csd * getHcWpGrpSize csd

/-- The area, if its bit of `PARTITIONS_ATTRIBUTE` is set. -/
def enhancedPart (csd : ExtCsd) (bit : UInt8) (first : Nat) : Nat :=
  if (csd 156 &&& bit) ≠ 0 then area csd first else 0

/-- All enhanced areas together. -/
def enhancedTotal (csd : ExtCsd) : Nat :=
  enhancedPart csd 16 152 + enhancedPart csd 8 149 + enhancedPart csd 4 146 +
    enhancedPart csd 2 143 + enhancedPart csd 1 140

/-- The general purpose areas and the enhanced user area together. -/
def partitionsTotal (csd : ExtCsd) : Nat :=
  area csd 152 + area csd 149 + area csd 146 + area csd 143 + area csd 140

/-- The areas are within the maximum that the device names and within its capacity. -/
def WithinLimits (csd : ExtCsd) : Prop :=
  enhancedTotal csd ≤ area csd 157 ∧ partitionsTotal csd ≤ getSectorCount csd / 2

/-- A layout of `2^32` KiB or more whose sums are small modulo `2^32`. -/
def WrapsBelowLimits (csd : ExtCsd) : Prop :=
  4294967296 ≤ partitionsTotal csd ∧
    partitionsTotal csd % 4294967296 ≤ getSectorCount csd / 2 ∧
    enhancedTotal csd % 4294967296 ≤ area csd 157 % 4294967296

theorem enhancedPart_le (csd : ExtCsd) (bit : UInt8) (first : Nat) :
    enhancedPart csd bit first ≤ area csd first := by
  unfold enhancedPart
  split <;> omega

theorem enhancedTotal_le (csd : ExtCsd) : enhancedTotal csd ≤ partitionsTotal csd := by
  have h₄ := enhancedPart_le csd 16 152
  have h₃ := enhancedPart_le csd 8 149
  have h₂ := enhancedPart_le csd 4 146
  have h₁ := enhancedPart_le csd 2 143
  have h₀ := enhancedPart_le csd 1 140
  unfold enhancedTotal partitionsTotal
  omega

theorem wrap_enhancedPart (csd : ExtCsd) (bit : UInt8) (first : Nat) :
    (if (csd 156 &&& bit) ≠ 0 then areaSize csd first else 0) =
      wrap (enhancedPart csd bit first) := by
  unfold enhancedPart
  split <;> rfl

theorem wrap_sum (a b c d e : Nat) :
    wrap (wrap a + wrap b + wrap c + wrap d + wrap e) = (a + b + c + d + e) % 4294967296 := by
  unfold wrap
  omega

/-- The check compares the sums modulo `2^32`. -/
theorem exceedsLimit_eq_false_iff (csd : ExtCsd) :
    exceedsLimit csd = false ↔
      enhancedTotal csd % 4294967296 ≤ area csd 157 % 4294967296 ∧
        partitionsTotal csd % 4294967296 ≤ getSectorCount csd / 2 := by
  have hmax : areaSize csd 157 = area csd 157 % 4294967296 := rfl
  have htotal : wrap (areaSize csd 152 + areaSize csd 149 + areaSize csd 146 +
      areaSize csd 143 + areaSize csd 140) = partitionsTotal csd % 4294967296 :=
    wrap_sum _ _ _ _ _
  simp only [exceedsLimit, wrap_enhancedPart, wrap_sum, hmax, htotal, Bool.or_eq_false_iff,
    decide_eq_false_iff_not, Nat.not_lt]
  rfl

theorem getSectorCount_lt (csd : ExtCsd) : getSectorCount csd < 4294967296 := by
  have h₀ := (csd 212).toNat_lt
  have h₁ := (csd 213).toNat_lt
  have h₂ := (csd 214).toNat_lt
  have h₃ := (csd 215).toNat_lt
  unfold getSectorCount
  omega

/-- **What the limit check is worth.**  A device that passes it is within its limits,
unless its layout wraps below them. -/
theorem limit_check_iff (csd : ExtCsd) :
    (exceedsLimit csd = false → WithinLimits csd) ↔ ¬WrapsBelowLimits csd := by
  rw [exceedsLimit_eq_false_iff]
  have hcapacity := getSectorCount_lt csd
  have hle := enhancedTotal_le csd
  have hmax := Nat.mod_le (area csd 157) 4294967296
  unfold WithinLimits WrapsBelowLimits
  constructor
  · rintro hsound ⟨hlarge, htotal, henhanced⟩
    have hwithin := (hsound ⟨henhanced, htotal⟩).2
    omega
  · rintro hwraps ⟨henhanced, htotal⟩
    have hsmall : partitionsTotal csd < 4294967296 := by
      by_contra hlarge
      exact hwraps ⟨by omega, htotal, henhanced⟩
    rw [Nat.mod_eq_of_lt (by omega)] at henhanced htotal
    exact ⟨by omega, htotal⟩

/-- A 4 GB device with two general purpose partitions of 2 TiB. -/
def hugeLayout : ExtCsd :=
  Function.update (Function.update freshDevice 145 8) 148 8

/-- The two partitions pass the check: together they are no larger than nothing. -/
theorem limit_check_passes_hugeLayout :
    ¬∀ csd, exceedsLimit csd = false → WithinLimits csd := by
  intro hall
  have hpasses : exceedsLimit hugeLayout = false := by decide
  have hwithin := (hall hugeLayout hpasses).2
  revert hwithin
  decide

/-! ## Rounding a length -/

/-- The tests before the first write, without the division. -/
def PartitionCommand.passes (csd : ExtCsd) : PartitionCommand → Bool
  | .gpCreate _ partition enhAttr extAttr =>
      0 ≤ partition && partition ≤ 4 && !(enhAttr ≠ 0 && extAttr ≠ 0) &&
        csd extCsdPartitionSettingCompleted = 0
  | .enhAreaSet _ _ => (csd 160 &&& 2) ≠ 0 && csd extCsdPartitionSettingCompleted = 0
  | .writeReliabilitySet _ =>
      csd extCsdPartitionSettingCompleted = 0 && (csd 166 &&& 1) ≠ 0

/-- The commands that divide by the alignment are those with a limit check. -/
theorem admits_eq_passes (csd : ExtCsd) (command : PartitionCommand) :
    command.admits csd = (command.passes csd && (!command.checksLimit || alignOf csd ≠ 0)) := by
  cases command <;> simp [PartitionCommand.admits, PartitionCommand.passes,
    PartitionCommand.checksLimit]

/-- A command that passes its tests and divides does not divide by zero. -/
theorem alignOf_ne_zero {csd : ExtCsd} {command : PartitionCommand}
    (hadmits : command.admits csd = true) (hlimit : command.checksLimit = true) :
    alignOf csd ≠ 0 := by
  rw [admits_eq_passes] at hadmits
  simpa [hlimit] using (Bool.and_eq_true_iff.mp hadmits).2

theorem admits_of_finishes {call : PartitionCall} {csd : ExtCsd}
    (h : call.finishes csd = true) : call.command.admits csd = true := by
  simp only [PartitionCall.finishes, Bool.and_eq_true] at h
  exact h.1.1.2

/-- The length that a command rounds, and the first of the three bytes it goes to. -/
def PartitionCommand.size : PartitionCommand → Option (UInt32 × Nat)
  | .gpCreate lengthKib partition _ _ => some (lengthKib, (143 + 3 * (partition - 1)).toNat)
  | .enhAreaSet _ lengthKib => some (lengthKib, 140)
  | .writeReliabilitySet _ => none

/-- The multiplier is the length in units of the alignment, rounded, and it is what
the registers hold after the writes. -/
structure RoundsLength (csd : ExtCsd) (command : PartitionCommand) (lengthKib : UInt32)
    (first : Nat) : Prop where
  divisor : alignOf csd ≠ 0
  fits : sizeMult csd lengthKib < 16777216
  close : ((sizeMult csd lengthKib * alignOf csd : Int) - lengthKib.toNat).natAbs ≤
    alignOf csd / 2
  encoded : register (applyWrites csd (command.stages csd)) first = sizeMult csd lengthKib

theorem alignOf_lt (csd : ExtCsd) : alignOf csd < 33554432 := by
  have hwp := (csd 221).toNat_lt
  have herase := (csd 224).toNat_lt
  have hprod : getHcWpGrpSize csd * getHcEraseGrpSize csd ≤ 255 * 255 :=
    Nat.mul_le_mul (Nat.le_of_lt_succ hwp) (Nat.le_of_lt_succ herase)
  rw [alignOf, Nat.mul_assoc]
  omega

theorem le_alignOf {csd : ExtCsd} (h : alignOf csd ≠ 0) : 512 ≤ alignOf csd := by
  rw [alignOf, Nat.mul_assoc] at h ⊢
  omega

/-- The register has room for every quotient. -/
theorem sizeMult_lt {csd : ExtCsd} (h : alignOf csd ≠ 0) (lengthKib : UInt32) :
    sizeMult csd lengthKib < 16777216 := by
  have hquot : sizeMult csd lengthKib ≤ wrap (lengthKib.toNat + alignOf csd / 2) / 512 :=
    Nat.div_le_div_left (le_alignOf h) (by decide)
  have hwrap : wrap (lengthKib.toNat + alignOf csd / 2) < 4294967296 :=
    Nat.mod_lt _ (by decide)
  omega

/-- The rounding is right as long as the sum does not wrap. -/
theorem sizeMult_close_iff {csd : ExtCsd} (h : alignOf csd ≠ 0) (lengthKib : UInt32) :
    ((sizeMult csd lengthKib * alignOf csd : Int) - lengthKib.toNat).natAbs ≤ alignOf csd / 2 ↔
      lengthKib.toNat + alignOf csd / 2 < 4294967296 := by
  have hsmall := alignOf_lt csd
  have hlen := lengthKib.toNat_lt
  have hpos : 0 < alignOf csd := by omega
  -- half of the alignment is a whole number, so both bounds of the remainder are exact
  have heven : alignOf csd = 2 * (alignOf csd / 2) := by
    rw [alignOf, Nat.mul_assoc]
    omega
  have hdiv := Nat.div_add_mod (wrap (lengthKib.toNat + alignOf csd / 2)) (alignOf csd)
  have hrem := Nat.mod_lt (wrap (lengthKib.toNat + alignOf csd / 2)) hpos
  have hprod : (sizeMult csd lengthKib : Int) * alignOf csd =
      ((alignOf csd * (wrap (lengthKib.toNat + alignOf csd / 2) / alignOf csd) : Nat) : Int) := by
    rw [Nat.mul_comm, Int.natCast_mul]
    rfl
  rw [hprod]
  generalize alignOf csd * (wrap (lengthKib.toNat + alignOf csd / 2) / alignOf csd) = product at *
  generalize wrap (lengthKib.toNat + alignOf csd / 2) % alignOf csd = remainder at *
  unfold wrap at hdiv
  omega

theorem byteOf_toNat (n shift : Nat) : (byteOf n shift).toNat = n / 2 ^ shift % 256 := by
  rw [byteOf, UInt8.toNat_ofNat']

/-- Three bytes hold a number of 24 bits. -/
theorem register_bytes {csd : ExtCsd} {first m : Nat} (hm : m < 16777216)
    (h₂ : csd (first + 2) = byteOf m 16) (h₁ : csd (first + 1) = byteOf m 8)
    (h₀ : csd first = byteOf m 0) : register csd first = m := by
  rw [register, h₂, h₁, h₀, byteOf_toNat, byteOf_toNat, byteOf_toNat]
  omega

theorem stages_register {csd : ExtCsd} {command : PartitionCommand}
    (hadmits : command.admits csd = true) {lengthKib : UInt32} {first : Nat}
    (hsize : command.size = some (lengthKib, first)) (hm : sizeMult csd lengthKib < 16777216) :
    register (applyWrites csd (command.stages csd)) first = sizeMult csd lengthKib := by
  cases command with
  | gpCreate lengthKib partition enhAttr extAttr =>
      cases hsize
      obtain ⟨h0, h4⟩ := admits_partition hadmits
      have hcases : partition = 0 ∨ partition = 1 ∨ partition = 2 ∨ partition = 3 ∨
          partition = 4 := by
        omega
      rcases hcases with rfl | rfl | rfl | rfl | rfl <;>
        exact register_bytes hm rfl rfl rfl
  | enhAreaSet startKib lengthKib =>
      cases hsize
      exact register_bytes hm rfl rfl rfl
  | writeReliabilitySet partition => cases hsize

/-- **Rounding.**  A command that gets to its division rounds the length as it should
if and only if the alignment is not zero and the sum in front of the division stays
below `2^32`. -/
theorem rounds_length_iff (csd : ExtCsd) (command : PartitionCommand) (lengthKib : UInt32)
    (first : Nat) (hsize : command.size = some (lengthKib, first)) :
    (command.passes csd = false ∨ RoundsLength csd command lengthKib first) ↔
      (command.passes csd = false ∨
        (alignOf csd ≠ 0 ∧ lengthKib.toNat + alignOf csd / 2 < 4294967296)) := by
  cases hpasses : command.passes csd with
  | false => simp
  | true =>
      simp only [Bool.true_eq_false, false_or]
      constructor
      · intro h
        exact ⟨h.divisor, (sizeMult_close_iff h.divisor lengthKib).mp h.close⟩
      · rintro ⟨hdivisor, hsum⟩
        have hadmits : command.admits csd = true := by
          simp [admits_eq_passes, hpasses, hdivisor]
        have hfits := sizeMult_lt hdivisor lengthKib
        exact ⟨hdivisor, hfits, (sizeMult_close_iff hdivisor lengthKib).mpr hsum,
          stages_register hadmits hsize hfits⟩

theorem rounds_length_sixteen_groups :
    RoundsLength freshDevice (.enhAreaSet 0 65536) 65536 140 := by
  have h := (rounds_length_iff freshDevice (.enhAreaSet 0 65536) 65536 140 rfl).mpr
    (Or.inr ⟨by decide, by decide⟩)
  exact h.resolve_left (by decide)

/-- The largest length is rounded down to nothing. -/
theorem rounds_length_wraps :
    ¬∀ (csd : ExtCsd) (command : PartitionCommand) (lengthKib : UInt32) (first : Nat),
      command.size = some (lengthKib, first) →
        command.passes csd = false ∨ RoundsLength csd command lengthKib first := by
  intro hall
  have hrounds := (hall freshDevice (.gpCreate 4294967295 1 0 0) 4294967295 143 rfl).resolve_left
    (by decide)
  have hclose := hrounds.close
  revert hclose
  decide

/-! ## The start of the enhanced area -/

/-- `ENH_START_ADDR`. -/
def enhStartRegister (csd : ExtCsd) : Nat :=
  16777216 * (csd 139).toNat + 65536 * (csd 138).toNat + 256 * (csd 137).toNat + (csd 136).toNat

/-- The offset in bytes that `do_read_extcsd` prints.  It prints it for the revisions 5 to 7
of the registers, `EXT_CSD_REV`; of a device of another revision it reports no start. -/
def reportedStart (csd : ExtCsd) : Nat :=
  wrap ((if isBlockaddresed csd then 1 else 512) * enhStartRegister csd)

/-- The start in bytes, rounded down to a multiple of the write-protect group. -/
def startOffset (csd : ExtCsd) (startKib : UInt32) : Nat :=
  1024 * startKib.toNat / (1024 * alignOf csd) * (1024 * alignOf csd)

/-- The write-protect group in units of 512 KiB. -/
def groupUnits (csd : ExtCsd) : Nat :=
  getHcWpGrpSize csd * getHcEraseGrpSize csd

/-- The starts that are reported as they should be.  On a device that is addressed
in sectors only zero is, from a start in the first group whose sector number is below
the alignment.  On one that is addressed in bytes the offset is 512 times too large,
which may not show modulo `2^32`. -/
def StartReported (csd : ExtCsd) (startKib : UInt32) : Prop :=
  if isBlockaddresed csd then
    startKib.toNat < alignOf csd ∧ 2 * (startKib.toNat % 4194304) < alignOf csd
  else
    16384 ∣ groupUnits csd * (2 * startKib.toNat / groupUnits csd -
      2 * (startKib.toNat / (512 * groupUnits csd)))

theorem alignOf_eq (csd : ExtCsd) : alignOf csd = 512 * groupUnits csd :=
  Nat.mul_assoc _ _ _

theorem startOffset_eq (csd : ExtCsd) (startKib : UInt32) :
    startOffset csd startKib = startKib.toNat / alignOf csd * (1024 * alignOf csd) := by
  rw [startOffset, Nat.mul_div_mul_left _ _ (by decide)]

theorem enhStartRegister_bytes {csd : ExtCsd} {addr : Nat} (haddr : addr < 4294967296)
    (h₃ : csd 139 = byteOf addr 24) (h₂ : csd 138 = byteOf addr 16)
    (h₁ : csd 137 = byteOf addr 8) (h₀ : csd 136 = byteOf addr 0) :
    enhStartRegister csd = addr := by
  rw [enhStartRegister, h₃, h₂, h₁, h₀, byteOf_toNat, byteOf_toNat, byteOf_toNat, byteOf_toNat]
  omega

/-- A call that comes to its end has written all its bytes. -/
theorem staged_of_finishes {call : PartitionCall} {csd : ExtCsd}
    (h : call.finishes csd = true) : call.staged csd = call.command.stages csd := by
  simp only [PartitionCall.finishes, Bool.and_eq_true, decide_eq_true_eq] at h
  obtain ⟨⟨⟨⟨hopens, hreads⟩, hadmits⟩, hlength⟩, _⟩ := h
  have hruns : (call.env.opens && call.env.reads && call.command.admits csd) = true := by
    simp [hopens, hreads, hadmits]
  unfold PartitionCall.staged at hlength ⊢
  rw [if_pos hruns] at hlength ⊢
  unfold Environment.performed at hlength ⊢
  cases hfailing : call.env.failing with
  | none => rfl
  | some k =>
      rw [hfailing] at hlength
      have hmin : min k (call.command.stages csd).length = (call.command.stages csd).length := by
        simpa using hlength
      exact List.take_of_length_le (by omega)

/-- What the registers hold behind a successful `enh_area set`. -/
theorem enhStartRegister_partition {call : PartitionCall} {csd : ExtCsd}
    {startKib lengthKib : UInt32} (hcommand : call.command = .enhAreaSet startKib lengthKib)
    (h : call.finishes csd = true) :
    enhStartRegister (partition csd call) = enhStartAddr csd startKib ∧
      isBlockaddresed (partition csd call) = isBlockaddresed csd := by
  have haddr : enhStartAddr csd startKib < 4294967296 := Nat.mod_lt _ (by decide)
  rw [partition, PartitionCall.writes, staged_of_finishes h, hcommand]
  split
  · exact ⟨enhStartRegister_bytes haddr rfl rfl rfl rfl, rfl⟩
  · exact ⟨enhStartRegister_bytes haddr rfl rfl rfl rfl, rfl⟩

theorem mul_wrap_start (startKib : UInt32) :
    wrap (startKib.toNat * 1024) = 1024 * (startKib.toNat % 4194304) := by
  unfold wrap
  omega

/-- Rounding down to a multiple. -/
theorem div_mul_bounds (n : Nat) {a : Nat} (ha : 0 < a) :
    n / a * a ≤ n ∧ n < n / a * a + a := by
  have hdiv := Nat.div_add_mod n a
  have hrem := Nat.mod_lt n ha
  rw [Nat.mul_comm] at hdiv
  omega

/-- Addressed in sectors: the number of sectors is printed as if it were bytes. -/
theorem reported_blocks_iff {csd : ExtCsd} (hblocks : isBlockaddresed csd = true)
    (hdivisor : alignOf csd ≠ 0) (startKib : UInt32) :
    wrap (1 * enhStartAddr csd startKib) = startOffset csd startKib ↔
      StartReported csd startKib := by
  have hpos : 0 < alignOf csd := Nat.pos_of_ne_zero hdivisor
  have hsectors : wrap (startKib.toNat * 1024) / 512 = 2 * (startKib.toNat % 4194304) := by
    rw [mul_wrap_start]
    omega
  have hround := div_mul_bounds (2 * (startKib.toNat % 4194304)) hpos
  have hstart := div_mul_bounds startKib.toNat hpos
  have haddr : wrap (1 * enhStartAddr csd startKib) =
      2 * (startKib.toNat % 4194304) / alignOf csd * alignOf csd := by
    rw [enhStartAddr, if_pos hblocks, hsectors]
    unfold wrap
    omega
  rw [haddr, startOffset_eq, StartReported, if_pos hblocks]
  constructor
  · intro heq
    by_cases hfirst : startKib.toNat < alignOf csd
    · -- the true offset is zero, so the sectors must round down to zero as well
      rw [Nat.div_eq_of_lt hfirst, Nat.zero_mul] at heq
      exact ⟨hfirst, by omega⟩
    · -- the true offset is more than 512 times the start, the printed one at most twice
      have hproduct : startKib.toNat / alignOf csd * (1024 * alignOf csd) =
          1024 * (startKib.toNat / alignOf csd * alignOf csd) := by
        rw [Nat.mul_left_comm]
      have hone : 1 ≤ startKib.toNat / alignOf csd :=
        (Nat.one_le_div_iff hpos).mpr (by omega)
      have hgroup : alignOf csd ≤ startKib.toNat / alignOf csd * alignOf csd :=
        Nat.le_mul_of_pos_left _ hone
      have hmod := Nat.mod_le startKib.toNat 4194304
      omega
  · rintro ⟨hfirst, hsector⟩
    rw [Nat.div_eq_of_lt hfirst, Nat.div_eq_of_lt hsector, Nat.zero_mul, Nat.zero_mul]

/-- Addressed in bytes: the number of bytes is printed 512 times too large. -/
theorem reported_bytes_iff {csd : ExtCsd} (hblocks : isBlockaddresed csd = false)
    {startKib : UInt32} (hstart : startKib.toNat < getSectorCount csd / 2) :
    wrap (512 * enhStartAddr csd startKib) = startOffset csd startKib ↔
      StartReported csd startKib := by
  have hcapacity : getSectorCount csd ≤ 4194304 := by
    simpa [isBlockaddresed] using hblocks
  have hunwrapped : wrap (startKib.toNat * 1024) / 1 = 512 * (2 * startKib.toNat) := by
    unfold wrap
    omega
  -- both offsets in units of 2^18 bytes
  have hround : groupUnits csd * (2 * startKib.toNat / groupUnits csd) ≤ 2 * startKib.toNat :=
    Nat.mul_div_le _ _
  have haddr : enhStartAddr csd startKib =
      512 * (groupUnits csd * (2 * startKib.toNat / groupUnits csd)) := by
    rw [enhStartAddr, hblocks, if_neg Bool.false_ne_true, hunwrapped, alignOf_eq,
      Nat.mul_div_mul_left _ _ (by decide), Nat.mul_comm _ (512 * groupUnits csd), Nat.mul_assoc]
    unfold wrap
    omega
  have hoffset : startOffset csd startKib =
      524288 * (groupUnits csd * (startKib.toNat / (512 * groupUnits csd))) := by
    rw [startOffset_eq, alignOf_eq, Nat.mul_comm, ← Nat.mul_assoc 1024, Nat.mul_assoc (1024 * 512)]
  have hstarts : 512 * (groupUnits csd * (startKib.toNat / (512 * groupUnits csd))) ≤
      startKib.toNat := by
    rw [← Nat.mul_assoc]
    exact Nat.mul_div_le _ _
  have hle : 2 * (startKib.toNat / (512 * groupUnits csd)) ≤
      2 * startKib.toNat / groupUnits csd := by
    have hquot : 2 * startKib.toNat / groupUnits csd / 1024 =
        startKib.toNat / (512 * groupUnits csd) := by
      rw [Nat.div_div_eq_div_mul, Nat.mul_comm _ 1024,
        show 1024 * groupUnits csd = 2 * (512 * groupUnits csd) by omega,
        Nat.mul_div_mul_left _ _ (by decide)]
    omega
  have hproduct := Nat.mul_le_mul_left (groupUnits csd) hle
  rw [Nat.mul_left_comm] at hproduct
  rw [haddr, hoffset, StartReported, hblocks, if_neg Bool.false_ne_true, Nat.mul_sub,
    Nat.mul_left_comm _ 2]
  generalize groupUnits csd * (2 * startKib.toNat / groupUnits csd) = rounded at *
  generalize groupUnits csd * (startKib.toNat / (512 * groupUnits csd)) = groups at *
  unfold wrap
  omega

/-- **The start that is read back.**  After a successful `enh_area set` with a start
inside of the device, `extcsd read` reports it, rounded down to a group, in exactly the
cases of `StartReported`. -/
theorem start_reported_iff (csd : ExtCsd) (call : PartitionCall) (startKib lengthKib : UInt32)
    (hcommand : call.command = .enhAreaSet startKib lengthKib)
    (hfinishes : call.finishes csd = true) (hstart : startKib.toNat < getSectorCount csd / 2) :
    reportedStart (partition csd call) = startOffset csd startKib ↔
      StartReported csd startKib := by
  obtain ⟨hregister, hkind⟩ := enhStartRegister_partition hcommand hfinishes
  rw [reportedStart, hregister, hkind]
  cases hblocks : isBlockaddresed csd with
  | true =>
      have hdivisor : alignOf csd ≠ 0 :=
        alignOf_ne_zero (admits_of_finishes hfinishes) (by rw [hcommand]; rfl)
      exact reported_blocks_iff hblocks hdivisor startKib
  | false => exact reported_bytes_iff hblocks hstart

theorem start_reported_at_zero :
    (⟨true, .enhAreaSet 0 65536, working⟩ : PartitionCall).finishes freshDevice = true ∧
      reportedStart (partition freshDevice ⟨true, .enhAreaSet 0 65536, working⟩) =
        startOffset freshDevice 0 := by
  have hfinishes :
      (⟨true, .enhAreaSet 0 65536, working⟩ : PartitionCall).finishes freshDevice = true := by
    decide +kernel
  refine ⟨hfinishes, ?_⟩
  rw [start_reported_iff freshDevice ⟨true, .enhAreaSet 0 65536, working⟩ 0 65536 rfl hfinishes
    (by decide), StartReported, if_pos (by decide)]
  exact ⟨by decide, by decide⟩

/-- The second group of the device starts at 4 MiB; 8 KiB are reported. -/
theorem start_reported_in_sectors :
    ¬∀ (csd : ExtCsd) (call : PartitionCall) (startKib lengthKib : UInt32),
      call.command = .enhAreaSet startKib lengthKib → call.finishes csd = true →
        startKib.toNat < getSectorCount csd / 2 →
          reportedStart (partition csd call) = startOffset csd startKib := by
  intro hall
  have h := hall freshDevice ⟨true, .enhAreaSet 4096 65536, working⟩ 4096 65536 rfl
    (by decide +kernel) (by decide)
  revert h
  decide +kernel

end MmcUtils
