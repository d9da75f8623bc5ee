import Mathlib.Logic.Function.Basic
import Mathlib.Data.List.Basic
import Mathlib.Algebra.Group.Nat.Defs
import Mathlib.Algebra.Group.Int.Defs
import JsrD10f.Runs

/-!
# Partitioning an eMMC

Three commands of the `mmc` tool configure a device once and for all: they write
registers of the EXT_CSD and then the byte `PARTITION_SETTING_COMPLETED`, which
makes the configuration permanent with the next power cycle.  Without `-y` they
are said to be a dry run, which "will not take effect neither now nor after a
power cycle".

A dry run leaves out the last byte only.  What it wrote before stays until the
power cycle, and the next command with `-y` makes it permanent as well.  This
file says what has to hold for dry runs to leave nothing behind.

Numbers are those of a 32-bit machine.  A byte that is written successfully keeps
its value; the status that the device reports after the last byte is not read
back into any register and is left out.
-/

namespace MmcUtils

open Runs

/-- The bytes of the EXT_CSD by index. -/
abbrev ExtCsd := Nat → UInt8

/-- What the system answers while a command runs.  `failing` is the number of
writes before one that fails. -/
structure Environment where
  opens : Bool
  reads : Bool
  readsAgain : Bool
  failing : Option Nat
deriving DecidableEq, Repr

/-- The three commands with their numbers. -/
inductive PartitionCommand where
  | gpCreate (lengthKib : UInt32) (partition enhAttr extAttr : Int)
  | enhAreaSet (startKib lengthKib : UInt32)
  | writeReliabilitySet (partition : Int)
deriving DecidableEq, Repr

/-- An invocation; `yes` says that the first argument is `-y`. -/
structure PartitionCall where
  yes : Bool
  command : PartitionCommand
  env : Environment
deriving DecidableEq, Repr

def extCsdEraseGroupDef : Nat := 175
def extCsdPartitionSettingCompleted : Nat := 155

/-- A number below `2^32`. -/
def wrap (n : Nat) : Nat := n % 4294967296

def byteOf (n : Nat) (shift : Nat) : UInt8 := UInt8.ofNat (n / 2 ^ shift)

/-- `v << n` stored in a byte.  C leaves shifts by other numbers than 0 to 31
undefined; the shifter of the processor takes the lowest byte of `n` and moves
every bit out when that is 32 or more. -/
def shiftByte (v n : Int) : UInt8 :=
  if n % 256 < 32 then UInt8.ofNat (v * 2 ^ (n % 256).toNat % 256).toNat else 0

def getHcWpGrpSize (csd : ExtCsd) : Nat := (csd 221).toNat

def getHcEraseGrpSize (csd : ExtCsd) : Nat := (csd 224).toNat

def getSectorCount (csd : ExtCsd) : Nat :=
  16777216 * (csd 215).toNat + 65536 * (csd 214).toNat + 256 * (csd 213).toNat + (csd 212).toNat

def isBlockaddresed (csd : ExtCsd) : Bool :=
  2 * 1024 * 1024 * 1024 / 512 < getSectorCount csd

def alignOf (csd : ExtCsd) : Nat :=
  512 * getHcWpGrpSize csd * getHcEraseGrpSize csd

/-- A length in units of the alignment, rounded. -/
def sizeMult (csd : ExtCsd) (lengthKib : UInt32) : Nat :=
  wrap (lengthKib.toNat + alignOf csd / 2) / alignOf csd

def enhStartAddr (csd : ExtCsd) (startKib : UInt32) : Nat :=
  wrap (wrap (startKib.toNat * 1024) / (if isBlockaddresed csd then 512 else 1) /
    alignOf csd * alignOf csd)

/-- The value of the register `EXT_PARTITIONS_ATTRIBUTE` for a partition. -/
def extAttribute (value : UInt8) (partition extAttr : Int) : UInt8 :=
  if extAttr ≠ 0 then value ||| shiftByte extAttr (4 * (partition - 1).tmod 2)
  else value &&& shiftByte 0xF (4 * partition.tmod 2)

/-- What has to hold for the first write: the tests, and a divisor that is not zero.
A division by zero ends the process. -/
def PartitionCommand.admits (csd : ExtCsd) : PartitionCommand → Bool
  | .gpCreate _ partition enhAttr extAttr =>
      0 ≤ partition && partition ≤ 4 && !(enhAttr ≠ 0 && extAttr ≠ 0) &&
        csd extCsdPartitionSettingCompleted = 0 && alignOf csd ≠ 0
  | .enhAreaSet _ _ =>
      (csd 160 &&& 2) ≠ 0 && csd extCsdPartitionSettingCompleted = 0 && alignOf csd ≠ 0
  | .writeReliabilitySet _ =>
      csd extCsdPartitionSettingCompleted = 0 && (csd 166 &&& 1) ≠ 0

/-- The bytes that a command writes before the last one. -/
def PartitionCommand.stages (csd : ExtCsd) : PartitionCommand → List (Nat × UInt8)
  | .gpCreate lengthKib partition enhAttr extAttr =>
      let mult := sizeMult csd lengthKib
      let address := (52 + (partition - 1).tdiv 2).toNat
      let bit := shiftByte 1 partition
      [(extCsdEraseGroupDef, 1),
        ((145 + 3 * (partition - 1)).toNat, byteOf mult 16),
        ((144 + 3 * (partition - 1)).toNat, byteOf mult 8),
        ((143 + 3 * (partition - 1)).toNat, byteOf mult 0),
        (156, if enhAttr ≠ 0 then csd 156 ||| bit else csd 156 &&& ~~~bit),
        (address, extAttribute (csd address) partition extAttr)]
  | .enhAreaSet startKib lengthKib =>
      let addr := enhStartAddr csd startKib
      let mult := sizeMult csd lengthKib
      [(extCsdEraseGroupDef, 1), (139, byteOf addr 24), (138, byteOf addr 16),
        (137, byteOf addr 8), (136, byteOf addr 0), (142, byteOf mult 16), (141, byteOf mult 8),
        (140, byteOf mult 0), (156, csd 156 ||| 1)]
  | .writeReliabilitySet partition => [(167, csd 167 ||| shiftByte 1 partition)]

/-- A register of three bytes. -/
def register (csd : ExtCsd) (first : Nat) : Nat :=
  65536 * (csd (first + 2)).toNat + 256 * (csd (first + 1)).toNat + (csd first).toNat

/-- The size in KiB that such a register stands for. -/
def areaSize (csd : ExtCsd) (first : Nat) : Nat :=
  wrap (512 * register csd first * getHcEraseGrpSize csd * getHcWpGrpSize csd)

/-- `check_enhanced_area_total_limit`: whether the areas are too large. -/
def exceedsLimit (csd : ExtCsd) : Bool :=
  let enhanced (bit : UInt8) (first : Nat) : Nat :=
    if (csd 156 &&& bit) ≠ 0 then areaSize csd first else 0
  let enhArea := wrap (enhanced 16 152 + enhanced 8 149 + enhanced 4 146 + enhanced 2 143 +
    enhanced 1 140)
  let total := wrap (areaSize csd 152 + areaSize csd 149 + areaSize csd 146 + areaSize csd 143 +
    areaSize csd 140)
  areaSize csd 157 < enhArea || getSectorCount csd / 2 < total

def PartitionCommand.checksLimit : PartitionCommand → Bool
  | .writeReliabilitySet _ => false
  | _ => true

def applyWrites (csd : ExtCsd) : List (Nat × UInt8) → ExtCsd
  | [] => csd
  | (a, v) :: rest => applyWrites (Function.update csd a v) rest

/-- The writes that succeed. -/
def Environment.performed (env : Environment) (writes : List (Nat × UInt8)) :
    List (Nat × UInt8) :=
  match env.failing with
  | none => writes
  | some k => writes.take k

/-- More than `n` writes succeed. -/
def Environment.allows (env : Environment) (n : Nat) : Bool :=
  match env.failing with
  | none => true
  | some k => n < k

/-- The bytes that the call writes before the last one. -/
def PartitionCall.staged (call : PartitionCall) (csd : ExtCsd) : List (Nat × UInt8) :=
  if call.env.opens && call.env.reads && call.command.admits csd then
    call.env.performed (call.command.stages csd)
  else []

/-- The registers behind the staged writes. -/
def PartitionCall.stagedCsd (call : PartitionCall) (csd : ExtCsd) : ExtCsd :=
  applyWrites csd (call.staged csd)

/-- The call comes to `set_partitioning_setting_completed`. -/
def PartitionCall.finishes (call : PartitionCall) (csd : ExtCsd) : Bool :=
  call.env.opens && call.env.reads && call.command.admits csd &&
    (call.staged csd).length = (call.command.stages csd).length &&
    !(call.command.checksLimit &&
      (!call.env.readsAgain || exceedsLimit (call.stagedCsd csd)))

/-- The call sets `PARTITION_SETTING_COMPLETED`. -/
def PartitionCall.completes (call : PartitionCall) (csd : ExtCsd) : Bool :=
  call.finishes csd && call.yes && call.env.allows (call.command.stages csd).length

/-- All bytes that the call writes, in their order. -/
def PartitionCall.writes (call : PartitionCall) (csd : ExtCsd) : List (Nat × UInt8) :=
  call.staged csd ++ if call.completes csd then [(extCsdPartitionSettingCompleted, 1)] else []

/-- `do_create_gp_partition`, `do_enh_area_set` and `do_write_reliability_set`. -/
def partition (csd : ExtCsd) (call : PartitionCall) : ExtCsd :=
  applyWrites csd (call.writes csd)

/-- The registers after a sequence of invocations. -/
def partitionAll (csd : ExtCsd) (calls : List PartitionCall) : ExtCsd :=
  calls.foldl partition csd

/-- The registers that become permanent: `GP_SIZE_MULT`, `ENH_START_ADDR`,
`ENH_SIZE_MULT`, `PARTITIONS_ATTRIBUTE`, `EXT_PARTITIONS_ATTRIBUTE` and
`WR_REL_SET`. -/
def IsConfiguration (a : Nat) : Prop :=
  (136 ≤ a ∧ a ≤ 154) ∨ a = 156 ∨ a = 52 ∨ a = 53 ∨ a = 167

instance isConfigurationDecidable (a : Nat) : Decidable (IsConfiguration a) := by
  unfold IsConfiguration
  infer_instance

/-- A dry run asks for nothing that is not configured already. -/
def PartitionCall.Quiet (csd : ExtCsd) (call : PartitionCall) : Prop :=
  call.yes = false → ∀ w ∈ call.staged csd, IsConfiguration w.1 → csd w.1 = w.2

instance quietDecidable (csd : ExtCsd) (call : PartitionCall) : Decidable (call.Quiet csd) := by
  unfold PartitionCall.Quiet
  infer_instance

/-! ## Lists of writes -/

/-- Registers that agree on some bytes agree on them after the same writes. -/
theorem applyWrites_agree {P : Nat → Prop} {s t : ExtCsd} (h : ∀ a, P a → s a = t a)
    (ws : List (Nat × UInt8)) (a : Nat) (ha : P a) : applyWrites s ws a = applyWrites t ws a := by
  induction ws generalizing s t with
  | nil => exact h a ha
  | cons w ws ih =>
      apply ih
      intro b hb
      by_cases hw : b = w.1
      · subst hw
        simp
      · simp [Function.update_of_ne hw, h b hb]

/-- A byte keeps its value when every write to it writes that value. -/
theorem applyWrites_keep {s : ExtCsd} {a : Nat} {ws : List (Nat × UInt8)}
    (h : ∀ w ∈ ws, w.1 = a → s a = w.2) : applyWrites s ws a = s a := by
  induction ws generalizing s with
  | nil => rfl
  | cons w ws ih =>
      have hw : Function.update s w.1 w.2 a = s a := by
        by_cases ha : a = w.1
        · subst ha
          rw [Function.update_self, h w (by simp) rfl]
        · rw [Function.update_of_ne ha]
      have hrest : ∀ v ∈ ws, v.1 = a → Function.update s w.1 w.2 a = v.2 := by
        intro v hv ha
        rw [hw]
        exact h v (List.mem_cons_of_mem w hv) ha
      exact (ih hrest).trans hw

/-! ## Where a command writes -/

theorem mem_performed {env : Environment} {ws : List (Nat × UInt8)} {w : Nat × UInt8}
    (h : w ∈ env.performed ws) : w ∈ ws := by
  unfold Environment.performed at h
  split at h
  · exact h
  · exact List.mem_of_mem_take h

/-- The register of the extended attributes that a partition has. -/
theorem attribute_address {partition : Int} (h0 : 0 ≤ partition) (h4 : partition ≤ 4) :
    (52 + (partition - 1).tdiv 2).toNat = 52 ∨ (52 + (partition - 1).tdiv 2).toNat = 53 := by
  have hcases : partition = 0 ∨ partition = 1 ∨ partition = 2 ∨ partition = 3 ∨ partition = 4 := by
    omega
  rcases hcases with rfl | rfl | rfl | rfl | rfl <;> simp

theorem admits_partition {csd : ExtCsd} {lengthKib : UInt32} {partition enhAttr extAttr : Int}
    (h : (PartitionCommand.gpCreate lengthKib partition enhAttr extAttr).admits csd = true) :
    0 ≤ partition ∧ partition ≤ 4 := by
  simp only [PartitionCommand.admits, Bool.and_eq_true, decide_eq_true_eq] at h
  exact ⟨h.1.1.1.1, h.1.1.1.2⟩

/-- Before the last byte a command writes the erase group definition and
configuration registers only. -/
theorem stages_address {csd : ExtCsd} {command : PartitionCommand}
    (hadmits : command.admits csd = true) {w : Nat × UInt8} (h : w ∈ command.stages csd) :
    w.1 = extCsdEraseGroupDef ∨ IsConfiguration w.1 := by
  cases command with
  | gpCreate lengthKib partition enhAttr extAttr =>
      obtain ⟨h0, h4⟩ := admits_partition hadmits
      have haddress := attribute_address h0 h4
      simp only [PartitionCommand.stages, List.mem_cons, List.not_mem_nil, or_false] at h
      unfold IsConfiguration
      rcases h with rfl | rfl | rfl | rfl | rfl | rfl
      · exact .inl rfl
      all_goals right; dsimp only; omega
  | enhAreaSet startKib lengthKib =>
      simp only [PartitionCommand.stages, List.mem_cons, List.not_mem_nil, or_false] at h
      unfold IsConfiguration
      rcases h with rfl | rfl | rfl | rfl | rfl | rfl | rfl | rfl | rfl
      · exact .inl rfl
      all_goals right; dsimp only; omega
  | writeReliabilitySet partition =>
      simp only [PartitionCommand.stages, List.mem_cons, List.not_mem_nil, or_false] at h
      subst h
      right
      unfold IsConfiguration
      omega

theorem staged_address {csd : ExtCsd} {call : PartitionCall} {w : Nat × UInt8}
    (h : w ∈ call.staged csd) : w.1 = extCsdEraseGroupDef ∨ IsConfiguration w.1 := by
  unfold PartitionCall.staged at h
  split at h
  · rename_i hruns
    rw [Bool.and_eq_true] at hruns
    exact stages_address hruns.2 (mem_performed h)
  · cases h

theorem staged_ne_completed {csd : ExtCsd} {call : PartitionCall} {w : Nat × UInt8}
    (h : w ∈ call.staged csd) : w.1 ≠ extCsdPartitionSettingCompleted := by
  intro hw
  have haddress := staged_address h
  rw [hw] at haddress
  revert haddress
  decide

/-- A call without `-y` does not write the last byte. -/
theorem dry_run_writes {call : PartitionCall} (hdry : call.yes = false) (csd : ExtCsd) :
    call.writes csd = call.staged csd := by
  simp [PartitionCall.writes, PartitionCall.completes, hdry]

/-! ## The erase group definition is written only -/

/-- The registers agree but for the erase group definition. -/
def SameConfiguration (s t : ExtCsd) : Prop :=
  ∀ a, a ≠ extCsdEraseGroupDef → s a = t a

section Same

variable {s t : ExtCsd}

theorem alignOf_same (h : SameConfiguration s t) : alignOf s = alignOf t := by
  simp only [alignOf, getHcWpGrpSize, getHcEraseGrpSize, h 221 (by decide), h 224 (by decide)]

theorem getSectorCount_same (h : SameConfiguration s t) : getSectorCount s = getSectorCount t := by
  simp only [getSectorCount, h 212 (by decide), h 213 (by decide), h 214 (by decide),
    h 215 (by decide)]

theorem enhStartAddr_same (h : SameConfiguration s t) (startKib : UInt32) :
    enhStartAddr s startKib = enhStartAddr t startKib := by
  have hblocks : isBlockaddresed s = isBlockaddresed t := by
    unfold isBlockaddresed
    rw [getSectorCount_same h]
  unfold enhStartAddr
  rw [hblocks, alignOf_same h]

theorem admits_same (h : SameConfiguration s t) (command : PartitionCommand) :
    command.admits s = command.admits t := by
  cases command <;>
    simp only [PartitionCommand.admits, alignOf_same h, h extCsdPartitionSettingCompleted (by decide),
      h 160 (by decide), h 166 (by decide)]

theorem stages_same (h : SameConfiguration s t) {command : PartitionCommand}
    (hadmits : command.admits s = true) : command.stages s = command.stages t := by
  cases command with
  | gpCreate lengthKib partition enhAttr extAttr =>
      obtain ⟨h0, h4⟩ := admits_partition hadmits
      have haddress : (52 + (partition - 1).tdiv 2).toNat ≠ extCsdEraseGroupDef := by
        rcases attribute_address h0 h4 with ha | ha <;> rw [ha] <;> decide
      simp only [PartitionCommand.stages, sizeMult, alignOf_same h, h 156 (by decide),
        h _ haddress]
  | enhAreaSet startKib lengthKib =>
      simp only [PartitionCommand.stages, sizeMult, enhStartAddr_same h,
        alignOf_same h, h 156 (by decide)]
  | writeReliabilitySet partition =>
      simp only [PartitionCommand.stages, h 167 (by decide)]

theorem areaSize_same (h : SameConfiguration s t) {first : Nat} (hfirst : first < 173) :
    areaSize s first = areaSize t first := by
  have hbyte : ∀ a, a < 175 → s a = t a := by
    intro a ha
    apply h
    exact Nat.ne_of_lt ha
  simp only [areaSize, register, getHcWpGrpSize, getHcEraseGrpSize, h 221 (by decide),
    h 224 (by decide), hbyte first (by omega), hbyte (first + 1) (by omega),
    hbyte (first + 2) (by omega)]

theorem exceedsLimit_same (h : SameConfiguration s t) : exceedsLimit s = exceedsLimit t := by
  simp only [exceedsLimit, getSectorCount_same h, h 156 (by decide),
    areaSize_same h (show 140 < 173 by decide), areaSize_same h (show 143 < 173 by decide),
    areaSize_same h (show 146 < 173 by decide), areaSize_same h (show 149 < 173 by decide),
    areaSize_same h (show 152 < 173 by decide), areaSize_same h (show 157 < 173 by decide)]

theorem staged_same (h : SameConfiguration s t) (call : PartitionCall) :
    call.staged s = call.staged t := by
  unfold PartitionCall.staged
  rw [← admits_same h]
  split
  · rename_i hruns
    rw [Bool.and_eq_true] at hruns
    rw [stages_same h hruns.2]
  · rfl

theorem finishes_same (h : SameConfiguration s t) (call : PartitionCall) :
    call.finishes s = call.finishes t := by
  have hstaged : SameConfiguration (call.stagedCsd s) (call.stagedCsd t) := by
    intro a ha
    unfold PartitionCall.stagedCsd
    rw [staged_same h]
    exact applyWrites_agree h _ a ha
  unfold PartitionCall.finishes
  rw [exceedsLimit_same hstaged, staged_same h, ← admits_same h]
  cases hadmits : call.command.admits s with
  | false => simp
  | true => rw [stages_same h hadmits]

theorem completes_same (h : SameConfiguration s t) (call : PartitionCall) :
    call.completes s = call.completes t := by
  unfold PartitionCall.completes
  cases hadmits : call.command.admits s with
  | false =>
      have hfinishes : call.finishes s = false := by
        simp [PartitionCall.finishes, hadmits]
      rw [← finishes_same h, hfinishes]
      rfl
  | true => rw [finishes_same h, stages_same h hadmits]

/-- One invocation on two devices that differ in the erase group definition. -/
theorem partition_same (h : SameConfiguration s t) (call : PartitionCall) :
    SameConfiguration (partition s call) (partition t call) := by
  have hwrites : call.writes s = call.writes t := by
    unfold PartitionCall.writes
    rw [staged_same h, completes_same h]
  intro a ha
  unfold partition
  rw [hwrites]
  exact applyWrites_agree h _ a ha

/-- A dry run that asks for nothing new leaves nothing behind. -/
theorem partition_quiet {call : PartitionCall} (hquiet : call.Quiet s) (hdry : call.yes = false) :
    SameConfiguration (partition s call) s := by
  intro a ha
  unfold partition
  rw [dry_run_writes hdry]
  apply applyWrites_keep
  intro w hw hwa
  rcases staged_address hw with herase | hconfiguration
  · exact absurd (hwa.symm.trans herase) ha
  · rw [← hwa]
    exact hquiet hdry w hw hconfiguration

end Same

/-! ## Whole sequences -/

/-- One invocation as a step of a run. -/
def invoke (csd : ExtCsd) (call : PartitionCall) : Option ExtCsd :=
  some (partition csd call)

/-- The invocations with `-y`. -/
def confirmed (calls : List PartitionCall) : List PartitionCall :=
  calls.filter (fun call => call.yes)

/-- With quiet dry runs the device is configured as by the other invocations
alone. -/
theorem partitionAll_confirmed {s t : ExtCsd} {calls : List PartitionCall}
    (h : SameConfiguration s t)
    (hquiet : Along invoke (fun csd call => call.Quiet csd) s calls) :
    SameConfiguration (partitionAll s calls) (partitionAll t (confirmed calls)) := by
  induction calls generalizing s t with
  | nil => exact h
  | cons call calls ih =>
      have hrest := hquiet.2 (partition s call) rfl
      cases hyes : call.yes with
      | true =>
          have hconfirmed : confirmed (call :: calls) = call :: confirmed calls := by
            simp [confirmed, hyes]
          rw [hconfirmed]
          exact ih (partition_same h call) hrest
      | false =>
          have hconfirmed : confirmed (call :: calls) = confirmed calls := by
            simp [confirmed, hyes]
          rw [hconfirmed]
          apply ih _ hrest
          intro a ha
          rw [partition_quiet hquiet.1 hyes a ha]
          exact h a ha

/-- **Dry runs.**  Whatever came before, an invocation without `-y` does not write
`PARTITION_SETTING_COMPLETED`.  If the dry runs ask for nothing that is not
configured already, then the configuration that an invocation with `-y` makes
permanent is the one of the invocations with `-y` alone. -/
theorem dry_run_leaves_nothing (csd : ExtCsd) (earlier : List PartitionCall)
    (call : PartitionCall) :
    (call.yes = false →
      ∀ w ∈ call.writes (partitionAll csd earlier), w.1 ≠ extCsdPartitionSettingCompleted) ∧
    (Along invoke (fun csd call => call.Quiet csd) csd (earlier ++ [call]) →
      call.completes (partitionAll csd earlier) = true → ∀ a, IsConfiguration a →
        partitionAll csd (earlier ++ [call]) a =
          partitionAll csd (confirmed (earlier ++ [call])) a) := by
  constructor
  · intro hdry w hw
    rw [dry_run_writes hdry] at hw
    exact staged_ne_completed hw
  · intro hquiet _ a ha
    apply partitionAll_confirmed (fun _ _ => rfl) hquiet
    rintro rfl
    exact absurd ha (by decide)

/-- A device of 4 GB, with reliable writes on in the user area. -/
def freshDevice : ExtCsd := fun a =>
  if a = 215 then 0 else if a = 214 then 0x70 else if a = 221 then 1 else if a = 224 then 8
  else if a = 160 then 3 else if a = 166 then 1 else if a = 167 then 1
  else if a = 158 then 2 else 0

/-- Everything works. -/
def working : Environment where
  opens := true
  reads := true
  readsAgain := true
  failing := none

def sureCalls : List PartitionCall :=
  [⟨false, .writeReliabilitySet 0, working⟩, ⟨true, .enhAreaSet 0 65536, working⟩]

theorem dry_run_leaves_nothing_sureCalls :
    (⟨true, .enhAreaSet 0 65536, working⟩ : PartitionCall).completes
      (partitionAll freshDevice [⟨false, .writeReliabilitySet 0, working⟩]) = true ∧
    ∀ a, IsConfiguration a →
      partitionAll freshDevice sureCalls a = partitionAll freshDevice (confirmed sureCalls) a := by
  have hcompletes : (⟨true, .enhAreaSet 0 65536, working⟩ : PartitionCall).completes
      (partitionAll freshDevice [⟨false, .writeReliabilitySet 0, working⟩]) = true := by
    decide +kernel
  refine ⟨hcompletes, ?_⟩
  exact (dry_run_leaves_nothing freshDevice [⟨false, .writeReliabilitySet 0, working⟩]
    ⟨true, .enhAreaSet 0 65536, working⟩).2 (by decide +kernel) hcompletes

/-- The general purpose partition of a dry run becomes permanent with the next
command. -/
theorem dry_run_made_permanent :
    ¬∀ (csd : ExtCsd) (earlier : List PartitionCall) (call : PartitionCall),
      call.completes (partitionAll csd earlier) = true → ∀ a, IsConfiguration a →
        partitionAll csd (earlier ++ [call]) a =
          partitionAll csd (confirmed (earlier ++ [call])) a := by
  intro hall
  have h := hall freshDevice [⟨false, .gpCreate 65536 1 0 0, working⟩]
    ⟨true, .enhAreaSet 0 65536, working⟩ (by decide +kernel) 143 (by decide)
  revert h
  decide +kernel

end MmcUtils
