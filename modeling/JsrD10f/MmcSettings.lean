import JsrD10f.MmcNumbers

/-!
# Settings of an eMMC

Besides the partitioning commands and `extcsd write`, which sets any byte to any value,
the `mmc` tool has eight commands that set one byte of the EXT_CSD each: boot partition,
boot bus, write protection, reset pin, background operations, cache, sector size and
sanitizing.  Most of them read the registers first, look at what the device can do, and
keep the other bits of the byte.

`Settings` is what such a device is set to, in the terms of `extcsd read`.  Any sequence
of these eight and of the partitioning commands acts on the settings as one would expect
from their names, whichever of them fail (`settings_toolAll`).  They can set the reset pin
once (`hwreset_once`).  `extcsd write` looks at nothing and keeps nothing, so it has no part
in such a sequence.

A byte that is written successfully keeps its value, as in the partitioning commands;
`SANITIZE_START` is not read by any command.
-/

namespace MmcUtils

/-- The commands with their arguments as they are typed. -/
inductive SettingCommand where
  | writeprotectSet
  | disable512BEmulation
  | bootpartEnable (bootArea sendAck : List Char)
  | bootbusSet (bootMode resetConditions busWidth : List Char)
  | hwreset (enable : Bool)
  | bkopsEnable
  | cacheCtrl (enable : Bool)
  | sanitize
deriving DecidableEq, Repr

/-- What a command does behind its tests. -/
inductive Attempt where
  | refuse
  | nothing
  | write (index : Nat) (value : UInt8)
deriving DecidableEq, Repr

/-- What `do_write_boot_en` makes of `PARTITION_CONFIG` before the acknowledge bit. -/
def bootArea (value : UInt8) (area : Int) : Option UInt8 :=
  if area = 1 then some ((value ||| 0x08) &&& ~~~0x30)
  else if area = 2 then some (((value ||| 0x10) &&& ~~~0x08) &&& ~~~0x20)
  else if area = 7 then some (value ||| 0x38)
  else none

/-- The bit for `<send_ack>`. -/
def bootAck (value : UInt8) (sendAck : Int) : UInt8 :=
  if sendAck ≠ 0 then value ||| 0x40 else value &&& ~~~0x40

/-- The first of a few words. -/
def wordValue (table : List (String × UInt8)) (text : List Char) : Option UInt8 :=
  (table.find? fun entry => entry.1.toList = text).map Prod.snd

/-- What `do_boot_bus_conditions_set` writes. -/
def bootBus (bootMode resetConditions busWidth : List Char) : Option UInt8 := do
  let mode ← wordValue [("single_backward", 0), ("single_hs", 0x8), ("dual", 0x10)] bootMode
  let reset ← wordValue [("x1", 0), ("retain", 0x4)] resetConditions
  let width ← wordValue [("x1", 0), ("x4", 0x1), ("x8", 0x2)] busWidth
  some (mode ||| reset ||| width)

/-- `EXT_CSD_HW_RESET_EN` or `EXT_CSD_HW_RESET_DIS`. -/
def hwResetValue (enable : Bool) : UInt8 := if enable then 1 else 2

/-- The value of `CACHE_CTRL`. -/
def cacheValue (enable : Bool) : UInt8 := if enable then 1 else 0

/-- The tests of a command on what it has read. -/
def SettingCommand.attempt (csd : ExtCsd) : SettingCommand → Attempt
  | .writeprotectSet => .write 173 (csd 173 ||| 1)
  | .disable512BEmulation =>
      if csd 63 ≠ 0 ∧ csd 61 = 0 ∧ csd 166 &&& 4 ≠ 0 then .write 62 1 else .nothing
  | .bootpartEnable area sendAck =>
      match bootArea (csd 179) (strtol 10 area) with
      | none => .refuse
      | some value => .write 179 (bootAck value (strtol 10 sendAck))
  | .bootbusSet bootMode resetConditions busWidth =>
      match bootBus bootMode resetConditions busWidth with
      | none => .refuse
      | some value => .write 177 value
  | .hwreset enable =>
      if csd 162 &&& 3 = 1 then .refuse
      else if csd 162 &&& 3 = 2 then .refuse
      else .write 162 (hwResetValue enable)
  | .bkopsEnable => if csd 502 &&& 1 = 0 then .refuse else .write 163 1
  | .cacheCtrl enable =>
      if csd 192 < 6 then .refuse
      else if csd 252 = 0 ∧ csd 251 = 0 ∧ csd 250 = 0 ∧ csd 249 = 0 then .refuse
      else .write 33 (cacheValue enable)
  | .sanitize => .write 165 1

/-- Only `do_sanitize` does not read the registers. -/
def SettingCommand.readsCsd : SettingCommand → Bool
  | .sanitize => false
  | _ => true

/-- An invocation.  The fields say whether the device opens, its registers can be read, and
the write succeeds. -/
structure SettingCall where
  command : SettingCommand
  opens : Bool
  reads : Bool
  writes : Bool
deriving DecidableEq, Repr

/-- How the command ends, and the registers behind it. -/
def SettingCall.run (call : SettingCall) (csd : ExtCsd) : Ending × ExtCsd :=
  if !call.opens then (.exit 1, csd)
  else if call.command.readsCsd && !call.reads then (.exit 1, csd)
  else
    match call.command.attempt csd with
    | .refuse => (.exit 1, csd)
    | .nothing => (.exit 0, csd)
    | .write index value =>
        if call.writes then (.exit 0, Function.update csd index value) else (.exit 1, csd)

def doWriteprotectSet := SettingCall.mk .writeprotectSet
def doDisable512BEmulation := SettingCall.mk .disable512BEmulation
def doWriteBootEn (bootArea sendAck : List Char) := SettingCall.mk (.bootpartEnable bootArea sendAck)
def doBootBusConditionsSet (bootMode resetConditions busWidth : List Char) :=
  SettingCall.mk (.bootbusSet bootMode resetConditions busWidth)
def doHwresetEn := SettingCall.mk (.hwreset true)
def doHwresetDis := SettingCall.mk (.hwreset false)
def doWriteBkopsEn := SettingCall.mk .bkopsEnable
def doCacheEn := SettingCall.mk (.cacheCtrl true)
def doCacheDis := SettingCall.mk (.cacheCtrl false)
def doSanitize := SettingCall.mk .sanitize

/-- A command that sets one of the settings, or a partitioning command. -/
inductive ToolCall where
  | setting (call : SettingCall)
  | partitioning (call : PartitionCall)

def ToolCall.step (csd : ExtCsd) : ToolCall → ExtCsd
  | .setting call => (call.run csd).2
  | .partitioning call => partition csd call

/-- The registers after a sequence of commands. -/
def toolAll (csd : ExtCsd) (calls : List ToolCall) : ExtCsd :=
  calls.foldl ToolCall.step csd

/-! ## Settings -/

/-- What a device is set to. -/
structure Settings where
  /-- The boot partition: 0 for none, 1 and 2, 7 for the user area. -/
  bootArea : Nat
  sendAck : Bool
  /-- The partition that is accessed. -/
  access : Nat
  bootBus : UInt8
  protectedUntilPowerOn : Bool
  nativeSector : UInt8
  hwReset : Nat
  bkops : UInt8
  cache : UInt8
deriving DecidableEq, Repr

/-- What a device can do.  No command changes these registers. -/
structure Abilities where
  leavesEmulation : Bool
  bkops : Bool
  cache : Bool
deriving DecidableEq, Repr

/-- The boot partition of `PARTITION_CONFIG`, as `do_read_extcsd` takes it apart. -/
def configArea (reg : UInt8) : Nat := ((reg &&& 0x38) >>> 3).toNat
def configAck (reg : UInt8) : Bool := reg &&& 0x40 ≠ 0
def configAccess (reg : UInt8) : Nat := (reg &&& 0x07).toNat

def settings (csd : ExtCsd) : Settings where
  bootArea := configArea (csd 179)
  sendAck := configAck (csd 179)
  access := configAccess (csd 179)
  bootBus := csd 177
  protectedUntilPowerOn := csd 173 &&& 1 ≠ 0
  nativeSector := csd 62
  hwReset := (csd 162 &&& 3).toNat
  bkops := csd 163
  cache := csd 33

def abilities (csd : ExtCsd) : Abilities where
  leavesEmulation := csd 63 ≠ 0 ∧ csd 61 = 0 ∧ csd 166 &&& 4 ≠ 0
  bkops := csd 502 &&& 1 ≠ 0
  cache := 6 ≤ csd 192 ∧ ¬(csd 252 = 0 ∧ csd 251 = 0 ∧ csd 250 = 0 ∧ csd 249 = 0)

/-- What a command that can talk to the device is for.  There is no result if the command
has to refuse. -/
def SettingCommand.apply (able : Abilities) (s : Settings) : SettingCommand → Option Settings
  | .writeprotectSet => some { s with protectedUntilPowerOn := true }
  | .disable512BEmulation =>
      some (if able.leavesEmulation then { s with nativeSector := 1 } else s)
  | .bootpartEnable area sendAck =>
      if strtol 10 area = 1 ∨ strtol 10 area = 2 ∨ strtol 10 area = 7 then
        some { s with bootArea := (strtol 10 area).toNat, sendAck := strtol 10 sendAck ≠ 0 }
      else none
  | .bootbusSet bootMode resetConditions busWidth =>
      (bootBus bootMode resetConditions busWidth).map fun value => { s with bootBus := value }
  | .hwreset enable =>
      if s.hwReset = 1 ∨ s.hwReset = 2 then none
      else some { s with hwReset := (hwResetValue enable).toNat }
  | .bkopsEnable => if able.bkops then some { s with bkops := 1 } else none
  | .cacheCtrl enable => if able.cache then some { s with cache := cacheValue enable } else none
  | .sanitize => some s

/-- A command on the level of settings: it ends with 0 or changes nothing. -/
def SettingCall.apply (able : Abilities) (s : Settings) (call : SettingCall) : Ending × Settings :=
  if !call.opens || (call.command.readsCsd && !call.reads) then (.exit 1, s)
  else
    match call.command.apply able s with
    | none => (.exit 1, s)
    | some t =>
        if call.writes || (call.command = .disable512BEmulation && !able.leavesEmulation) then
          (.exit 0, t)
        else (.exit 1, s)

def ToolCall.apply (able : Abilities) (s : Settings) : ToolCall → Settings
  | .setting call => (call.apply able s).2
  | .partitioning _ => s

/-! ## The bits of `PARTITION_CONFIG` -/

/-- The boot partition is set, the partition that is accessed stays. -/
theorem config_bootArea {v v' : UInt8} {area : Int} (h : bootArea v area = some v') :
    (area = 1 ∨ area = 2 ∨ area = 7) ∧ configArea v' = area.toNat ∧
      configAccess v' = configAccess v := by
  have hbits : ∀ v : UInt8,
      (configArea ((v ||| 0x08) &&& ~~~0x30) = 1 ∧
        configAccess ((v ||| 0x08) &&& ~~~0x30) = configAccess v) ∧
      (configArea (((v ||| 0x10) &&& ~~~0x08) &&& ~~~0x20) = 2 ∧
        configAccess (((v ||| 0x10) &&& ~~~0x08) &&& ~~~0x20) = configAccess v) ∧
      configArea (v ||| 0x38) = 7 ∧ configAccess (v ||| 0x38) = configAccess v := by
    rintro ⟨v⟩
    revert v
    decide +kernel
  obtain ⟨h₁, h₂, h₇⟩ := hbits v
  unfold bootArea at h
  split at h
  · rename_i harea
    cases h
    exact ⟨Or.inl harea, by rw [harea]; exact h₁.1, h₁.2⟩
  · split at h
    · rename_i harea
      cases h
      exact ⟨Or.inr (Or.inl harea), by rw [harea]; exact h₂.1, h₂.2⟩
    · split at h
      · rename_i harea
        cases h
        exact ⟨Or.inr (Or.inr harea), by rw [harea]; exact h₇.1, h₇.2⟩
      · cases h

theorem bootArea_eq_none {v : UInt8} {area : Int} (h : bootArea v area = none) :
    ¬(area = 1 ∨ area = 2 ∨ area = 7) := by
  unfold bootArea at h
  split at h
  · cases h
  · split at h
    · cases h
    · split at h
      · cases h
      · rename_i h₁ h₂ h₇
        rintro (harea | harea | harea) <;> contradiction

/-- The acknowledge bit is set or cleared, and nothing else. -/
theorem config_bootAck (v : UInt8) (sendAck : Int) :
    configArea (bootAck v sendAck) = configArea v ∧
      configAccess (bootAck v sendAck) = configAccess v ∧
      configAck (bootAck v sendAck) = decide (sendAck ≠ 0) := by
  have hbits : ∀ v : UInt8,
      (configArea (v ||| 0x40) = configArea v ∧ configAccess (v ||| 0x40) = configAccess v ∧
        configAck (v ||| 0x40) = true) ∧
      configArea (v &&& ~~~0x40) = configArea v ∧
        configAccess (v &&& ~~~0x40) = configAccess v ∧ configAck (v &&& ~~~0x40) = false := by
    rintro ⟨v⟩
    revert v
    decide +kernel
  obtain ⟨hset, hclear⟩ := hbits v
  unfold bootAck
  split
  · rename_i hack
    rwa [decide_eq_true hack]
  · rename_i hack
    rwa [decide_eq_false hack]

/-! ## One command -/

/-- What an attempt says about the settings. -/
def Attempt.Means (csd : ExtCsd) (command : SettingCommand) : Attempt → Prop
  | .refuse => command.apply (abilities csd) (settings csd) = none
  | .nothing => command.apply (abilities csd) (settings csd) = some (settings csd) ∧
      command = .disable512BEmulation ∧ (abilities csd).leavesEmulation = false
  | .write index value =>
      command.apply (abilities csd) (settings csd) =
          some (settings (Function.update csd index value)) ∧
        abilities (Function.update csd index value) = abilities csd ∧
        (command = .disable512BEmulation → (abilities csd).leavesEmulation = true)

theorem attempt_means (csd : ExtCsd) (command : SettingCommand) :
    (command.attempt csd).Means csd command := by
  cases command with
  | writeprotectSet =>
      have hbit : ∀ v : UInt8, (v ||| 1) &&& 1 ≠ 0 := by
        rintro ⟨v⟩
        revert v
        decide +kernel
      exact ⟨by simp [SettingCommand.apply, settings, hbit], rfl, nofun⟩
  | disable512BEmulation =>
      rw [SettingCommand.attempt]
      split
      · rename_i hable
        have hleaves : (abilities csd).leavesEmulation = true := decide_eq_true hable
        exact ⟨by simp [SettingCommand.apply, hleaves, settings], rfl, fun _ => hleaves⟩
      · rename_i hable
        have hleaves : (abilities csd).leavesEmulation = false := decide_eq_false hable
        exact ⟨by simp [SettingCommand.apply, hleaves], rfl, hleaves⟩
  | bootpartEnable area sendAck =>
      rw [SettingCommand.attempt]
      split
      · rename_i harea
        exact if_neg (bootArea_eq_none harea)
      · rename_i value harea
        obtain ⟨hcases, hvalue, haccess⟩ := config_bootArea harea
        obtain ⟨hkeep, hkeep', hack⟩ := config_bootAck value (strtol 10 sendAck)
        refine ⟨?_, rfl, nofun⟩
        simp [SettingCommand.apply, hcases, settings, hkeep, hkeep', hack, hvalue, haccess]
  | bootbusSet bootMode resetConditions busWidth =>
      rw [SettingCommand.attempt]
      split
      · rename_i hnone
        simp [Attempt.Means, SettingCommand.apply, hnone]
      · rename_i value hvalue
        exact ⟨by simp [SettingCommand.apply, hvalue, settings], rfl, nofun⟩
  | hwreset enable =>
      rw [SettingCommand.attempt]
      split
      · rename_i hset
        exact if_pos (Or.inl (by rw [settings, hset]; rfl))
      · rename_i hne
        split
        · rename_i hset
          exact if_pos (Or.inr (by rw [settings, hset]; rfl))
        · rename_i hne'
          have hfree : ¬((settings csd).hwReset = 1 ∨ (settings csd).hwReset = 2) := by
            rintro (h | h)
            · exact hne (UInt8.toNat_inj.mp h)
            · exact hne' (UInt8.toNat_inj.mp h)
          have hvalue : (hwResetValue enable &&& 3).toNat = (hwResetValue enable).toNat := by
            cases enable <;> rfl
          refine ⟨?_, rfl, nofun⟩
          rw [SettingCommand.apply, if_neg hfree]
          simp [settings, hvalue]
  | bkopsEnable =>
      rw [SettingCommand.attempt]
      split
      · rename_i hbit
        simp [Attempt.Means, SettingCommand.apply, abilities, hbit]
      · rename_i hbit
        exact ⟨by simp [SettingCommand.apply, abilities, settings, hbit], rfl, nofun⟩
  | cacheCtrl enable =>
      rw [SettingCommand.attempt]
      split
      · rename_i hrev
        simp [Attempt.Means, SettingCommand.apply, abilities, UInt8.not_le.mpr hrev]
      · rename_i hrev
        split
        · rename_i hsize
          simp [Attempt.Means, SettingCommand.apply, abilities, hsize]
        · rename_i hsize
          have hable : (abilities csd).cache = true :=
            decide_eq_true ⟨UInt8.not_lt.mp hrev, hsize⟩
          exact ⟨by simp [SettingCommand.apply, hable, settings], rfl, nofun⟩
  | sanitize => exact ⟨rfl, rfl, nofun⟩

/-- **One command.**  It ends as its counterpart on the settings and leaves its result;
what the device can do stays. -/
theorem settings_run (call : SettingCall) (csd : ExtCsd) :
    ((call.run csd).1, settings (call.run csd).2) =
        call.apply (abilities csd) (settings csd) ∧
      abilities (call.run csd).2 = abilities csd := by
  have hmeans := attempt_means csd call.command
  unfold SettingCall.run SettingCall.apply
  cases hopens : call.opens with
  | false => exact ⟨rfl, rfl⟩
  | true =>
      cases hreads : call.command.readsCsd && !call.reads with
      | true => exact ⟨rfl, rfl⟩
      | false =>
          simp only [Bool.not_true, Bool.or_false, Bool.false_eq_true, if_false]
          cases hattempt : call.command.attempt csd with
          | refuse =>
              rw [hattempt] at hmeans
              exact ⟨by rw [show _ = none from hmeans], rfl⟩
          | nothing =>
              rw [hattempt] at hmeans
              obtain ⟨happly, hcommand, hleaves⟩ := hmeans
              rw [hcommand] at happly
              simp [happly, hcommand, hleaves]
          | write index value =>
              rw [hattempt] at hmeans
              obtain ⟨happly, hable, hleaves⟩ := hmeans
              have hcond : (call.command = .disable512BEmulation &&
                  !(abilities csd).leavesEmulation) = false := by
                by_cases hcommand : call.command = .disable512BEmulation
                · simp [hleaves hcommand]
                · simp [hcommand]
              cases hwrites : call.writes with
              | true => simp [happly, hable]
              | false => simp [happly, hcond]

/-! ## Partitioning commands -/

/-- The registers with settings and abilities. -/
def IsSetting (a : Nat) : Prop :=
  a ∈ [179, 177, 173, 62, 162, 163, 33, 63, 61, 166, 502, 192, 252, 251, 250, 249]

/-- A partitioning command writes other registers. -/
theorem partition_keeps (csd : ExtCsd) (call : PartitionCall) {a : Nat} (ha : IsSetting a) :
    partition csd call a = csd a := by
  have hother : ∀ a, IsSetting a → a ≠ extCsdEraseGroupDef ∧ ¬IsConfiguration a ∧
      a ≠ extCsdPartitionSettingCompleted := by
    unfold IsSetting
    decide
  obtain ⟨hdef, hconfiguration, hcompleted⟩ := hother a ha
  refine applyWrites_keep fun w hw hwa => ?_
  subst hwa
  rw [PartitionCall.writes, List.mem_append] at hw
  rcases hw with hstaged | hlast
  · rcases staged_address hstaged with h | h
    · exact absurd h hdef
    · exact absurd h hconfiguration
  · split at hlast
    · rw [List.mem_singleton] at hlast
      rw [hlast] at hcompleted
      exact absurd rfl hcompleted
    · cases hlast

theorem settings_congr {s t : ExtCsd} (h : ∀ a, IsSetting a → s a = t a) :
    settings s = settings t ∧ abilities s = abilities t := by
  have hget : ∀ a, a ∈ [179, 177, 173, 62, 162, 163, 33, 63, 61, 166, 502, 192, 252, 251, 250,
      249] → s a = t a := h
  constructor
  · simp only [settings, hget 179 (by decide), hget 177 (by decide), hget 173 (by decide),
      hget 62 (by decide), hget 162 (by decide), hget 163 (by decide), hget 33 (by decide)]
  · simp only [abilities, hget 63 (by decide), hget 61 (by decide), hget 166 (by decide),
      hget 502 (by decide), hget 192 (by decide), hget 252 (by decide), hget 251 (by decide),
      hget 250 (by decide), hget 249 (by decide)]

/-! ## Sequences of commands -/

theorem settings_step (csd : ExtCsd) (call : ToolCall) :
    settings (call.step csd) = call.apply (abilities csd) (settings csd) ∧
      abilities (call.step csd) = abilities csd := by
  cases call with
  | setting call =>
      obtain ⟨hrun, hable⟩ := settings_run call csd
      exact ⟨by rw [ToolCall.apply, ← hrun, ToolCall.step], hable⟩
  | partitioning call =>
      exact settings_congr fun a ha => partition_keeps csd call ha

/-- **Any sequence of setting and partitioning commands.**  Whatever succeeds or fails on
the way, the settings afterwards are those that the commands, one by one, are for, and the
abilities are the old ones. -/
theorem settings_toolAll (csd : ExtCsd) (calls : List ToolCall) :
    settings (toolAll csd calls) = calls.foldl (ToolCall.apply (abilities csd)) (settings csd) ∧
      abilities (toolAll csd calls) = abilities csd := by
  induction calls generalizing csd with
  | nil => exact ⟨rfl, rfl⟩
  | cons call calls ih =>
      obtain ⟨hsettings, hable⟩ := settings_step csd call
      obtain ⟨hrest, hrest'⟩ := ih (call.step csd)
      rw [hable] at hrest hrest'
      rw [hsettings] at hrest
      exact ⟨hrest, hrest'⟩

/-! ## The exit status -/

/-- What a command asks for. -/
def SettingCommand.InPlace (s : Settings) : SettingCommand → Prop
  | .writeprotectSet => s.protectedUntilPowerOn = true
  | .disable512BEmulation => s.nativeSector = 1
  | .bootpartEnable area sendAck =>
      (s.bootArea : Int) = strtol 10 area ∧ s.sendAck = decide (strtol 10 sendAck ≠ 0)
  | .bootbusSet bootMode resetConditions busWidth =>
      bootBus bootMode resetConditions busWidth = some s.bootBus
  | .hwreset enable => s.hwReset = (hwResetValue enable).toNat
  | .bkopsEnable => s.bkops = 1
  | .cacheCtrl enable => s.cache = cacheValue enable
  | .sanitize => True

theorem apply_inPlace {able : Abilities} {s t : Settings} {command : SettingCommand}
    (h : command.apply able s = some t) :
    command.InPlace t ∨ (command = .disable512BEmulation ∧ able.leavesEmulation = false) := by
  cases command with
  | writeprotectSet =>
      cases h
      exact Or.inl rfl
  | disable512BEmulation =>
      cases hable : able.leavesEmulation with
      | false => exact Or.inr ⟨rfl, rfl⟩
      | true =>
          rw [SettingCommand.apply, hable] at h
          cases h
          exact Or.inl rfl
  | bootpartEnable area sendAck =>
      rw [SettingCommand.apply] at h
      split at h
      · rename_i harea
        cases h
        refine Or.inl ⟨?_, rfl⟩
        change ((strtol 10 area).toNat : Int) = strtol 10 area
        omega
      · cases h
  | bootbusSet bootMode resetConditions busWidth =>
      obtain ⟨value, hvalue, rfl⟩ := Option.map_eq_some_iff.mp h
      exact Or.inl hvalue
  | hwreset enable =>
      rw [SettingCommand.apply] at h
      split at h
      · cases h
      · cases h
        exact Or.inl rfl
  | bkopsEnable =>
      rw [SettingCommand.apply] at h
      split at h
      · cases h
        exact Or.inl rfl
      · cases h
  | cacheCtrl enable =>
      rw [SettingCommand.apply] at h
      split at h
      · cases h
        exact Or.inl rfl
      · cases h
  | sanitize => exact Or.inl trivial

/-- The registers of a command that does not exit with 0. -/
theorem run_failed {call : SettingCall} {csd : ExtCsd} (h : (call.run csd).1 ≠ .exit 0) :
    (call.run csd).2 = csd := by
  unfold SettingCall.run at h ⊢
  split
  · rfl
  · split
    · rfl
    · split
      · rfl
      · rfl
      · split
        · rename_i hattempt hwrites
          simp_all
        · rfl

/-- **Status 0 means done.**  A command that exits with 0 has put in place what it was asked
for, but for `disable 512B emulation` on a device that cannot do it; any other command
has left all registers alone. -/
theorem exit_zero_inPlace (call : SettingCall) (csd : ExtCsd) :
    ((call.run csd).1 = .exit 0 →
      call.command.InPlace (settings (call.run csd).2) ∨
        (call.command = .disable512BEmulation ∧ (abilities csd).leavesEmulation = false)) ∧
    ((call.run csd).1 ≠ .exit 0 → (call.run csd).2 = csd) := by
  refine ⟨fun hzero => ?_, run_failed⟩
  have hrun := (settings_run call csd).1
  rw [hzero, SettingCall.apply] at hrun
  split at hrun
  · cases hrun
  · split at hrun
    · cases hrun
    · rename_i t happly
      split at hrun
      · rw [(Prod.mk.inj hrun).2]
        exact apply_inPlace happly
      · cases hrun

/-! ## The reset pin -/

/-- The value that a command would write. -/
def SettingCommand.resetValue : SettingCommand → Option UInt8
  | .hwreset enable => some (hwResetValue enable)
  | _ => none

/-- The same of an invocation, if it can talk to the device. -/
def ToolCall.resetValue : ToolCall → Option UInt8
  | .setting call =>
      if call.opens && call.reads && call.writes then call.command.resetValue else none
  | .partitioning _ => none

/-- `RST_N_FUNCTION` is permanently enabled or disabled. -/
def Decided (v : UInt8) : Prop := v &&& 3 = 1 ∨ v &&& 3 = 2

instance decidedDecidable (v : UInt8) : Decidable (Decided v) := by
  unfold Decided
  infer_instance

/-- Only `hwreset` writes the register. -/
theorem attempt_index {csd : ExtCsd} {command : SettingCommand} {value : UInt8}
    (h : command.attempt csd = .write 162 value) : ∃ enable, command = .hwreset enable := by
  cases command with
  | hwreset enable => exact ⟨enable, rfl⟩
  | writeprotectSet | sanitize => cases h
  | disable512BEmulation | bootpartEnable _ _ | bootbusSet _ _ _ | bkopsEnable =>
      rw [SettingCommand.attempt] at h
      split at h <;> cases h
  | cacheCtrl enable =>
      rw [SettingCommand.attempt] at h
      split at h
      · cases h
      · split at h <;> cases h

theorem run_keeps {call : SettingCall} (hcommand : ∀ enable, call.command ≠ .hwreset enable)
    (csd : ExtCsd) : (call.run csd).2 162 = csd 162 := by
  unfold SettingCall.run
  split
  · rfl
  · split
    · rfl
    · split
      · rfl
      · rfl
      · rename_i index value hattempt
        have hindex : index ≠ 162 := by
          rintro rfl
          obtain ⟨enable, hreset⟩ := attempt_index hattempt
          exact hcommand enable hreset
        split
        · exact Function.update_of_ne hindex.symm value csd
        · rfl

theorem run_hwreset {call : SettingCall} {enable : Bool} (hcommand : call.command = .hwreset enable)
    (csd : ExtCsd) :
    (call.run csd).2 162 =
      if Decided (csd 162) then csd 162
      else if call.opens && call.reads && call.writes then hwResetValue enable else csd 162 := by
  have hreads : call.command.readsCsd = true := by rw [hcommand]; rfl
  by_cases hdecided : Decided (csd 162)
  · have hattempt : call.command.attempt csd = .refuse := by
      rw [hcommand, SettingCommand.attempt]
      rcases hdecided with h | h <;> simp [h]
    rw [if_pos hdecided, SettingCall.run, hattempt]
    split
    · rfl
    · split <;> rfl
  · have hattempt : call.command.attempt csd = .write 162 (hwResetValue enable) := by
      rw [Decided, not_or] at hdecided
      rw [hcommand, SettingCommand.attempt, if_neg hdecided.1, if_neg hdecided.2]
    rw [if_neg hdecided, SettingCall.run, hattempt, hreads]
    cases call.opens <;> cases call.reads <;> cases call.writes <;> simp

/-- What one command does to the register. -/
theorem step_reset (csd : ExtCsd) (call : ToolCall) :
    call.step csd 162 =
      if Decided (csd 162) then csd 162 else call.resetValue.getD (csd 162) := by
  cases call with
  | partitioning call =>
      have hkeep : partition csd call 162 = csd 162 :=
        partition_keeps csd call (by unfold IsSetting; decide)
      change partition csd call 162 = if Decided (csd 162) then csd 162 else csd 162
      rw [hkeep, ite_self]
  | setting call =>
      change (call.run csd).2 162 = _
      rw [ToolCall.resetValue]
      cases hcommand : call.command with
      | hwreset enable =>
          rw [run_hwreset hcommand]
          split
          · rfl
          · split <;> rfl
      | writeprotectSet | disable512BEmulation | bootpartEnable _ _ | bootbusSet _ _ _ |
        bkopsEnable | cacheCtrl _ | sanitize =>
          have hkeep := run_keeps (fun enable h => by rw [hcommand] at h; cases h) csd
          simp [hkeep, SettingCommand.resetValue]

/-- What `hwreset` writes cannot be changed any more. -/
theorem resetValue_decided {call : ToolCall} {value : UInt8} (h : call.resetValue = some value) :
    Decided value := by
  have hboth : ∀ enable, Decided (hwResetValue enable) := by decide
  cases call with
  | partitioning call => cases h
  | setting call =>
      rw [ToolCall.resetValue] at h
      split at h
      · cases hcommand : call.command with
        | hwreset enable =>
            rw [hcommand] at h
            cases h
            exact hboth enable
        | writeprotectSet | disable512BEmulation | bootpartEnable _ _ | bootbusSet _ _ _ |
          bkopsEnable | cacheCtrl _ | sanitize =>
            rw [hcommand] at h
            cases h
      · cases h

/-- **The reset pin can be set once.**  After any sequence of setting and partitioning
commands it is as the first `hwreset` that reached the device has set it, or as it was. -/
theorem hwreset_once (csd : ExtCsd) (calls : List ToolCall) :
    toolAll csd calls 162 =
      if Decided (csd 162) then csd 162
      else (calls.findSome? ToolCall.resetValue).getD (csd 162) := by
  induction calls generalizing csd with
  | nil => simp [toolAll]
  | cons call calls ih =>
      have hstep := step_reset csd call
      have hrest := ih (call.step csd)
      rw [toolAll, List.foldl_cons, ← toolAll, hrest, hstep, List.findSome?_cons]
      by_cases hdecided : Decided (csd 162)
      · simp only [if_pos hdecided]
      · simp only [if_neg hdecided]
        cases hvalue : call.resetValue with
        | none => simp only [Option.getD_none, if_neg hdecided]
        | some value => simp only [Option.getD_some, if_pos (resetValue_decided hvalue)]

end MmcUtils
