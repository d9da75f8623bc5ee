import JsrD10f.StorageList
import Mathlib.Data.List.TakeWhile

/-!
# Where the storage configuration comes from

`init_d10f.c` runs before the persistent properties are loaded, so it reads the one it
needs from `/data/property` itself, and checks there what init checks: the file belongs to
root, nobody else can reach it and it has one name.  The partition of a card is read from
the link that the kernel makes for it.

This file models both and follows them into the table of `JsrD10f.StorageList`: a file
that fails a check has no influence on the storages, and the partition named by the kernel
is the one that vold is told to manage.
-/

namespace StorageConfig

open TextBuffer

/-! ## Forced properties -/

/-- `PERSISTENT_PROPERTY_PLANNED_SWAP`. -/
def plannedSwapName : List Char := "persist.storages.planned_swap".toList

def swapSdccName : List Char := "ro.boot.swap_sdcc".toList

def llconName : List Char := "ro.boot.llcon".toList

def propForcedList : List (List Char) := [plannedSwapName]

/-- `PROP_VALUE_MAX`. -/
abbrev propValueMax : Nat := 92

/-- The fields of `struct stat` that are looked at. -/
structure FileStat where
  mode : UInt32
  uid : Nat
  gid : Nat
  nlink : Nat
deriving DecidableEq, Repr

/-- An entry of the property directory: whether it is a regular file, can be opened, what
`fstat` finds, and what is read from it. -/
structure PropEntry where
  name : List Char
  regular : Bool
  opens : Bool
  stat : Option FileStat
  content : Option (List Char)
deriving DecidableEq, Repr

/-- The property area, by name. -/
abbrev Properties := List Char → Option (List Char)

def propertySet (props : Properties) (name value : List Char) : Properties :=
  Function.update props name (some value)

def checkPropForced (propName : List Char) : Bool :=
  propForcedList.any fun name => name.length = propName.length && decide (name = propName)

/-- A file that others can reach, that is not root's, or that has a second name. -/
def FileStat.insecure (sb : FileStat) : Bool :=
  sb.mode &&& 0o77 ≠ 0 || sb.uid ≠ 0 || sb.gid ≠ 0 || sb.nlink ≠ 1

/-- One turn of the loop of `init_prop_forced_list`.  `hasDType` is the macro
`HAVE_DIRENT_D_TYPE`. -/
def scanEntry (hasDType : Bool) (props : Properties) (entry : PropEntry) : Properties :=
  if !checkPropForced entry.name then props
  else if hasDType && !entry.regular then props
  else if !entry.opens then props
  else
    match entry.stat with
    | none => props
    | some sb =>
        if sb.insecure then props
        else
          match entry.content with
          | none => props
          | some bytes => propertySet props entry.name (cstr (bytes.take (propValueMax - 1)))

/-- `init_prop_forced_list`.  There is no directory when it cannot be opened. -/
def initPropForcedList (hasDType : Bool) (dir : Option (List PropEntry)) (props : Properties) :
    Properties :=
  match dir with
  | none => props
  | some entries => entries.foldl (scanEntry hasDType) props

/-- The file that counts: a regular file of root's, closed to everybody else. -/
structure PropEntry.Trusted (hasDType : Bool) (e : PropEntry) : Prop where
  name : e.name = plannedSwapName
  regular : hasDType = true → e.regular = true
  opens : e.opens = true
  owned : ∃ sb, e.stat = some sb ∧ sb.mode &&& 0o77 = 0 ∧ sb.uid = 0 ∧ sb.gid = 0 ∧ sb.nlink = 1

/-- The value that is set for the content of a file. -/
def valueOf (bytes : List Char) : List Char :=
  cstr (bytes.take 91)

theorem checkPropForced_iff (name : List Char) :
    checkPropForced name = true ↔ name = plannedSwapName := by
  simp only [checkPropForced, propForcedList, List.any_cons, List.any_nil, Bool.or_false,
    Bool.and_eq_true, decide_eq_true_eq]
  constructor
  · rintro ⟨-, rfl⟩
    rfl
  · rintro rfl
    exact ⟨rfl, rfl⟩

theorem FileStat.insecure_eq_false_iff (sb : FileStat) :
    sb.insecure = false ↔
      sb.mode &&& 0o77 = 0 ∧ sb.uid = 0 ∧ sb.gid = 0 ∧ sb.nlink = 1 := by
  simp [FileStat.insecure, and_assoc]

/-- A trusted file that can be read sets the property, any other entry does nothing. -/
theorem scanEntry_cases (hasDType : Bool) (props : Properties) (e : PropEntry) :
    (∃ bytes, e.Trusted hasDType ∧ e.content = some bytes ∧
      scanEntry hasDType props e = propertySet props plannedSwapName (valueOf bytes)) ∨
    (¬ (e.Trusted hasDType ∧ e.content.isSome) ∧ scanEntry hasDType props e = props) := by
  by_cases hname : e.name = plannedSwapName
  swap
  · right
    refine ⟨fun h => hname h.1.name, ?_⟩
    have hcheck : checkPropForced e.name = false := by
      rw [Bool.eq_false_iff, ne_eq, checkPropForced_iff]
      exact hname
    simp [scanEntry, hcheck]
  have hcheck : checkPropForced e.name = true := (checkPropForced_iff _).mpr hname
  by_cases hregular : hasDType = true → e.regular = true
  swap
  · right
    refine ⟨fun h => hregular h.1.regular, ?_⟩
    have hskip : (hasDType && !e.regular) = true := by simpa using hregular
    simp [scanEntry, hcheck, hskip]
  have hpass : (hasDType && !e.regular) = false := by
    cases hasDType with
    | false => rfl
    | true => simp [hregular rfl]
  cases hopens : e.opens with
  | false =>
      right
      refine ⟨fun h => ?_, by simp [scanEntry, hopens]⟩
      have hopen := h.1.opens
      rw [hopens] at hopen
      cases hopen
  | true =>
      cases hstat : e.stat with
      | none =>
          right
          refine ⟨fun h => ?_, by simp [scanEntry, hstat]⟩
          obtain ⟨sb, hsb, -⟩ := h.1.owned
          rw [hstat] at hsb
          cases hsb
      | some sb =>
          cases hsecure : sb.insecure with
          | true =>
              right
              refine ⟨fun h => ?_, by simp [scanEntry, hstat, hsecure]⟩
              obtain ⟨sb', hsb', howned⟩ := h.1.owned
              rw [hstat] at hsb'
              cases hsb'
              rw [(sb.insecure_eq_false_iff).mpr howned] at hsecure
              cases hsecure
          | false =>
              cases hcontent : e.content with
              | none =>
                  right
                  exact ⟨by simp, by simp [scanEntry, hstat, hcontent]⟩
              | some bytes =>
                  left
                  refine ⟨bytes, ⟨hname, hregular, hopens,
                    sb, hstat, (sb.insecure_eq_false_iff).mp hsecure⟩, rfl, ?_⟩
                  rw [hname] at hcheck
                  simp [scanEntry, hname, hcheck, hpass, hopens, hstat, hsecure, hcontent,
                    valueOf]

/-- No other property is touched. -/
theorem foldl_scanEntry_other (hasDType : Bool) (entries : List PropEntry) (props : Properties)
    {name : List Char} (hname : name ≠ plannedSwapName) :
    entries.foldl (scanEntry hasDType) props name = props name := by
  induction entries generalizing props with
  | nil => rfl
  | cons e entries ih =>
      rw [List.foldl_cons, ih]
      rcases scanEntry_cases hasDType props e with ⟨bytes, -, -, hset⟩ | ⟨-, hkeep⟩
      · rw [hset, propertySet, Function.update_of_ne hname]
      · rw [hkeep]

/-- Without a file that counts the property stays as it was. -/
theorem foldl_scanEntry_none (hasDType : Bool) {entries : List PropEntry} (props : Properties)
    (hnone : ∀ e ∈ entries, ¬ (e.Trusted hasDType ∧ e.content.isSome)) :
    entries.foldl (scanEntry hasDType) props = props := by
  induction entries with
  | nil => rfl
  | cons e entries ih =>
      rw [List.foldl_cons]
      rcases scanEntry_cases hasDType props e with ⟨bytes, htrust, hbytes, -⟩ | ⟨-, hkeep⟩
      · exact absurd ⟨htrust, by rw [hbytes]; rfl⟩ (hnone e List.mem_cons_self)
      · rw [hkeep]
        exact ih (fun a ha => hnone a (List.mem_cons_of_mem _ ha))

/-- A directory has a name once, so that at most one file counts. -/
theorem foldl_scanEntry_some (hasDType : Bool) {entries : List PropEntry} (props : Properties)
    (hnames : (entries.map PropEntry.name).Nodup) {e : PropEntry} (he : e ∈ entries)
    (htrust : e.Trusted hasDType) {bytes : List Char} (hbytes : e.content = some bytes) :
    entries.foldl (scanEntry hasDType) props plannedSwapName = some (valueOf bytes) := by
  induction entries generalizing props with
  | nil => cases he
  | cons a entries ih =>
      rw [List.map_cons, List.nodup_cons] at hnames
      rw [List.foldl_cons]
      rcases List.mem_cons.mp he with rfl | hin
      · have hrest : ∀ b ∈ entries, ¬ (b.Trusted hasDType ∧ b.content.isSome) := by
          intro b hb hcount
          refine hnames.1 (List.mem_map.mpr ⟨b, hb, ?_⟩)
          rw [hcount.1.name, htrust.name]
        rw [foldl_scanEntry_none hasDType _ hrest]
        rcases scanEntry_cases hasDType props e with ⟨bytes', -, hbytes', hset⟩ | ⟨hnot, -⟩
        · rw [hbytes] at hbytes'
          cases hbytes'
          rw [hset, propertySet, Function.update_self]
        · exact absurd ⟨htrust, by rw [hbytes]; rfl⟩ hnot
      · exact ih _ hnames.2 hin

/-! ## Partitions -/

/-- What is found under a device name: nothing, something that is not a link, or a link. -/
inductive DeviceNode where
  | absent
  | other
  | link (target : List Char)
deriving DecidableEq, Repr

def devName (sdcc : Int) (partName : List Char) : List Char :=
  "/dev/block/platform/msm_sdcc.".toList ++ decimal sdcc ++ "/by-name/".toList ++ partName

/-- The text behind the last `c`, as `strrchr` finds it. -/
def behindLast (c : Char) (s : List Char) : Option (List Char) :=
  if c ∈ s then some (s.reverse.takeWhile (· ≠ c)).reverse else none

/-- `get_part_num`.  `readlink` fills at most 255 bytes, and `strtol` with base 10 is what
`atoi` calls. -/
def getPartNum (nodes : List Char → DeviceNode) (sdcc : Int) (partName : List Char) : Int32 :=
  match nodes (devName sdcc partName) with
  | .absent => -1
  | .other => -2
  | .link target =>
      let buf := cstr (target.take 255)
      if target = [] then -2
      else if find "/mmcblk".toList buf = none then -3
      else
        match behindLast 'p' buf with
        | none => -4
        | some digits => if atoi digits ≤ 0 then -5 else Int32.ofInt (atoi digits)

/-- The name of a partition as the kernel makes it. -/
def kernelName (dir : List Char) (card part : Nat) : List Char :=
  dir ++ ("/mmcblk".toList ++ (decimal card ++ 'p' :: decimal part))

theorem behindLast_append {c : Char} {s t : List Char} (ht : c ∉ t) :
    behindLast c (s ++ c :: t) = some t := by
  have hstop : (c :: s.reverse).takeWhile (· ≠ c) = [] := by simp
  have hall : ∀ a ∈ t.reverse, decide (a ≠ c) = true := by
    intro a ha
    rw [decide_eq_true_eq]
    rintro rfl
    exact ht (List.mem_reverse.mp ha)
  rw [behindLast, if_pos (by simp)]
  rw [List.reverse_append, List.reverse_cons, List.append_assoc, List.singleton_append,
    List.takeWhile_append_of_pos hall, hstop, List.append_nil, List.reverse_reverse]

theorem cstr_eq_self {s : List Char} (h : nul ∉ s) : cstr s = s := by
  rw [cstr, List.takeWhile_eq_self_iff]
  intro c hc
  rw [bne_iff_ne]
  rintro rfl
  exact h hc

theorem digits_of_decimal {n : Nat} {c : Char} (hc : c ∈ decimal n) : c.isDigit = true := by
  rw [decimal_ofNat] at hc
  exact Nat.isDigit_of_mem_toDigits (by omega) (by omega) hc

/-- A number in decimal is read back. -/
theorem atoi_decimal {n : Nat} (hn : n ≤ 2147483647) : atoi (decimal n) = n := by
  have hall : ∀ c ∈ decimal n, c.isDigit = true := fun c hc => digits_of_decimal hc
  have hvalue : digitsValue (decimal n) = n := by
    rw [digitsValue, List.takeWhile_eq_self_iff.mpr hall, decimal_ofNat]
    exact Nat.ofDigitChars_ten_toDigits
  have hne : decimal n ≠ [] := by
    rw [decimal_ofNat]
    exact Nat.toDigits_ne_nil
  cases hdec : decimal n with
  | nil => exact absurd hdec hne
  | cons c rest =>
      have hdigit := hall c (by rw [hdec]; exact List.mem_cons_self)
      have hspace : isSpace c = false := by
        cases hsp : isSpace c with
        | false => rfl
        | true =>
            simp only [isSpace, Bool.or_eq_true, beq_iff_eq] at hsp
            rcases hsp with ((((rfl | rfl) | rfl) | rfl) | rfl) | rfl <;> cases hdigit
      have hdrop : (c :: rest).dropWhile isSpace = c :: rest := by
        simp [hspace]
      have hminus : c ≠ '-' := by
        rintro rfl
        cases hdigit
      have hplus : c ≠ '+' := by
        rintro rfl
        cases hdigit
      have hmin : min (n : Int) 2147483647 = n := by omega
      rw [hdec] at hvalue
      unfold atoi
      rw [hdrop]
      split
      · next heq => cases heq; exact absurd rfl hminus
      · next heq => cases heq; exact absurd rfl hplus
      · rw [hvalue, hmin]

theorem nul_notMem_kernelName {dir : List Char} (hdir : nul ∉ dir) (card part : Nat) :
    nul ∉ kernelName dir card part := by
  intro hmem
  simp only [kernelName, List.mem_append, List.mem_cons] at hmem
  rcases hmem with hd | hm | hc | hp | hn
  · exact hdir hd
  · revert hm
    decide
  · exact absurd (digits_of_decimal hc) (by decide)
  · exact absurd hp (by decide)
  · exact absurd (digits_of_decimal hn) (by decide)

/-- **The partition of a kernel name** is the number behind its last `p`. -/
theorem getPartNum_kernelName {nodes : List Char → DeviceNode} {sdcc : Int}
    {partName dir : List Char} {card part : Nat} (hdir : nul ∉ dir)
    (hpos : 0 < part) (hmax : part ≤ 2147483647)
    (hlen : (kernelName dir card part).length ≤ 255)
    (hnode : nodes (devName sdcc partName) = .link (kernelName dir card part)) :
    getPartNum nodes sdcc partName = Int32.ofInt part := by
  have hbuf : cstr ((kernelName dir card part).take 255) = kernelName dir card part := by
    rw [List.take_of_length_le hlen, cstr_eq_self (nul_notMem_kernelName hdir card part)]
  have hne : kernelName dir card part ≠ [] := by simp [kernelName]
  have hfind : find "/mmcblk".toList (kernelName dir card part) ≠ none := by
    rw [ne_eq, find_eq_none_iff, not_not]
    exact List.infix_append' dir _ _
  have hlast : behindLast 'p' (kernelName dir card part) = some (decimal part) := by
    have hno : 'p' ∉ decimal part := by
      intro hmem
      exact absurd (digits_of_decimal hmem) (by decide)
    have hsplit : kernelName dir card part =
        (dir ++ ("/mmcblk".toList ++ decimal card)) ++ 'p' :: decimal part := by
      simp [kernelName]
    rw [hsplit]
    exact behindLast_append hno
  have hgt : ¬ (part : Int) ≤ 0 := by omega
  simp only [getPartNum, hnode, hbuf, hne, hfind, if_false, hlast, atoi_decimal hmax, hgt]

/-! ## The boot -/

/-- What `init_msm_properties` finds on the device. -/
structure BootFiles where
  hasDType : Bool
  properties : Properties
  directory : Option (List PropEntry)
  nodes : List Char → DeviceNode
  template : Option (List Char)
  storagesWritable : Bool
  listWritable : Bool

/-- The properties behind `init_prop_forced_list`. -/
def BootFiles.forced (f : BootFiles) : Properties :=
  initPropForcedList f.hasDType f.directory f.properties

def BootFiles.boot (f : BootFiles) : Boot where
  llcon := f.forced llconName
  plannedSwap := f.forced plannedSwapName
  swapSdcc := f.forced swapSdccName
  getPartNum := getPartNum f.nodes
  template := f.template
  storagesWritable := f.storagesWritable
  listWritable := f.listWritable

theorem atoi_nil : atoi [] = 0 := by decide

theorem storSwapped_some (value : List Char) :
    storSwapped (some value) = true ↔ atoi value ≠ 0 := by
  cases value with
  | nil => simp [storSwapped, propertyGet, atoi_nil]
  | cons c rest =>
      simp only [storSwapped, propertyGet, Option.getD_some, List.length_cons, ne_eq,
        Nat.add_eq_zero_iff, Nat.one_ne_zero, and_false, not_false_eq_true, decide_true,
        Bool.true_and]
      exact decide_eq_true_iff

/-- The eMMC is the primary storage unless exactly one of the two exchanges is made. -/
theorem placeStorages_primary (swapSdcc : Int) (storSwapped : Bool) :
    (placeStorages swapSdcc storSwapped).primary.emmc ≠ 0 ↔
      (0 < swapSdcc ↔ storSwapped = true) := by
  unfold placeStorages
  by_cases hswap : 0 < swapSdcc
  · rw [if_pos hswap]
    cases storSwapped <;> simp [hswap] <;> decide
  · rw [if_neg hswap]
    cases storSwapped <;> simp [hswap] <;> decide

theorem finalList_primary (getPartNum : Int → List Char → Int32) (swapSdcc : Int)
    (storSwapped : Bool) :
    (finalList getPartNum swapSdcc storSwapped).primary.emmc =
      (placeStorages swapSdcc storSwapped).primary.emmc := by
  unfold finalList
  obtain ⟨n, hn⟩ := setPartNum_same (placeStorages swapSdcc storSwapped).primary
    (getPartNum (placeStorages swapSdcc storSwapped).primary.sdcc "usbmsc".toList)
  simp only [hn]

/-- **Only a trusted file exchanges the storages.**  For every property directory, the eMMC
is the primary storage exactly if both exchanges are asked for or neither: that of the
controllers by its property, that of the storages by a trusted file, which is a regular file
of root's with one name that nobody else can reach.  What other files hold, and what they
are called, makes no difference. -/
theorem planned_swap_trusted (f : BootFiles) (entries : List PropEntry)
    (hdir : f.directory = some entries) (hnames : (entries.map PropEntry.name).Nodup)
    (hunset : f.properties plannedSwapName = none) :
    f.boot.storageList.primary.emmc ≠ 0 ↔
      (0 < swapSdcc (f.properties swapSdccName) ↔
        ∃ e ∈ entries, e.Trusted f.hasDType ∧
          ∃ bytes, e.content = some bytes ∧ atoi (valueOf bytes) ≠ 0) := by
  have hforced : f.forced = entries.foldl (scanEntry f.hasDType) f.properties := by
    rw [BootFiles.forced, hdir, initPropForcedList]
  have hsdcc : f.forced swapSdccName = f.properties swapSdccName := by
    rw [hforced]
    exact foldl_scanEntry_other _ _ _ (by decide)
  have hswapped : storSwapped (f.forced plannedSwapName) = true ↔
      ∃ e ∈ entries, e.Trusted f.hasDType ∧
        ∃ bytes, e.content = some bytes ∧ atoi (valueOf bytes) ≠ 0 := by
    rw [hforced]
    constructor
    · intro hswap
      by_cases hcount : ∃ e ∈ entries, e.Trusted f.hasDType ∧ e.content.isSome
      · obtain ⟨e, he, htrust, hsome⟩ := hcount
        obtain ⟨bytes, hbytes⟩ := Option.isSome_iff_exists.mp hsome
        rw [foldl_scanEntry_some _ _ hnames he htrust hbytes, storSwapped_some] at hswap
        exact ⟨e, he, htrust, bytes, hbytes, hswap⟩
      · rw [foldl_scanEntry_none _ _ (fun e he h => hcount ⟨e, he, h⟩), hunset] at hswap
        cases hswap
    · rintro ⟨e, he, htrust, bytes, hbytes, hvalue⟩
      rw [foldl_scanEntry_some _ _ hnames he htrust hbytes, storSwapped_some]
      exact hvalue
  have hlist : f.boot.storageList.primary.emmc = (placeStorages
      (swapSdcc (f.forced swapSdccName)) (storSwapped (f.forced plannedSwapName))).primary.emmc :=
    finalList_primary _ _ _
  rw [hlist, placeStorages_primary, hsdcc, hswapped]

/-- A trusted file with the value `1`, and one of another user with the value `0`. -/
def swappedFiles : BootFiles where
  hasDType := true
  properties := fun _ => none
  directory := some
    [⟨plannedSwapName, true, true, some ⟨0o100600, 0, 0, 1⟩, some ['1']⟩,
     ⟨"persist.storages.planned_swap~".toList, true, true, some ⟨0o100666, 1000, 1000, 1⟩,
      some ['0']⟩]
  nodes := fun _ => .link (kernelName "/dev/block".toList 0 16)
  template := none
  storagesWritable := true
  listWritable := true

theorem planned_swap_swappedFiles :
    swappedFiles.boot.storageList.primary.emmc ≠ 0 ↔
      (0 < swapSdcc none ↔
        ∃ e ∈ [⟨plannedSwapName, true, true, some ⟨0o100600, 0, 0, 1⟩, some ['1']⟩,
            ⟨"persist.storages.planned_swap~".toList, true, true,
              some ⟨0o100666, 1000, 1000, 1⟩, some ['0']⟩],
          PropEntry.Trusted true e ∧
            ∃ bytes, e.content = some bytes ∧ atoi (valueOf bytes) ≠ 0) :=
  planned_swap_trusted swappedFiles _ rfl (by decide) rfl

/-- **vold manages the partition that the kernel named.**  Whichever card is in a slot, if
its link has the name that the kernel makes for a partition, the entry for vold is the name
of the slot, the number of this partition, and options. -/
theorem voldmanaged_kernel_partition (f : BootFiles) (slot : Slot) (hslot : slot ≠ .usbdisk)
    (dir : List Char) (card part : Nat) (hdir : nul ∉ dir) (hpos : 0 < part)
    (hmax : part ≤ 2147483647) (hlen : (kernelName dir card part).length ≤ 255)
    (hnode : f.nodes (devName (f.boot.storageList.get slot).sdcc "usbmsc".toList) =
      .link (kernelName dir card part)) :
    ∃ rest, getVoldmanaged f.boot.storageList slot =
        slot.name ++ ":".toList ++ decimal part ++ rest ∧ OptionsOnly rest := by
  obtain ⟨rest, hentry, hrest⟩ : ∃ rest, getVoldmanaged f.boot.storageList slot =
        slot.name ++ ":".toList ++ partitionText (getPartNum f.nodes
          (f.boot.storageList.get slot).sdcc "usbmsc".toList) ++ rest ∧
      OptionsOnly rest :=
    getVoldmanaged_entry _ _ _ hslot
  have hvalue : (Int32.ofInt (part : Int)).toInt = part :=
    Int32.toInt_ofInt_of_le (by omega) (by omega)
  have hgt : (0 : Int32) < Int32.ofInt part := by
    rw [Int32.lt_iff_toInt_lt, hvalue, Int32.toInt_zero]
    omega
  rw [getPartNum_kernelName hdir hpos hmax hlen hnode, partitionText, if_pos hgt,
    hvalue] at hentry
  exact ⟨rest, hentry, hrest⟩

theorem voldmanaged_swappedFiles :
    ∃ rest, getVoldmanaged swappedFiles.boot.storageList .primary =
        Slot.primary.name ++ ":".toList ++ decimal (16 : Nat) ++ rest ∧ OptionsOnly rest :=
  voldmanaged_kernel_partition swappedFiles .primary (by decide) "/dev/block".toList 0 16
    (by decide) (by decide) (by decide) (by decide) rfl

end StorageConfig
