import Mathlib.Data.List.Find
import JsrD10f.FirstMatch

/-!
# Ownership and modes of files

`fs_config` finds the owner, the mode and the capabilities of a path in one of two
tables, for directories and for files.  It takes the first rule that matches, and
the comment on each table asks for the most specific rules first.

The order of the tables is checked by pairs.  Where one rule stands above a longer
one that it covers, the two say the same, with one exception: the directory
`data/misc` stands above `data/misc/dhcp`.
-/

namespace FsConfig

/-! ## The tables -/

/-- `struct fs_path_config`; the field `prefix` is `pathPrefix` here. -/
structure FsPathConfig where
  mode : UInt32
  uid : UInt32
  gid : UInt32
  capabilities : UInt64
  pathPrefix : List Char
deriving DecidableEq, Repr

def aidRoot : UInt32 := 0
def aidSystem : UInt32 := 1000
def aidRadio : UInt32 := 1001
def aidAudio : UInt32 := 1005
def aidDhcp : UInt32 := 1014
def aidMediaRw : UInt32 := 1023
def aidShell : UInt32 := 2000
def aidCache : UInt32 := 2001
def aidInet : UInt32 := 3003
def aidMisc : UInt32 := 9998
def aidApp : UInt32 := 10000

def capSetgid : UInt64 := 6
def capSetuid : UInt64 := 7

/-- The rules for directories, without the last one, which has no prefix. -/
def androidDirs : List FsPathConfig :=
  [⟨0o0770, aidSystem, aidCache, 0, "cache".toList⟩,
    ⟨0o0771, aidSystem, aidSystem, 0, "data/app".toList⟩,
    ⟨0o0771, aidSystem, aidSystem, 0, "data/app-private".toList⟩,
    ⟨0o0771, aidSystem, aidSystem, 0, "data/dalvik-cache".toList⟩,
    ⟨0o0771, aidSystem, aidSystem, 0, "data/data".toList⟩,
    ⟨0o0771, aidShell, aidShell, 0, "data/local/tmp".toList⟩,
    ⟨0o0771, aidShell, aidShell, 0, "data/local".toList⟩,
    ⟨0o1771, aidSystem, aidMisc, 0, "data/misc".toList⟩,
    ⟨0o0770, aidDhcp, aidDhcp, 0, "data/misc/dhcp".toList⟩,
    ⟨0o0775, aidMediaRw, aidMediaRw, 0, "data/media".toList⟩,
    ⟨0o0775, aidMediaRw, aidMediaRw, 0, "data/media/Music".toList⟩,
    ⟨0o0771, aidSystem, aidSystem, 0, "data".toList⟩,
    ⟨0o0750, aidRoot, aidShell, 0, "sbin".toList⟩,
    ⟨0o0755, aidRoot, aidRoot, 0, "system/addon.d".toList⟩,
    ⟨0o0755, aidRoot, aidShell, 0, "system/bin".toList⟩,
    ⟨0o0755, aidRoot, aidShell, 0, "system/vendor".toList⟩,
    ⟨0o0755, aidRoot, aidShell, 0, "system/xbin".toList⟩,
    ⟨0o0755, aidRoot, aidRoot, 0, "system/etc/ppp".toList⟩,
    ⟨0o0755, aidRoot, aidShell, 0, "vendor".toList⟩,
    ⟨0o0777, aidRoot, aidRoot, 0, "sdcard".toList⟩]

/-- The rules for files, without the last one. -/
def androidFiles : List FsPathConfig :=
  [⟨0o0440, aidRoot, aidShell, 0, "system/etc/init.goldfish.rc".toList⟩,
    ⟨0o0550, aidRoot, aidShell, 0, "system/etc/init.goldfish.sh".toList⟩,
    ⟨0o0550, aidSystem, aidSystem, 0, "system/etc/init.qcom.sdio.sh".toList⟩,
    ⟨0o0440, aidRoot, aidShell, 0, "system/etc/init.trout.rc".toList⟩,
    ⟨0o0550, aidRoot, aidShell, 0, "system/etc/init.ril".toList⟩,
    ⟨0o0550, aidRoot, aidShell, 0, "system/etc/init.testmenu".toList⟩,
    ⟨0o0550, aidDhcp, aidShell, 0, "system/etc/dhcpcd/dhcpcd-run-hooks".toList⟩,
    ⟨0o0444, aidRadio, aidAudio, 0, "system/etc/AudioPara4.csv".toList⟩,
    ⟨0o0555, aidRoot, aidRoot, 0, "system/etc/ppp/*".toList⟩,
    ⟨0o0555, aidRoot, aidRoot, 0, "system/etc/rc.*".toList⟩,
    ⟨0o0755, aidRoot, aidRoot, 0, "system/addon.d/*".toList⟩,
    ⟨0o0644, aidSystem, aidSystem, 0, "data/app/*".toList⟩,
    ⟨0o0644, aidMediaRw, aidMediaRw, 0, "data/media/*".toList⟩,
    ⟨0o0644, aidSystem, aidSystem, 0, "data/app-private/*".toList⟩,
    ⟨0o0644, aidApp, aidApp, 0, "data/data/*".toList⟩,
    ⟨0o0755, aidRoot, aidRoot, 0, "system/bin/ping".toList⟩,
    ⟨0o2750, aidRoot, aidInet, 0, "system/bin/netcfg".toList⟩,
    ⟨0o6755, aidRoot, aidRoot, 0, "system/xbin/su".toList⟩,
    ⟨0o6755, aidRoot, aidRoot, 0, "system/xbin/librank".toList⟩,
    ⟨0o6755, aidRoot, aidRoot, 0, "system/xbin/procrank".toList⟩,
    ⟨0o6755, aidRoot, aidRoot, 0, "system/xbin/procmem".toList⟩,
    ⟨0o6755, aidRoot, aidRoot, 0, "system/xbin/tcpdump".toList⟩,
    ⟨0o4770, aidRoot, aidRadio, 0, "system/bin/pppd-ril".toList⟩,
    ⟨0o0750, aidRoot, aidShell, (1 <<< capSetuid) ||| (1 <<< capSetgid),
      "system/bin/run-as".toList⟩,
    ⟨0o0755, aidRoot, aidShell, 0, "system/bin/*".toList⟩,
    ⟨0o0755, aidRoot, aidRoot, 0, "system/lib/valgrind/*".toList⟩,
    ⟨0o0755, aidRoot, aidShell, 0, "system/xbin/*".toList⟩,
    ⟨0o0755, aidRoot, aidShell, 0, "system/vendor/bin/*".toList⟩,
    ⟨0o0755, aidRoot, aidShell, 0, "vendor/bin/*".toList⟩,
    ⟨0o0750, aidRoot, aidShell, 0, "sbin/*".toList⟩,
    ⟨0o0755, aidRoot, aidRoot, 0, "bin/*".toList⟩,
    ⟨0o0750, aidRoot, aidShell, 0, "init*".toList⟩,
    ⟨0o0750, aidRoot, aidShell, 0, "charger*".toList⟩,
    ⟨0o0750, aidRoot, aidShell, 0, "sbin/fs_mgr".toList⟩,
    ⟨0o0640, aidRoot, aidShell, 0, "fstab.*".toList⟩,
    ⟨0o0755, aidRoot, aidShell, 0, "system/etc/init.d/*".toList⟩]

/-- The table for directories or for files. -/
def table (dir : Bool) : List FsPathConfig :=
  if dir then androidDirs else androidFiles

/-- The last rule of the table, which every path comes to that no other rule takes. -/
def lastRule (dir : Bool) : FsPathConfig :=
  if dir then ⟨0o0755, aidRoot, aidRoot, 0, []⟩ else ⟨0o0644, aidRoot, aidRoot, 0, []⟩

/-! ## The function -/

/-- `!strncmp(a, b, n)`. -/
def startsAlike (a b : List Char) (n : Nat) : Bool :=
  a.take n = b.take n

/-- One turn of the loop: whether it is left with this rule. -/
def isMatch (dir : Bool) (path : List Char) (pc : FsPathConfig) : Bool :=
  let len := pc.pathPrefix.length
  if dir then !(path.length < len) && startsAlike pc.pathPrefix path len
  else if pc.pathPrefix[len - 1]? = some '*' then startsAlike pc.pathPrefix path (len - 1)
  else path.length = len && startsAlike pc.pathPrefix path len

/-- What the pointers are set to. -/
structure Config where
  uid : UInt32
  gid : UInt32
  mode : UInt32
  capabilities : UInt64
deriving DecidableEq, Repr

/-- What a rule gives, where the upper bits of the old mode stay. -/
def FsPathConfig.apply (pc : FsPathConfig) (mode : UInt32) : Config where
  uid := pc.uid
  gid := pc.gid
  mode := (mode &&& ~~~0o7777) ||| pc.mode
  capabilities := pc.capabilities

/-- A leading slash is skipped. -/
def skipSlash : List Char → List Char
  | '/' :: path => path
  | path => path

def fsConfig (path : List Char) (dir : Bool) (mode : UInt32) : Config :=
  (((table dir).find? (isMatch dir (skipSlash path))).getD (lastRule dir)).apply mode

example : fsConfig "/data/misc/dhcp".toList true 0o40000 = ⟨aidSystem, aidMisc, 0o41771, 0⟩ := by
  decide

/-! ## What is expected -/

/-- The characters that a path has to start with. -/
def FsPathConfig.stem (pc : FsPathConfig) (dir : Bool) : List Char :=
  if dir then pc.pathPrefix
  else if pc.pathPrefix[pc.pathPrefix.length - 1]? = some '*' then pc.pathPrefix.dropLast
  else pc.pathPrefix

def FsPathConfig.weight (pc : FsPathConfig) (dir : Bool) : Nat :=
  (pc.stem dir).length

/-- The result is that of the longest rule that matches, or that of the last rule if
none matches. -/
def BySpecificity (path : List Char) (dir : Bool) (mode : UInt32) : Prop :=
  (∃ pc, FirstMatch.Best (isMatch dir (skipSlash path)) (·.weight dir) (table dir) pc ∧
    fsConfig path dir mode = pc.apply mode) ∨
  ((∀ pc ∈ table dir, isMatch dir (skipSlash path) pc = false) ∧
    fsConfig path dir mode = (lastRule dir).apply mode)

/-- The directory whose rule is never reached. -/
def dhcpPath : List Char :=
  "data/misc/dhcp".toList

/-! ## Matching a path -/

theorem startsAlike_length {a b : List Char} : startsAlike a b a.length = true ↔ a <+: b := by
  simp only [startsAlike, List.take_length, decide_eq_true_eq]
  exact List.prefix_iff_eq_take.symm

theorem isMatch_dir {path : List Char} {pc : FsPathConfig} :
    isMatch true path pc = true ↔ pc.pathPrefix <+: path := by
  have hshort : pc.pathPrefix <+: path → pc.pathPrefix.length ≤ path.length := List.IsPrefix.length_le
  simp only [isMatch, if_true, Bool.and_eq_true, startsAlike_length, Bool.not_eq_true',
    decide_eq_false_iff_not, not_lt]
  exact ⟨fun h => h.2, fun h => ⟨hshort h, h⟩⟩

/-- A path that a rule matches starts with the stem of the rule. -/
theorem stem_prefix_of_isMatch {dir : Bool} {path : List Char} {pc : FsPathConfig}
    (h : isMatch dir path pc = true) : pc.stem dir <+: path := by
  cases dir with
  | true => exact isMatch_dir.mp h
  | false =>
      simp only [FsPathConfig.stem, Bool.false_eq_true, if_false]
      simp only [isMatch, Bool.false_eq_true, if_false] at h
      split_ifs at h ⊢ with hstar
      · simp only [startsAlike, decide_eq_true_eq, ← List.dropLast_eq_take] at h
        rw [h]
        exact List.take_prefix _ _
      · rw [Bool.and_eq_true] at h
        exact startsAlike_length.mp h.2

/-! ## The order of the tables -/

/-- The two rules give the same owner, mode and capabilities. -/
def FsPathConfig.Agrees (r r' : FsPathConfig) : Prop :=
  r.uid = r'.uid ∧ r.gid = r'.gid ∧ r.mode = r'.mode ∧ r.capabilities = r'.capabilities

instance (r r' : FsPathConfig) : Decidable (r.Agrees r') :=
  inferInstanceAs (Decidable (_ ∧ _))

theorem FsPathConfig.Agrees.apply_eq {r r' : FsPathConfig} (h : r.Agrees r') (mode : UInt32) :
    r.apply mode = r'.apply mode := by
  obtain ⟨huid, hgid, hmode, hcapabilities⟩ := h
  simp only [FsPathConfig.apply, huid, hgid, hmode, hcapabilities]

/-- A rule that stands above a rule it covers agrees with it, unless the lower rule is
the one of `data/misc/dhcp`. -/
theorem table_covers (dir : Bool) :
    (table dir).Pairwise fun r r' => r.stem dir <+: r'.stem dir →
      r.Agrees r' ∨ (dir = true ∧ r'.pathPrefix = dhcpPath) := by
  cases dir <;> decide +kernel

/-- Two rules that match one path cover each other in the order of their weights. -/
theorem stem_prefix_stem {dir : Bool} {path : List Char} {r r' : FsPathConfig}
    (h : isMatch dir path r = true) (h' : isMatch dir path r' = true)
    (hweight : r.weight dir ≤ r'.weight dir) : r.stem dir <+: r'.stem dir :=
  List.prefix_of_prefix_length_le (stem_prefix_of_isMatch h) (stem_prefix_of_isMatch h') hweight

theorem table_ordered {path : List Char} {dir : Bool}
    (hpath : ¬ (dir = true ∧ dhcpPath <+: path)) (mode : UInt32) :
    FirstMatch.Ordered (isMatch dir path) (·.weight dir) (·.apply mode) (table dir) := by
  refine (table_covers dir).imp fun {r r'} hcovers h h' hweight => ?_
  rcases hcovers (stem_prefix_stem h h' hweight) with hagrees | ⟨rfl, hdhcp⟩
  · exact hagrees.apply_eq mode
  · -- the lower rule only matches below its own directory
    have hbelow := isMatch_dir.mp h'
    rw [hdhcp] at hbelow
    exact absurd ⟨rfl, hbelow⟩ hpath

/-! ## Paths below the hidden rule -/

/-- Below `data/misc/dhcp` the same rules match as for that directory itself. -/
theorem isMatch_below {path : List Char} (hpath : dhcpPath <+: path) {pc : FsPathConfig}
    (hpc : pc ∈ androidDirs) : isMatch true path pc = isMatch true dhcpPath pc := by
  have hdeepest : ∀ r ∈ androidDirs, dhcpPath <+: r.pathPrefix → r.pathPrefix <+: dhcpPath := by
    decide +kernel
  rw [Bool.eq_iff_iff, isMatch_dir, isMatch_dir]
  constructor
  · intro hmatch
    rcases List.prefix_or_prefix_of_prefix hmatch hpath with hshort | hlong
    · exact hshort
    · exact hdeepest pc hpc hlong
  · intro hmatch
    exact hmatch.trans hpath

/-- The first rule that matches below `data/misc/dhcp` is the one of `data/misc`. -/
theorem fsConfig_below {path : List Char} (hpath : dhcpPath <+: skipSlash path) (mode : UInt32) :
    (fsConfig path true mode).uid = aidSystem := by
  have hfind : (table true).find? (isMatch true (skipSlash path)) =
      (table true).find? (isMatch true dhcpPath) :=
    List.find?_congr fun pc hpc => isMatch_below hpath hpc
  have hmisc : (((table true).find? (isMatch true dhcpPath)).getD (lastRule true)).uid =
      aidSystem := by
    decide
  rw [fsConfig, hfind]
  exact hmisc

/-- The longest one is that of `data/misc/dhcp`. -/
theorem best_below {path : List Char} (hpath : dhcpPath <+: path) {best : FsPathConfig}
    (hbest : FirstMatch.Best (isMatch true path) (·.weight true) (table true) best) :
    best.uid = aidDhcp := by
  have hdhcp : ∃ r ∈ androidDirs, isMatch true dhcpPath r = true ∧ r.weight true = 14 := by
    decide +kernel
  have hlongest : ∀ r ∈ androidDirs, isMatch true dhcpPath r = true → 14 ≤ r.weight true →
      r.uid = aidDhcp := by
    decide +kernel
  obtain ⟨r, hr, hmatch, hweight⟩ := hdhcp
  have happlies := hbest.applies
  rw [isMatch_below hpath hbest.mem] at happlies
  refine hlongest best hbest.mem happlies ?_
  rw [← hweight]
  exact hbest.heaviest r hr (by rw [isMatch_below hpath hr, hmatch])

theorem not_bySpecificity_below {path : List Char} (hpath : dhcpPath <+: skipSlash path)
    (mode : UInt32) : ¬ BySpecificity path true mode := by
  have huid := fsConfig_below hpath mode
  rintro (⟨best, hbest, hconfig⟩ | ⟨hnone, -⟩)
  · rw [hconfig] at huid
    have hdhcp : (best.apply mode).uid = aidDhcp := best_below hpath hbest
    rw [hdhcp] at huid
    exact absurd huid (by decide)
  · have hdhcp : ∃ r ∈ androidDirs, isMatch true dhcpPath r = true := by decide +kernel
    obtain ⟨r, hr, hmatch⟩ := hdhcp
    have hno := hnone r hr
    rw [isMatch_below hpath hr, hmatch] at hno
    cases hno

/-! ## First match and longest match -/

theorem bySpecificity_of_ordered {path : List Char} {dir : Bool} {mode : UInt32}
    (hordered : FirstMatch.Ordered (isMatch dir (skipSlash path)) (·.weight dir) (·.apply mode)
      (table dir)) : BySpecificity path dir mode := by
  cases hfirst : (table dir).find? (isMatch dir (skipSlash path)) with
  | none =>
      refine .inr ⟨fun pc hpc => ?_, by rw [fsConfig, hfirst, Option.getD_none]⟩
      simpa using List.find?_eq_none.mp hfirst pc hpc
  | some first =>
      obtain ⟨best, hbest⟩ : ∃ best, FirstMatch.Best _ (·.weight dir) (table dir) best :=
        FirstMatch.exists_best (List.mem_of_find?_eq_some hfirst) (List.find?_some hfirst)
      refine .inl ⟨best, hbest, ?_⟩
      rw [fsConfig, hfirst, Option.getD_some]
      exact FirstMatch.value_first_eq hordered hfirst hbest

/-- **The longest rule decides** for all paths but the directories that start with
`data/misc/dhcp`. -/
theorem fs_config_by_specificity_iff (path : List Char) (dir : Bool) (mode : UInt32) :
    BySpecificity path dir mode ↔ ¬ (dir = true ∧ dhcpPath <+: skipSlash path) := by
  constructor
  · rintro hspecific ⟨rfl, hpath⟩
    exact not_bySpecificity_below hpath mode hspecific
  · intro hpath
    exact bySpecificity_of_ordered (table_ordered hpath mode)

theorem dhcp_directory_not_by_specificity :
    ¬ BySpecificity "/data/misc/dhcp".toList true 0o40000 :=
  not_bySpecificity_below (by decide) 0o40000

end FsConfig
