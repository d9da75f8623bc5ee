import Mathlib.Data.List.Basic
import Mathlib.Data.Int.Order.Basic
import JsrD10f.TextBuffer

/-!
# The storage configuration written at boot

`init_d10f.c` decides at boot which card is the primary storage.  Two
properties can exchange the cards: `ro.boot.swap_sdcc` says that the boot
loader exchanged the controllers, and `persist.storages.planned_swap` asks for
the other card as the primary one.  The table `storage_list` is changed in place
accordingly and then written out twice: into `/fstab.storages`, by
filling a template, and into `/data/system/storage_list.xml`.

Numbers of the C program that are only compared are integers here; the partition
number is printed, so it has its 32 bits.  A character is one byte.  The result
of `get_part_num` depends on the devices and is a parameter.
-/

namespace StorageConfig

open TextBuffer

/-- The index of an entry of `storage_list` and `mnt_point`. -/
inductive Slot where
  | primary
  | secondary
  | usbdisk
deriving DecidableEq, Repr

/-- `mnt_point[].name`. -/
def Slot.name : Slot → List Char
  | .primary => "sdcard0".toList
  | .secondary => "sdcard1".toList
  | .usbdisk => "usbdisk".toList

/-- `mnt_point[].path`. -/
def Slot.path : Slot → List Char
  | .primary => "/storage/sdcard0".toList
  | .secondary => "/storage/sdcard1".toList
  | .usbdisk => "/storage/usbdisk".toList

def strStorageInternal : List Char := "@string/storage_internal".toList
def strStorageSdcard : List Char := "@string/storage_sd_card".toList
def strStorageUsb : List Char := "@string/storage_usb".toList

/-- `PATR_NUM_AUTO`. -/
def partNumAuto : Int32 := -1

structure StorageItem where
  emmc : Int
  sdcc : Int
  partNum : Int32
  storageDescription : List Char
  removable : Int
  emulated : Int
  allowMassStorage : Int
deriving DecidableEq, Repr

structure StorageList where
  primary : StorageItem
  secondary : StorageItem
  usbdisk : StorageItem
deriving DecidableEq, Repr

def StorageList.get (l : StorageList) : Slot → StorageItem
  | .primary => l.primary
  | .secondary => l.secondary
  | .usbdisk => l.usbdisk

/-- `storage_list` as it is initialized. -/
def storageList : StorageList where
  primary := ⟨1, 1, partNumAuto, strStorageInternal, 0, 0, 0⟩
  secondary := ⟨0, 2, partNumAuto, strStorageSdcard, 1, 0, 1⟩
  usbdisk := ⟨0, 3, partNumAuto, strStorageUsb, 1, 0, 0⟩

/-! ## Properties -/

/-- `isspace`. -/
def isSpace (c : Char) : Bool :=
  c == ' ' || c == '\t' || c == '\n' || c == '\x0b' || c == '\x0c' || c == '\r'

/-- The number that the leading digits stand for. -/
def digitsValue (s : List Char) : Nat :=
  (s.takeWhile Char.isDigit).foldl (fun n c => 10 * n + (c.toNat - '0'.toNat)) 0

/-- `atoi`.  It saturates, as `strtol` does. -/
def atoi (s : List Char) : Int :=
  match s.dropWhile isSpace with
  | '-' :: digits => max (-(digitsValue digits : Int)) (-2147483648)
  | '+' :: digits => min (digitsValue digits : Int) 2147483647
  | digits => min (digitsValue digits : Int) 2147483647

/-- `property_get`: the length of the value and the value; both are empty for an
absent property. -/
def propertyGet (property : Option (List Char)) : Nat × List Char :=
  ((property.getD []).length, property.getD [])

/-- `stor_swapped`. -/
def storSwapped (plannedSwap : Option (List Char)) : Bool :=
  let (rc, value) := propertyGet plannedSwap
  rc ≠ 0 && atoi value ≠ 0

/-- `swap_sdcc`. -/
def swapSdcc (property : Option (List Char)) : Int :=
  let (rc, value) := propertyGet property
  if rc ≠ 0 then
    if atoi value < 0 ∨ 2 < atoi value then 0 else atoi value
  else 0

/-! ## Changing the table -/

/-- The boot loader exchanged the controllers. -/
def StorageList.swapControllers (l : StorageList) : StorageList :=
  { l with
    primary := { l.primary with emmc := 0, sdcc := 1, removable := 0 }
    secondary := { l.secondary with emmc := 1, sdcc := 2, removable := 0, allowMassStorage := 0 } }

/-- The planned exchange of the cards. -/
def StorageList.swapStorages (l : StorageList) : StorageList :=
  { l with primary := l.secondary, secondary := l.primary }

def StorageList.fixPrimary (l : StorageList) : StorageList :=
  { l with primary := { l.primary with removable := 0 } }

def StorageList.describeAs (l : StorageList) (first second : List Char) : StorageList :=
  { l with
    primary := { l.primary with storageDescription := first }
    secondary := { l.secondary with storageDescription := second } }

def StorageList.describe (l : StorageList) : StorageList :=
  if l.primary.emmc = 0 ∧ l.secondary.emmc = 0 then
    l.describeAs strStorageInternal strStorageSdcard
  else if l.primary.emmc ≠ 0 then l.describeAs strStorageInternal strStorageSdcard
  else if l.secondary.emmc ≠ 0 then l.describeAs strStorageSdcard strStorageInternal
  else l

def StorageItem.setPartNum (s : StorageItem) (rc : Int32) : StorageItem :=
  if 0 < rc then { s with partNum := rc } else s

/-- The table without the partition numbers. -/
def placeStorages (swapSdcc : Int) (storSwapped : Bool) : StorageList :=
  let l := if 0 < swapSdcc then storageList.swapControllers else storageList
  let l := if storSwapped then l.swapStorages else l
  l.fixPrimary.describe

/-- The table that is written out. -/
def finalList (getPartNum : Int → List Char → Int32) (swapSdcc : Int) (storSwapped : Bool) :
    StorageList :=
  let l := placeStorages swapSdcc storSwapped
  { l with
    primary := l.primary.setPartNum (getPartNum l.primary.sdcc "usbmsc".toList)
    secondary := l.secondary.setPartNum (getPartNum l.secondary.sdcc "usbmsc".toList) }

/-! ## The files -/

/-- `%d`. -/
def decimal (n : Int) : List Char :=
  (toString n).toList

/-- The text that `get_voldmanaged` leaves in its buffer. -/
def getVoldmanaged (l : StorageList) (slot : Slot) : List Char :=
  let s := l.get slot
  slot.name ++ ":".toList ++
    (if s.partNum = partNumAuto then "auto".toList else decimal s.partNum.toInt) ++
    (if s.emulated = 0 then ",noemulatedsd".toList else []) ++
    (if s.removable = 0 then ",nonremovable".toList else [])

/-- `str_replace`: what is returned and the buffer after it.  There is no result
when an access leaves the buffer.  One that does is a size below zero, which is a
very large `size_t`. -/
def strReplace (buf : List Char) (mark : Char) (num : Int) (text : List Char) :
    Option (Int × List Char) :=
  let ss := mark :: decimal num
  let buflen := (cstr buf).length
  if nul ∈ buf then
    match find (cstr ss) (cstr buf) with
    | none => some (-1, buf)
    | some plen =>
        if buflen < plen + ss.length then none
        else
          (memmove buf (plen + text.length) (plen + ss.length) (buflen - plen - ss.length)).bind
            (fun buf => (memcpy buf plen text).map (fun buf => (0, buf)))
  else none

/-- `tmp` behind `fread`. -/
def readTemplate (template : List Char) : List Char :=
  pad 2048 (template.take 2047)

/-- One turn of the loop that fills the template. -/
def fillSlot (l : StorageList) (tmp : List Char) (slot : Slot) : Option (List Char) :=
  (strReplace tmp '%' (l.get slot).sdcc (getVoldmanaged l slot)).map Prod.snd

/-- `create_ftab_storage`: what is returned and what is written to
`/fstab.storages`.  A file that cannot be opened is `none` or not writable. -/
def createFtabStorage (template : Option (List Char)) (writable : Bool) (l : StorageList) :
    Option (Int × Option (List Char)) :=
  match template with
  | none => some (-1, none)
  | some [] => some (-2, none)
  | some template =>
      ((fillSlot l (readTemplate template) .primary).bind (fillSlot l · .secondary)).map
        (fun tmp => if writable then (0, some (cstr tmp)) else (-10, none))

def boolText (b : Bool) : List Char :=
  if b then "true".toList else "false".toList

/-- What is printed for one entry. -/
def storageNode (l : StorageList) (slot : Slot) : List Char :=
  let s := l.get slot
  "  <storage mountPoint=\"".toList ++ slot.path ++ "\" \n".toList ++
    ("    storageDescription=\"".toList ++ s.storageDescription ++ "\" \n".toList) ++
    ("    primary=\"".toList ++ boolText (slot = .primary) ++ "\" \n".toList) ++
    ("    removable=\"".toList ++ boolText (s.removable ≠ 0) ++ "\" \n".toList) ++
    ("    emulated=\"".toList ++ boolText (s.emulated ≠ 0) ++ "\" \n".toList) ++
    ("    allowMassStorage=\"".toList ++ boolText (s.allowMassStorage ≠ 0) ++ "\" \n".toList) ++
    "  /> \n".toList

def xmlHeader : List Char :=
  "<?xml version=\"1.0\" encoding=\"utf-8\"?>\n".toList

/-- The text of `storage_list.xml`. -/
def storageListText (l : StorageList) : List Char :=
  xmlHeader ++ "<StorageList>\n".toList ++
    [Slot.primary, .secondary, .usbdisk].flatMap (storageNode l) ++ "</StorageList>\n".toList

/-- `create_storage_list`: what is returned and what is written. -/
def createStorageList (writable : Bool) (l : StorageList) : Int × Option (List Char) :=
  if writable then (0, some (storageListText l)) else (-1, none)

/-- What `init_msm_properties` finds: the properties, the results of
`get_part_num`, and the files it can open. -/
structure Boot where
  llcon : Option (List Char)
  plannedSwap : Option (List Char)
  swapSdcc : Option (List Char)
  getPartNum : Int → List Char → Int32
  template : Option (List Char)
  storagesWritable : Bool
  listWritable : Bool

/-- What `init_msm_properties` leaves behind: two properties, and the two files
with the result of writing each. -/
structure Booted where
  noBootAnimation : Bool
  swapped : List Char
  storages : Int × Option (List Char)
  list : Int × Option (List Char)
deriving DecidableEq, Repr

def Boot.storageList (b : Boot) : StorageList :=
  finalList b.getPartNum (StorageConfig.swapSdcc b.swapSdcc) (storSwapped b.plannedSwap)

def initMsmProperties (b : Boot) : Option Booted :=
  (createFtabStorage b.template b.storagesWritable b.storageList).map (fun storages =>
    { noBootAnimation := match b.llcon with
        | some (c :: _) => c != '0'
        | _ => false
      swapped := if storSwapped b.plannedSwap then "1".toList else "0".toList
      storages := storages
      list := createStorageList b.listWritable b.storageList })

/-! ## The text of an entry -/

theorem decimal_ofNat (n : Nat) : decimal n = Nat.toDigits 10 n := by
  unfold decimal
  rw [show toString (n : Int) = n.repr from rfl, Nat.toList_repr]

theorem decimal_negSucc (n : Nat) : decimal (Int.negSucc n) = '-' :: Nat.toDigits 10 (n + 1) := by
  unfold decimal
  rw [show toString (Int.negSucc n) = "-" ++ (n + 1).repr from rfl, String.toList_append,
    Nat.toList_repr]
  rfl

theorem decimal_chars {n : Int} {c : Char} (h : c ∈ decimal n) : c.isDigit = true ∨ c = '-' := by
  cases n with
  | ofNat n =>
      rw [Int.ofNat_eq_natCast, decimal_ofNat] at h
      exact Or.inl (Nat.isDigit_of_mem_toDigits (by omega) (by omega) h)
  | negSucc n =>
      rw [decimal_negSucc] at h
      rcases List.mem_cons.mp h with h | h
      · exact Or.inr h
      · exact Or.inl (Nat.isDigit_of_mem_toDigits (by omega) (by omega) h)

theorem decimal_length (n : Int32) : (decimal n.toInt).length ≤ 11 := by
  have hlow := n.le_toInt
  have hhigh := n.toInt_lt
  cases h : n.toInt with
  | ofNat k =>
      rw [h, Int.ofNat_eq_natCast] at hhigh
      rw [Int.ofNat_eq_natCast, decimal_ofNat]
      exact (Nat.length_toDigits_le_iff (by omega) (by omega)).mpr (by omega)
  | negSucc k =>
      rw [h] at hlow
      have hk : (Nat.toDigits 10 (k + 1)).length ≤ 10 :=
        (Nat.length_toDigits_le_iff (by omega) (by omega)).mpr (by omega)
      rw [decimal_negSucc, List.length_cons]
      omega

/-- The characters of an entry's text, all but those of the flag. -/
theorem getVoldmanaged_chars {l : StorageList} {slot : Slot} {c : Char}
    (h : c ∈ getVoldmanaged l slot) :
    c ≠ '%' ∧ c ≠ nul ∧ (c = 'v' → (l.get slot).removable = 0) := by
  have hlit : ∀ text : List Char, '%' ∉ text → nul ∉ text → 'v' ∉ text → c ∈ text →
      c ≠ '%' ∧ c ≠ nul ∧ (c = 'v' → (l.get slot).removable = 0) := by
    intro text hmark hnul hv hc
    exact ⟨fun h => hmark (h ▸ hc), fun h => hnul (h ▸ hc), fun h => absurd (h ▸ hc) hv⟩
  have hdec : ∀ n d, (d.isDigit = false ∧ d ≠ '-') → d ∉ decimal n := by
    intro n d hd hmem
    rcases decimal_chars hmem with h | h
    · rw [hd.1] at h
      cases h
    · exact hd.2 h
  unfold getVoldmanaged at h
  rcases List.mem_append.mp h with h | h
  · rcases List.mem_append.mp h with h | h
    · rcases List.mem_append.mp h with h | h
      · rcases List.mem_append.mp h with h | h
        · cases slot <;> exact hlit _ (by decide) (by decide) (by decide) h
        · exact hlit _ (by decide) (by decide) (by decide) h
      · by_cases hauto : (l.get slot).partNum = partNumAuto
        · rw [if_pos hauto] at h
          exact hlit _ (by decide) (by decide) (by decide) h
        · rw [if_neg hauto] at h
          exact hlit _ (hdec _ _ (by decide)) (hdec _ _ (by decide)) (hdec _ _ (by decide)) h
    · by_cases hemulated : (l.get slot).emulated = 0
      · rw [if_pos hemulated] at h
        exact hlit _ (by decide) (by decide) (by decide) h
      · rw [if_neg hemulated] at h
        cases h
  · by_cases hremovable : (l.get slot).removable = 0
    · rw [if_pos hremovable] at h
      have hflag : ",nonremovable".toList.all (fun d => d ≠ '%' ∧ d ≠ nul) = true := by decide
      have hc := of_decide_eq_true (List.all_eq_true.mp hflag c h)
      exact ⟨hc.1, hc.2, fun _ => hremovable⟩
    · rw [if_neg hremovable] at h
      cases h

/-- The buffer `vm[128]` is long enough. -/
theorem getVoldmanaged_length (l : StorageList) (slot : Slot) :
    7 ≤ (getVoldmanaged l slot).length ∧ (getVoldmanaged l slot).length < 128 := by
  have hname : slot.name.length = 7 := by cases slot <;> rfl
  have hpart : (if (l.get slot).partNum = partNumAuto then "auto".toList
      else decimal (l.get slot).partNum.toInt).length ≤ 11 := by
    by_cases hauto : (l.get slot).partNum = partNumAuto
    · rw [if_pos hauto]
      decide
    · rw [if_neg hauto]
      exact decimal_length _
  have hemulated : (if (l.get slot).emulated = 0 then ",noemulatedsd".toList else []).length ≤ 13 := by
    split <;> decide
  have hremovable :
      (if (l.get slot).removable = 0 then ",nonremovable".toList else []).length ≤ 13 := by
    split <;> decide
  unfold getVoldmanaged
  simp only [List.length_append, hname, show ":".toList.length = 1 from rfl]
  omega

/-- A flag of the text is the flag of the entry. -/
theorem getVoldmanaged_nonremovable (l : StorageList) (slot : Slot) :
    ",nonremovable".toList <:+: getVoldmanaged l slot ↔ (l.get slot).removable = 0 := by
  constructor
  · intro h
    have hv : 'v' ∈ getVoldmanaged l slot := h.subset (by decide)
    exact (getVoldmanaged_chars hv).2.2 rfl
  · intro h
    simp only [getVoldmanaged, if_pos h]
    exact (List.suffix_append _ _).isInfix

theorem getVoldmanaged_inert (l : StorageList) (slot : Slot) {key : Char}
    (hkey : key.isDigit = true) : Inert '%' key (getVoldmanaged l slot) where
  unmarked := fun h => (getVoldmanaged_chars h).1 rfl
  long := by
    have h := (getVoldmanaged_length l slot).1
    omega
  head := by
    intro h
    have hhead : (getVoldmanaged l slot).head? = slot.name.head? := by
      unfold getVoldmanaged
      cases slot <;> rfl
    rw [hhead] at h
    cases slot <;> (cases h; revert hkey; decide)

theorem nul_notMem_getVoldmanaged (l : StorageList) (slot : Slot) :
    nul ∉ getVoldmanaged l slot := by
  intro h
  exact (getVoldmanaged_chars h).2.1 rfl

/-! ## Filling the template -/

/-- The buffer with the first token replaced and everything behind the new end as it
was. -/
def replaced (buf ss text : List Char) : List Char :=
  replaceFirst ss text (cstr buf) ++ buf.drop (replaceFirst ss text (cstr buf)).length

theorem cstr_token {mark : Char} (hmark : mark ≠ nul) (num : Int) :
    cstr (mark :: decimal num) = mark :: decimal num := by
  have hnul : nul ∉ mark :: decimal num := by
    intro h
    rcases List.mem_cons.mp h with h | h
    · exact hmark h.symm
    · rcases decimal_chars h with h | h <;> revert h <;> decide
  have h := cstr_append hnul []
  rwa [List.append_nil, show cstr [] = [] from rfl, List.append_nil] at h

/-- Without the token nothing happens. -/
theorem strReplace_absent {buf text : List Char} {mark : Char} {num : Int} (hbuf : nul ∈ buf)
    (hmark : mark ≠ nul) (h : find (mark :: decimal num) (cstr buf) = none) :
    strReplace buf mark num text = some (-1, buf) := by
  simp only [strReplace, hbuf, if_true, cstr_token hmark, h]

/-- With the token the text takes its place, as long as it ends inside the buffer. -/
theorem strReplace_found {buf text : List Char} {mark : Char} {num : Int} {i : Nat}
    (hbuf : nul ∈ buf) (hmark : mark ≠ nul)
    (h : find (mark :: decimal num) (cstr buf) = some i) :
    strReplace buf mark num text =
      if (replaceFirst (mark :: decimal num) text (cstr buf)).length ≤ buf.length then
        some (0, replaced buf (mark :: decimal num) text)
      else none := by
  obtain ⟨pre, post, hsplit, rfl, hreplace⟩ := replaceFirst_split h
  obtain ⟨rest, hrest⟩ := cstr_split hbuf
  have hparts : buf = pre ++ (mark :: decimal num) ++ post ++ nul :: rest := by
    rw [← hsplit]
    exact hrest
  have hlength : (cstr buf).length = pre.length + (mark :: decimal num).length + post.length := by
    rw [hsplit]
    simp only [List.length_append]
  have hsize : (cstr buf).length - pre.length - (mark :: decimal num).length = post.length := by
    omega
  have hfits : ¬(cstr buf).length < pre.length + (mark :: decimal num).length := by
    omega
  have hmove := memcpy_memmove text hparts
  simp only [strReplace, hbuf, if_true, cstr_token hmark, h, hsize, if_neg hfits]
  have hboth : ∀ moved : Option (List Char),
      moved.bind (fun buf => (memcpy buf pre.length text).map (fun buf => ((0 : Int), buf))) =
        (moved.bind (fun buf => memcpy buf pre.length text)).map (fun buf => (0, buf)) := by
    intro moved
    cases moved <;> rfl
  rw [hboth, hmove, replaced, hreplace, List.length_append, List.length_append]
  split <;> rfl

/-- **`str_replace` in a cleared buffer** replaces the first token, if there is
one, and leaves the buffer cleared behind the text. -/
theorem strReplace_pad {n : Nat} {s text : List Char} {mark key : Char} {num : Int}
    (hnum : decimal num = [key]) (hmark : mark ≠ nul)
    (hs : nul ∉ s) (hlong : 2 ≤ text.length) (hlen : s.length < n)
    (hroom : (replaceFirst [mark, key] text s).length < n) :
    (strReplace (pad n s) mark num text).map Prod.snd =
      some (pad n (replaceFirst [mark, key] text s)) := by
  have hnul := nul_mem_pad (s := s) hlen
  have hcstr := cstr_pad hs hlen
  cases hfind : find [mark, key] s with
  | none =>
      rw [strReplace_absent hnul hmark (by rw [hnum, hcstr, hfind]), replaceFirst, hfind]
      rfl
  | some i =>
      obtain ⟨pre, post, hsplit, rfl, hreplace⟩ := replaceFirst_split hfind
      have hgrows : s.length ≤ (replaceFirst [mark, key] text s).length := by
        rw [hreplace, hsplit]
        simp only [List.length_append, List.length_cons, List.length_nil]
        omega
      rw [strReplace_found hnul hmark (by rw [hnum, hcstr, hfind]), hnum, replaced, hcstr, if_pos]
      · rw [pad, pad, List.drop_append, List.drop_eq_nil_of_le hgrows, List.drop_replicate,
          List.nil_append, Nat.sub_sub, Nat.add_sub_cancel' hgrows]
        rfl
      · rw [pad, List.length_append, List.length_replicate]
        omega

theorem mark_ne_digit {key : Char} (hkey : key.isDigit = true) : '%' ≠ key := by
  intro h
  rw [← h] at hkey
  cases hkey

theorem nul_notMem_fill (l : StorageList) (slot : Slot) (key : Char) {s : List Char}
    (hs : nul ∉ s) : nul ∉ expand '%' (single key (getVoldmanaged l slot)) s := by
  intro h
  rcases mem_expand h with h | h
  · exact hs h
  · exact nul_notMem_getVoldmanaged l slot h

/-- One turn of the loop is one pass over the text. -/
theorem fillSlot_pad {l : StorageList} (slot : Slot) {s : List Char} {key : Char}
    (hsdcc : decimal (l.get slot).sdcc = [key]) (hkey : key.isDigit = true) (hs : nul ∉ s)
    (honce : occurrences ['%', key] s ≤ 1)
    (hroom : (expand '%' (single key (getVoldmanaged l slot)) s).length < 2048) :
    fillSlot l (pad 2048 s) slot =
      some (pad 2048 (expand '%' (single key (getVoldmanaged l slot)) s)) := by
  have hlong : 2 ≤ (getVoldmanaged l slot).length := (getVoldmanaged_inert l slot hkey).long
  have hlen : s.length < 2048 := Nat.lt_of_le_of_lt (length_le_expand hlong s) hroom
  rw [← replaceFirst_eq_expand (mark_ne_digit hkey) honce] at hroom ⊢
  exact strReplace_pad hsdcc (by decide) hs hlong hlen hroom

/-- A template: a text with one place for each card. -/
structure Template where
  text : List Char
  textual : nul ∉ text
  first : occurrences "%1".toList text = 1
  second : occurrences "%2".toList text = 1

/-- **Both places are filled**, whatever the order of the cards is. -/
theorem createFtabStorage_fill {l : StorageList} {t : Template} {key key' : Char}
    (hprimary : decimal l.primary.sdcc = [key]) (hsecondary : decimal l.secondary.sdcc = [key'])
    (hkeys : (key = '1' ∧ key' = '2') ∨ (key = '2' ∧ key' = '1'))
    (hroom : (expand '%' (double key (getVoldmanaged l .primary) key'
      (getVoldmanaged l .secondary)) t.text).length < 2048) :
    createFtabStorage (some t.text) true l =
      some (0, some (expand '%' (double key (getVoldmanaged l .primary) key'
        (getVoldmanaged l .secondary)) t.text)) := by
  have hdigits : key.isDigit = true ∧ key'.isDigit = true ∧ key ≠ key' := by
    rcases hkeys with ⟨rfl, rfl⟩ | ⟨rfl, rfl⟩
    · decide
    · decide
  have honce : occurrences ['%', key] t.text = 1 ∧ occurrences ['%', key'] t.text = 1 := by
    rcases hkeys with ⟨rfl, rfl⟩ | ⟨rfl, rfl⟩
    · exact ⟨t.first, t.second⟩
    · exact ⟨t.second, t.first⟩
  obtain ⟨hkey, hkey', hne⟩ := hdigits
  have hinert := getVoldmanaged_inert l .primary hkey'
  have hmark := mark_ne_digit hkey'
  have htwice := expand_expand hinert hmark hne (getVoldmanaged l .secondary) t.text
  have honce' : occurrences ['%', key']
      (expand '%' (single key (getVoldmanaged l .primary)) t.text) ≤ 1 := by
    rw [occurrences_expand hinert (mark_ne_digit hkey) hmark hne, honce.2]
  have htextual := nul_notMem_fill l .primary key t.textual
  have hlong' : 2 ≤ (getVoldmanaged l .secondary).length :=
    (getVoldmanaged_inert l .secondary hkey).long
  rw [← htwice] at hroom ⊢
  have hmiddle : (expand '%' (single key (getVoldmanaged l .primary)) t.text).length < 2048 :=
    Nat.lt_of_le_of_lt (length_le_expand hlong' _) hroom
  have hlen : t.text.length < 2048 :=
    Nat.lt_of_le_of_lt (length_le_expand hinert.long t.text) hmiddle
  have hread : readTemplate t.text = pad 2048 t.text := by
    unfold readTemplate
    rw [List.take_of_length_le (by omega)]
  have hnonempty : t.text ≠ [] := by
    intro h
    have hone := t.first
    rw [h] at hone
    cases hone
  have hfinal := nul_notMem_fill l .secondary key' htextual
  have hfill : (fillSlot l (readTemplate t.text) .primary).bind (fillSlot l · .secondary) =
      some (pad 2048 (expand '%' (single key' (getVoldmanaged l .secondary))
        (expand '%' (single key (getVoldmanaged l .primary)) t.text))) := by
    rw [hread, fillSlot_pad .primary hprimary hkey t.textual (by omega) hmiddle,
      Option.bind_some,
      fillSlot_pad .secondary hsecondary hkey' htextual honce' hroom]
  unfold createFtabStorage
  cases htext : t.text with
  | nil => exact absurd htext hnonempty
  | cons c rest =>
      rw [htext] at hfill hfinal hroom
      simp only [hfill, Option.map_some, if_true, cstr_pad hfinal hroom]

/-! ## The table that is written out -/

/-- What holds of the table whichever way the cards were exchanged: each card
has one of the first two slots, the eMMC is the internal one and the other is
the SD card, and the primary storage stays in the device. -/
structure Placed (l : StorageList) : Prop where
  sdcc : (l.primary.sdcc = 1 ∧ l.secondary.sdcc = 2) ∨ (l.primary.sdcc = 2 ∧ l.secondary.sdcc = 1)
  emmc : l.primary.emmc ≠ 0 ↔ l.secondary.emmc = 0
  first : l.primary.storageDescription =
    if l.primary.emmc ≠ 0 then strStorageInternal else strStorageSdcard
  second : l.secondary.storageDescription =
    if l.secondary.emmc ≠ 0 then strStorageInternal else strStorageSdcard
  third : l.usbdisk.storageDescription = strStorageUsb
  fixed : l.primary.removable = 0

theorem placeStorages_placed (swapSdcc : Int) (storSwapped : Bool) :
    Placed (placeStorages swapSdcc storSwapped) := by
  unfold placeStorages
  by_cases hswap : 0 < swapSdcc
  · rw [if_pos hswap]
    cases storSwapped with
    | true => constructor <;> decide
    | false => constructor <;> decide
  · rw [if_neg hswap]
    cases storSwapped with
    | true => constructor <;> decide
    | false => constructor <;> decide

/-- A partition number changes nothing else. -/
theorem setPartNum_same (s : StorageItem) (rc : Int32) :
    ∃ n, s.setPartNum rc = { s with partNum := n } := by
  unfold StorageItem.setPartNum
  by_cases h : 0 < rc
  · exact ⟨rc, if_pos h⟩
  · exact ⟨s.partNum, if_neg h⟩

/-- The number of the partition that was found on the card, or `auto`. -/
def partitionText (rc : Int32) : List Char :=
  if 0 < rc then decimal rc.toInt else "auto".toList

theorem setPartNum_text {s : StorageItem} (h : s.partNum = partNumAuto) (rc : Int32) :
    (if (s.setPartNum rc).partNum = partNumAuto then "auto".toList
      else decimal (s.setPartNum rc).partNum.toInt) = partitionText rc := by
  unfold StorageItem.setPartNum partitionText
  by_cases hrc : 0 < rc
  · have hne : rc ≠ partNumAuto := by
      intro hauto
      rw [hauto] at hrc
      exact absurd hrc (by decide)
    rw [if_pos hrc, if_pos hrc, if_neg hne]
  · rw [if_neg hrc, if_neg hrc, if_pos h]

theorem placeStorages_partNum (swapSdcc : Int) (storSwapped : Bool) (slot : Slot) :
    ((placeStorages swapSdcc storSwapped).get slot).partNum = partNumAuto := by
  unfold placeStorages
  by_cases hswap : 0 < swapSdcc
  · rw [if_pos hswap]
    cases storSwapped <;> cases slot <;> decide
  · rw [if_neg hswap]
    cases storSwapped <;> cases slot <;> decide

theorem setPartNum_sdcc (s : StorageItem) (rc : Int32) : (s.setPartNum rc).sdcc = s.sdcc := by
  obtain ⟨n, hn⟩ := setPartNum_same s rc
  rw [hn]

/-- What may stand behind the partition: nothing, or an option with its comma. -/
def OptionsOnly (rest : List Char) : Prop :=
  rest = [] ∨ ∃ options, rest = ',' :: options

/-- The text of a card is its mount point, its partition and options. -/
theorem getVoldmanaged_entry (getPartNum : Int → List Char → Int32) (swapSdcc : Int)
    (storSwapped : Bool) {slot : Slot} (hslot : slot ≠ .usbdisk) :
    ∃ rest, getVoldmanaged (finalList getPartNum swapSdcc storSwapped) slot =
        slot.name ++ ":".toList ++ partitionText
          (getPartNum ((finalList getPartNum swapSdcc storSwapped).get slot).sdcc
            "usbmsc".toList) ++ rest ∧
      OptionsOnly rest := by
  have hauto := placeStorages_partNum swapSdcc storSwapped slot
  have hget : (finalList getPartNum swapSdcc storSwapped).get slot =
      ((placeStorages swapSdcc storSwapped).get slot).setPartNum
        (getPartNum ((placeStorages swapSdcc storSwapped).get slot).sdcc "usbmsc".toList) := by
    cases slot with
    | primary => rfl
    | secondary => rfl
    | usbdisk => exact absurd rfl hslot
  have htext := setPartNum_text hauto
    (getPartNum ((placeStorages swapSdcc storSwapped).get slot).sdcc "usbmsc".toList)
  simp only [getVoldmanaged, hget, setPartNum_sdcc]
  rw [htext, List.append_assoc (slot.name ++ ":".toList ++ _)]
  refine ⟨_, rfl, ?_⟩
  split
  · exact Or.inr ⟨_, rfl⟩
  · split
    · exact Or.inr ⟨_, rfl⟩
    · exact Or.inl rfl

/-- The text of a card names its mount point and its partition. -/
theorem getVoldmanaged_partition (getPartNum : Int → List Char → Int32) (swapSdcc : Int)
    (storSwapped : Bool) {slot : Slot} (hslot : slot ≠ .usbdisk) :
    slot.name ++ ":".toList ++ partitionText
        (getPartNum ((finalList getPartNum swapSdcc storSwapped).get slot).sdcc "usbmsc".toList) <+:
      getVoldmanaged (finalList getPartNum swapSdcc storSwapped) slot := by
  obtain ⟨rest, hentry, -⟩ := getVoldmanaged_entry getPartNum swapSdcc storSwapped hslot
  exact ⟨rest, hentry.symm⟩

theorem finalList_placed (getPartNum : Int → List Char → Int32) (swapSdcc : Int)
    (storSwapped : Bool) : Placed (finalList getPartNum swapSdcc storSwapped) := by
  have h := placeStorages_placed swapSdcc storSwapped
  unfold finalList
  generalize placeStorages swapSdcc storSwapped = l at h
  obtain ⟨n, hn⟩ := setPartNum_same l.primary (getPartNum l.primary.sdcc "usbmsc".toList)
  obtain ⟨k, hk⟩ := setPartNum_same l.secondary (getPartNum l.secondary.sdcc "usbmsc".toList)
  simp only [hn, hk]
  exact ⟨h.sdcc, h.emmc, h.first, h.second, h.third, h.fixed⟩

/-- The slot of a card. -/
def StorageList.cardSlot (l : StorageList) (k : Int) : Slot :=
  if l.primary.sdcc = k then .primary else .secondary

/-- The slot is the one of the first two that has the card. -/
def StorageList.IsCard (l : StorageList) (k : Int) (slot : Slot) : Prop :=
  ∀ i, i ≠ .usbdisk → ((l.get i).sdcc = k ↔ i = slot)

theorem Placed.isCard {l : StorageList} (h : Placed l) {k : Int} (hk : k = 1 ∨ k = 2) :
    l.IsCard k (l.cardSlot k) := by
  intro i hi
  unfold StorageList.cardSlot
  rcases h.sdcc with ⟨hp, hs⟩ | ⟨hp, hs⟩ <;> rcases hk with rfl | rfl <;> cases i <;>
    simp_all [StorageList.get]

/-- The template with the text of each card in its place. -/
def StorageList.filled (l : StorageList) (template : List Char) : List Char :=
  expand '%' (double '1' (getVoldmanaged l (l.cardSlot 1)) '2' (getVoldmanaged l (l.cardSlot 2)))
    template

/-- **The file `fstab.storages`.** -/
theorem createFtabStorage_filled {l : StorageList} (h : Placed l) {t : Template}
    (hroom : (l.filled t.text).length < 2048) :
    createFtabStorage (some t.text) true l = some (0, some (l.filled t.text)) := by
  unfold StorageList.filled StorageList.cardSlot at hroom ⊢
  rcases h.sdcc with ⟨hp, hs⟩ | ⟨hp, hs⟩
  · have h₂ : l.primary.sdcc ≠ 2 := by omega
    rw [if_pos hp, if_neg h₂] at hroom ⊢
    exact createFtabStorage_fill (by rw [hp]; rfl) (by rw [hs]; rfl) (Or.inl ⟨rfl, rfl⟩) hroom
  · have h₁ : l.primary.sdcc ≠ 1 := by omega
    rw [if_neg h₁, if_pos hp, double_comm _ _ (by decide)] at hroom ⊢
    exact createFtabStorage_fill (by rw [hp]; rfl) (by rw [hs]; rfl) (Or.inr ⟨rfl, rfl⟩) hroom

end StorageConfig
