import JsrD10f.StorageList
import JsrD10f.XmlPull

/-!
# Reading the storage list back

`MountService` reads `/data/system/storage_list.xml` with a pull parser and loads
an item from every `storage` tag below the root.  The texts of descriptions
are names of resources, which are looked up in the system's resource table.  A
Java exception that none of the handlers catches is `none`.

The file is written by another program in another language.  The last theorem
of this file says that both ends agree: what is mounted by `fstab.storages` and
what is loaded from `storage_list.xml` come from the same entry of the same
table, for every value of the properties that exchange the cards.
-/

namespace MountService

open StorageConfig TextBuffer XmlPull

/-- What `Context` and `Resources` answer. -/
structure Resources where
  packageName : List Char
  getIdentifier : List Char → List Char → List Char → Int
  getString : Int → List Char

/-- The attributes of a tag. -/
abbrev Attributes := List (List Char × List Char)

/-- `getAttributeValue(null, name)`. -/
def getAttributeValue (attrs : Attributes) (name : List Char) : Option (List Char) :=
  (attrs.find? (fun a => a.1 = name)).map Prod.snd

def getString (attrs : Attributes) (name : List Char) (defValue : Option (List Char)) :
    Option (List Char) :=
  match getAttributeValue attrs name with
  | none => defValue
  | some value => some value

def getBoolean (attrs : Attributes) (name : List Char) (defValue : Bool) : Bool :=
  match getAttributeValue attrs name with
  | none => defValue
  | some value =>
      if value = "true".toList then true
      else if value = "false".toList then false
      else defValue

/-- `Integer.parseInt`; `none` is a `NumberFormatException`. -/
def parseInt (value : List Char) : Option Int :=
  let magnitude (digits : List Char) : Option Int :=
    if digits ≠ [] ∧ digits.all Char.isDigit then some (digitsValue digits) else none
  let signed : Option Int :=
    match value with
    | '-' :: digits => (magnitude digits).map (fun n => -n)
    | '+' :: digits => magnitude digits
    | digits => magnitude digits
  signed.filter (fun n => -2147483648 ≤ n && n ≤ 2147483647)

def getInt (attrs : Attributes) (name : List Char) (defValue : Int) : Int :=
  match getAttributeValue attrs name with
  | none => defValue
  | some value => (parseInt value).getD defValue

/-- The resource that a text such as `@string/name` names, 0 if none.  The
first character of an empty text cannot be read. -/
def lookupReference (res : Resources) (value : List Char) : Option Int :=
  match value with
  | [] => none
  | c :: _ =>
      match value.findIdx? (fun c => c = '/') with
      | some dpos =>
          if c = '@' ∧ 1 < dpos then
            some (res.getIdentifier (value.drop (dpos + 1)) ((value.take dpos).drop 1)
              res.packageName)
          else some 0
      | none => some 0

def getResourceId (res : Resources) (attrs : Attributes) (name : List Char) (defValue : Int) :
    Option Int :=
  match getAttributeValue attrs name with
  | none => some defValue
  | some value => (lookupReference res value).map (fun id => if id ≠ 0 then id else defValue)

def getText (res : Resources) (attrs : Attributes) (name : List Char)
    (defValue : Option (List Char)) : Option (Option (List Char)) :=
  (getResourceId res attrs name 0).map (fun id =>
    if id ≠ 0 then some (res.getString id) else defValue)

/-- `StorageItem`. -/
structure Item where
  path : Option (List Char)
  descriptionId : Int
  description : Option (List Char)
  primary : Bool
  removable : Bool
  emulated : Bool
  mtpReserve : Int
  allowMassStorage : Bool
  maxFileSize : Int
deriving DecidableEq, Repr

/-- `StorageItem.loadNode`: what is returned and the item. -/
def loadNode (res : Resources) (attrs : Attributes) : Option (Bool × Item) :=
  (getResourceId res attrs "storageDescription".toList (-1)).bind (fun descriptionId =>
    (getText res attrs "storageDescription".toList none).map (fun description =>
      let path := getString attrs "mountPoint".toList none
      let item : Item :=
        { path := path
          descriptionId := descriptionId
          description := description
          primary := getBoolean attrs "primary".toList false
          removable := getBoolean attrs "removable".toList false
          emulated := getBoolean attrs "emulated".toList false
          mtpReserve := getInt attrs "mtpReserve".toList 0
          allowMassStorage := getBoolean attrs "allowMassStorage".toList false
          maxFileSize := getInt attrs "maxFileSize".toList 0 * 1024 * 1024 }
      (!(path = none || descriptionId = -1), item)))

/-- The variables of the loop of `readStorageList`: the names of the open
elements by depth, and the items loaded so far. -/
structure Reading where
  nodeList : List (Option (List Char))
  items : List Item
deriving DecidableEq, Repr

/-- A tag is an entry of the list. -/
def Reading.inStorage (r : Reading) (depth : Nat) : Bool :=
  r.nodeList.getD 1 none = some "StorageList".toList &&
    r.nodeList.getD 2 none = some "storage".toList && depth = 2

/-- One turn of the loop.  `nodeList` has five elements. -/
def readEvent (res : Resources) (r : Reading) : Event → Option Reading
  | .startTag depth name attrs =>
      if depth < 5 then
        let r := { r with nodeList := r.nodeList.set depth (some name) }
        if r.inStorage depth then
          (loadNode res attrs).map (fun loaded =>
            if loaded.1 then { r with items := r.items ++ [loaded.2] } else r)
        else some r
      else none
  | .endTag depth _ =>
      if depth < 5 then some { r with nodeList := r.nodeList.set depth none } else none

/-- `readStorageList`: the items that were loaded. -/
def readStorageList (res : Resources) (text : List Char) : Option (List Item) :=
  (parse text).bind (fun events =>
    (Runs.exec (readEvent res) ⟨List.replicate 5 none, []⟩ events).map Reading.items)

/-! ## The text is the document -/

section Document

variable {l : StorageList} {events : List Event} {path : List (List Char)} {rooted : Bool}

/-- The attributes of an entry. -/
def nodeAttributes (l : StorageList) (slot : Slot) : Attributes :=
  [("mountPoint".toList, slot.path),
    ("storageDescription".toList, (l.get slot).storageDescription),
    ("primary".toList, boolText (slot = .primary)),
    ("removable".toList, boolText ((l.get slot).removable ≠ 0)),
    ("emulated".toList, boolText ((l.get slot).emulated ≠ 0)),
    ("allowMassStorage".toList, boolText ((l.get slot).allowMassStorage ≠ 0))]

/-- The events of an entry. -/
def nodeEvents (l : StorageList) (slot : Slot) : List Event :=
  [.startTag 2 "storage".toList (nodeAttributes l slot), .endTag 2 "storage".toList]

theorem path_plain (slot : Slot) : IsPlain slot.path := by
  cases slot <;> decide +kernel

theorem boolText_plain (b : Bool) : IsPlain (boolText b) := by
  cases b <;> decide +kernel

theorem scan_storageNode (hplain : ∀ slot, IsPlain (l.get slot).storageDescription)
    (slot : Slot) (name : List Char) :
    Runs.exec step ⟨.content, [name], rooted, events⟩ (storageNode l slot) =
      some ⟨.content, [name], true, events ++ nodeEvents l slot⟩ := by
  have hopen : Runs.exec step ⟨.content, [name], rooted, events⟩ "  <storage ".toList =
      some ⟨.inTag ⟨"storage".toList, []⟩, [name], rooted, events⟩ := rfl
  have hsplit : "  <storage mountPoint=\"".toList =
      "  <storage ".toList ++ "mountPoint=\"".toList := by decide +kernel
  have hmount := Runs.exec_append.mpr ⟨_, hopen, @scan_printed _ _ _ ⟨"storage".toList, []⟩
    "mountPoint=\"".toList "mountPoint".toList _ (by decide +kernel) List.not_mem_nil
    (path_plain slot)⟩
  rw [← List.append_assoc, ← List.append_assoc, ← hsplit] at hmount
  have hdescription := Runs.exec_append.mpr ⟨_, hmount, @scan_printed _ _ _ ⟨_, [(_, _)]⟩
    "    storageDescription=\"".toList "storageDescription".toList _ (by decide +kernel)
    (show _ ∉ ["mountPoint".toList] by decide +kernel) (hplain slot)⟩
  have hprimary := Runs.exec_append.mpr ⟨_, hdescription, @scan_printed _ _ _ ⟨_, [(_, _), (_, _)]⟩
    "    primary=\"".toList "primary".toList _ (by decide +kernel)
    (show _ ∉ ["mountPoint".toList, "storageDescription".toList] by decide +kernel)
    (boolText_plain (slot = .primary))⟩
  have hremovable := Runs.exec_append.mpr ⟨_, hprimary, @scan_printed _ _ _
    ⟨_, [(_, _), (_, _), (_, _)]⟩
    "    removable=\"".toList "removable".toList _ (by decide +kernel)
    (show _ ∉ ["mountPoint".toList, "storageDescription".toList, "primary".toList]
      by decide +kernel) (boolText_plain ((l.get slot).removable ≠ 0))⟩
  have hemulated := Runs.exec_append.mpr ⟨_, hremovable, @scan_printed _ _ _
    ⟨_, [(_, _), (_, _), (_, _), (_, _)]⟩
    "    emulated=\"".toList "emulated".toList _ (by decide +kernel)
    (show _ ∉ ["mountPoint".toList, "storageDescription".toList, "primary".toList,
      "removable".toList] by decide +kernel) (boolText_plain ((l.get slot).emulated ≠ 0))⟩
  have hallow := Runs.exec_append.mpr ⟨_, hemulated, @scan_printed _ _ _
    ⟨_, [(_, _), (_, _), (_, _), (_, _), (_, _)]⟩
    "    allowMassStorage=\"".toList "allowMassStorage".toList _ (by decide +kernel)
    (show _ ∉ ["mountPoint".toList, "storageDescription".toList, "primary".toList,
      "removable".toList, "emulated".toList] by decide +kernel)
    (boolText_plain ((l.get slot).allowMassStorage ≠ 0))⟩
  exact Runs.exec_append.mpr ⟨_, hallow, rfl⟩

/-- **The text is read as the list it was printed from.** -/
theorem parse_storageListText (hplain : ∀ slot, IsPlain (l.get slot).storageDescription) :
    parse (storageListText l) =
      some (.startTag 1 "StorageList".toList [] ::
        [Slot.primary, .secondary, .usbdisk].flatMap (nodeEvents l) ++
          [.endTag 1 "StorageList".toList]) := by
  have hheader : Runs.exec step start xmlHeader = some start := by decide +kernel
  have hroot : Runs.exec step start "<StorageList>\n".toList =
      some ⟨.content, ["StorageList".toList], true, [.startTag 1 "StorageList".toList []]⟩ := rfl
  have hnodes : ∀ (slots : List Slot) (events : List Event),
      Runs.exec step ⟨.content, ["StorageList".toList], true, events⟩
        (slots.flatMap (storageNode l)) =
      some ⟨.content, ["StorageList".toList], true, events ++ slots.flatMap (nodeEvents l)⟩ := by
    intro slots
    induction slots with
    | nil =>
        intro events
        simp
    | cons slot slots ih =>
        intro events
        rw [List.flatMap_cons, List.flatMap_cons, ← List.append_assoc]
        exact Runs.exec_append.mpr ⟨_, scan_storageNode hplain slot _, ih _⟩
  have hclose : ∀ events : List Event,
      Runs.exec step ⟨.content, ["StorageList".toList], true, events⟩ "</StorageList>\n".toList =
        some ⟨.content, [], true, events ++ [.endTag 1 "StorageList".toList]⟩ := fun _ => rfl
  have hall : Runs.exec step start (storageListText l) = _ :=
    Runs.exec_append.mpr ⟨_, Runs.exec_append.mpr ⟨_, Runs.exec_append.mpr ⟨_, hheader, hroot⟩,
      hnodes _ _⟩, hclose _⟩
  unfold parse
  rw [hall]
  rfl

end Document

/-! ## The items that are loaded -/

/-- The item of an entry whose description is the resource `id`. -/
def itemOf (res : Resources) (l : StorageList) (id : Slot → Int) (slot : Slot) : Item where
  path := some slot.path
  descriptionId := id slot
  description := some (res.getString (id slot))
  primary := slot = .primary
  removable := (l.get slot).removable ≠ 0
  emulated := (l.get slot).emulated ≠ 0
  mtpReserve := 0
  allowMassStorage := (l.get slot).allowMassStorage ≠ 0
  maxFileSize := 0

theorem boolText_eq (b : Bool) :
    (if boolText b = "true".toList then true
      else if boolText b = "false".toList then false else false) = b := by
  cases b <;> decide

theorem loadNode_node {res : Resources} {l : StorageList} {id : Slot → Int} {slot : Slot}
    (hid : lookupReference res (l.get slot).storageDescription = some (id slot))
    (hpos : 0 < id slot) :
    loadNode res (nodeAttributes l slot) = some (true, itemOf res l id slot) := by
  have hdescription : getAttributeValue (nodeAttributes l slot) "storageDescription".toList =
      some (l.get slot).storageDescription := rfl
  have hne : id slot ≠ 0 := by omega
  have hresource : ∀ d, getResourceId res (nodeAttributes l slot) "storageDescription".toList d =
      some (id slot) := by
    intro d
    unfold getResourceId
    rw [hdescription]
    simp only [hid, Option.map_some, if_pos hne]
  have htext : getText res (nodeAttributes l slot) "storageDescription".toList none =
      some (some (res.getString (id slot))) := by
    unfold getText
    rw [hresource]
    simp only [Option.map_some, if_pos hne]
  have hpath : getString (nodeAttributes l slot) "mountPoint".toList none = some slot.path := rfl
  have hprimary : getBoolean (nodeAttributes l slot) "primary".toList false =
      decide (slot = .primary) := boolText_eq _
  have hremovable : getBoolean (nodeAttributes l slot) "removable".toList false =
      decide ((l.get slot).removable ≠ 0) := boolText_eq _
  have hemulated : getBoolean (nodeAttributes l slot) "emulated".toList false =
      decide ((l.get slot).emulated ≠ 0) := boolText_eq _
  have hallow : getBoolean (nodeAttributes l slot) "allowMassStorage".toList false =
      decide ((l.get slot).allowMassStorage ≠ 0) := boolText_eq _
  have hmtp : getInt (nodeAttributes l slot) "mtpReserve".toList 0 = 0 := rfl
  have hmax : getInt (nodeAttributes l slot) "maxFileSize".toList 0 = 0 := rfl
  have hminus : id slot ≠ -1 := by omega
  unfold loadNode itemOf
  rw [hresource, htext, Option.bind_some, Option.map_some, hpath, hprimary, hremovable, hemulated,
    hallow, hmtp, hmax]
  simp [hminus]

/-- **Every entry is loaded.** -/
theorem readStorageList_text {res : Resources} {l : StorageList} {id : Slot → Int}
    (hplain : ∀ slot, IsPlain (l.get slot).storageDescription)
    (hid : ∀ slot, lookupReference res (l.get slot).storageDescription = some (id slot))
    (hpos : ∀ slot, 0 < id slot) :
    readStorageList res (storageListText l) =
      some ([Slot.primary, .secondary, .usbdisk].map (itemOf res l id)) := by
  have hnode : ∀ (slot : Slot) (items : List Item),
      Runs.exec (readEvent res)
        ⟨[none, some "StorageList".toList, none, none, none], items⟩ (nodeEvents l slot) =
      some ⟨[none, some "StorageList".toList, none, none, none],
        items ++ [itemOf res l id slot]⟩ := by
    intro slot items
    have hstart : readEvent res ⟨[none, some "StorageList".toList, none, none, none], items⟩
        (.startTag 2 "storage".toList (nodeAttributes l slot)) =
        some ⟨[none, some "StorageList".toList, some "storage".toList, none, none],
          items ++ [itemOf res l id slot]⟩ := by
      have hloads : readEvent res ⟨[none, some "StorageList".toList, none, none, none], items⟩
          (.startTag 2 "storage".toList (nodeAttributes l slot)) =
          (loadNode res (nodeAttributes l slot)).map (fun loaded =>
            if loaded.1 then
              ⟨[none, some "StorageList".toList, some "storage".toList, none, none],
                items ++ [loaded.2]⟩
            else ⟨[none, some "StorageList".toList, some "storage".toList, none, none], items⟩) :=
        rfl
      rw [hloads, loadNode_node (hid slot) (hpos slot)]
      rfl
    exact Runs.exec_cons_some.mpr ⟨_, hstart, rfl⟩
  have hnodes : ∀ (slots : List Slot) (items : List Item),
      Runs.exec (readEvent res)
        ⟨[none, some "StorageList".toList, none, none, none], items⟩
        (slots.flatMap (nodeEvents l)) =
      some ⟨[none, some "StorageList".toList, none, none, none],
        items ++ slots.map (itemOf res l id)⟩ := by
    intro slots
    induction slots with
    | nil =>
        intro items
        simp
    | cons slot slots ih =>
        intro items
        have hrest := ih (items ++ [itemOf res l id slot])
        rw [List.append_assoc, List.singleton_append] at hrest
        exact Runs.exec_append.mpr ⟨_, hnode slot items, hrest⟩
  have hroot : readEvent res ⟨List.replicate 5 none, []⟩ (.startTag 1 "StorageList".toList []) =
      some ⟨[none, some "StorageList".toList, none, none, none], []⟩ := rfl
  unfold readStorageList
  rw [parse_storageListText hplain, Option.bind_some, List.cons_append,
    Runs.exec_cons_some.mpr ⟨_, hroot, Runs.exec_append.mpr ⟨_, hnodes _ _, rfl⟩⟩]
  rfl

/-! ## Both files agree -/

/-- The id of a string. -/
def stringId (res : Resources) (name : List Char) : Int :=
  res.getIdentifier name "string".toList res.packageName

/-- The system has the strings that the list names.  Ids of resources are
positive, and different strings have different ids. -/
structure Resources.Known (res : Resources) : Prop where
  internal : 0 < stringId res "storage_internal".toList
  sdcard : 0 < stringId res "storage_sd_card".toList
  usb : 0 < stringId res "storage_usb".toList
  distinct : stringId res "storage_internal".toList ≠ stringId res "storage_sd_card".toList

/-- An item is what the entry of a slot says, and what `fstab.storages` says. -/
structure Agrees (res : Resources) (l : StorageList) (slot : Slot) (item : Item) : Prop where
  path : item.path = some slot.path
  removable : item.removable = true ↔ (l.get slot).removable ≠ 0
  emulated : item.emulated = true ↔ (l.get slot).emulated ≠ 0
  allowMassStorage : item.allowMassStorage = true ↔ (l.get slot).allowMassStorage ≠ 0
  flag : ",nonremovable".toList <:+: getVoldmanaged l slot ↔ item.removable = false
  primary : item.primary = true ↔ slot = .primary
  internal : slot ≠ .usbdisk →
    (item.descriptionId = stringId res "storage_internal".toList ↔ (l.get slot).emmc ≠ 0)

/-- The id of the description of a slot. -/
def slotId (res : Resources) (l : StorageList) : Slot → Int
  | .usbdisk => stringId res "storage_usb".toList
  | slot =>
      if (l.get slot).emmc ≠ 0 then stringId res "storage_internal".toList
      else stringId res "storage_sd_card".toList

theorem slotId_pos {res : Resources} (hres : res.Known) (l : StorageList) (slot : Slot) :
    0 < slotId res l slot := by
  have hcard : 0 < (if (l.get slot).emmc ≠ 0 then stringId res "storage_internal".toList
      else stringId res "storage_sd_card".toList) := by
    by_cases h : (l.get slot).emmc ≠ 0
    · rw [if_pos h]
      exact hres.internal
    · rw [if_neg h]
      exact hres.sdcard
  cases slot with
  | primary => exact hcard
  | secondary => exact hcard
  | usbdisk => exact hres.usb

/-- A description is the internal storage or the SD card. -/
theorem lookupReference_card (res : Resources) (e : Int) :
    lookupReference res (if e ≠ 0 then strStorageInternal else strStorageSdcard) =
      some (if e ≠ 0 then stringId res "storage_internal".toList
        else stringId res "storage_sd_card".toList) := by
  by_cases h : e ≠ 0
  · rw [if_pos h, if_pos h]
    rfl
  · rw [if_neg h, if_neg h]
    rfl

theorem lookupReference_slot {l : StorageList} (h : Placed l) (res : Resources) (slot : Slot) :
    lookupReference res (l.get slot).storageDescription = some (slotId res l slot) := by
  cases slot with
  | primary =>
      change lookupReference res l.primary.storageDescription = _
      rw [h.first]
      exact lookupReference_card res l.primary.emmc
  | secondary =>
      change lookupReference res l.secondary.storageDescription = _
      rw [h.second]
      exact lookupReference_card res l.secondary.emmc
  | usbdisk =>
      change lookupReference res l.usbdisk.storageDescription = _
      rw [h.third]
      rfl

theorem description_plain {l : StorageList} (h : Placed l) (slot : Slot) :
    IsPlain (l.get slot).storageDescription := by
  have hcard : ∀ e : Int, IsPlain (if e ≠ 0 then strStorageInternal else strStorageSdcard) := by
    intro e
    split <;> decide +kernel
  cases slot with
  | primary => exact h.first ▸ hcard l.primary.emmc
  | secondary => exact h.second ▸ hcard l.secondary.emmc
  | usbdisk => exact h.third ▸ (by decide +kernel)

theorem itemOf_agrees {res : Resources} (hres : res.Known) (l : StorageList) (slot : Slot) :
    Agrees res l slot (itemOf res l (slotId res l) slot) where
  path := rfl
  removable := decide_eq_true_iff
  emulated := decide_eq_true_iff
  allowMassStorage := decide_eq_true_iff
  flag := by
    rw [getVoldmanaged_nonremovable]
    exact Iff.symm (decide_eq_false_iff_not.trans not_not)
  primary := decide_eq_true_iff
  internal := by
    intro hslot
    have hid : slotId res l slot = if (l.get slot).emmc ≠ 0 then
        stringId res "storage_internal".toList else stringId res "storage_sd_card".toList := by
      cases slot with
      | primary => rfl
      | secondary => rfl
      | usbdisk => exact absurd rfl hslot
    change slotId res l slot = _ ↔ _
    rw [hid]
    by_cases h : (l.get slot).emmc ≠ 0
    · rw [if_pos h]
      exact iff_of_true rfl h
    · rw [if_neg h]
      exact iff_of_false (Ne.symm hres.distinct) h

/-- **The storage configuration agrees across its two files.**  Whatever the
properties and the partition numbers are, `/fstab.storages` is the template with
the text of each card's slot in the place of the card, and reading
`storage_list.xml` back yields for every slot the values of the same entry.
Exactly the first item is primary, and it is not removable; of the first two the
one on the eMMC, and no other, is described as internal. -/
theorem storages_agree (b : Boot) (res : Resources) (t : Template) (hres : res.Known)
    (htemplate : b.template = some t.text) (hstorages : b.storagesWritable = true)
    (hlist : b.listWritable = true) (hroom : (b.storageList.filled t.text).length < 2048) :
    ∃ booted xml first second third,
      initMsmProperties b = some booted ∧
      b.storageList.IsCard 1 (b.storageList.cardSlot 1) ∧
      b.storageList.IsCard 2 (b.storageList.cardSlot 2) ∧
      (∀ slot, slot ≠ .usbdisk → slot.name ++ ":".toList ++ partitionText
        (b.getPartNum (b.storageList.get slot).sdcc "usbmsc".toList) <+:
          getVoldmanaged b.storageList slot) ∧
      booted.storages = (0, some (b.storageList.filled t.text)) ∧
      booted.list = (0, some xml) ∧
      readStorageList res xml = some [first, second, third] ∧
      Agrees res b.storageList .primary first ∧
      Agrees res b.storageList .secondary second ∧
      Agrees res b.storageList .usbdisk third ∧
      first.removable = false ∧
      (b.storageList.primary.emmc ≠ 0 ↔ b.storageList.secondary.emmc = 0) := by
  have hplaced : Placed b.storageList := finalList_placed _ _ _
  have hread := readStorageList_text (description_plain hplaced)
    (lookupReference_slot hplaced res) (slotId_pos hres b.storageList)
  have hfixed : (itemOf res b.storageList (slotId res b.storageList) .primary).removable = false :=
    decide_eq_false (not_not.mpr hplaced.fixed)
  unfold initMsmProperties
  rw [htemplate, hstorages, hlist, createFtabStorage_filled hplaced hroom]
  exact ⟨_, _, _, _, _, rfl, hplaced.isCard (Or.inl rfl), hplaced.isCard (Or.inr rfl),
    fun _ hslot => getVoldmanaged_partition _ _ _ hslot, rfl, rfl,
    hread, itemOf_agrees hres _ _, itemOf_agrees hres _ _, itemOf_agrees hres _ _, hfixed,
    hplaced.emmc⟩

/-- Two lines of `fstab.template`. -/
def shippedTemplate : Template where
  text := "/devices/msm_sdcc.1/mmc_host auto auto uid=1023 voldmanaged=%1\n".toList ++
    "/devices/msm_sdcc.2/mmc_host auto auto uid=1023 voldmanaged=%2\n".toList
  textual := by decide +kernel
  first := by decide +kernel
  second := by decide +kernel

/-- A resource table with the three strings. -/
def frameworkResources : Resources where
  packageName := "android".toList
  getIdentifier := fun name _ _ =>
    if name = "storage_internal".toList then 17040636
    else if name = "storage_sd_card".toList then 17040637
    else if name = "storage_usb".toList then 17040638
    else 0
  getString := fun id => if id = 17040636 then "Internal storage".toList else "SD card".toList

/-- The cards are exchanged by both properties; one has a partition for it. -/
def swappedBoot : Boot where
  llcon := none
  plannedSwap := some "1".toList
  swapSdcc := some "2".toList
  getPartNum := fun sdcc _ => if sdcc = 2 then 25 else -1
  template := some shippedTemplate.text
  storagesWritable := true
  listWritable := true

theorem storages_agree_swapped :
    (swappedBoot.storageList.filled shippedTemplate.text).length < 2048 ∧
      ∃ booted xml first second third,
        initMsmProperties swappedBoot = some booted ∧
        swappedBoot.storageList.IsCard 1 (swappedBoot.storageList.cardSlot 1) ∧
        swappedBoot.storageList.IsCard 2 (swappedBoot.storageList.cardSlot 2) ∧
        (∀ slot, slot ≠ .usbdisk → slot.name ++ ":".toList ++ partitionText
          (swappedBoot.getPartNum (swappedBoot.storageList.get slot).sdcc "usbmsc".toList) <+:
            getVoldmanaged swappedBoot.storageList slot) ∧
        booted.storages = (0, some (swappedBoot.storageList.filled shippedTemplate.text)) ∧
        booted.list = (0, some xml) ∧
        readStorageList frameworkResources xml = some [first, second, third] ∧
        Agrees frameworkResources swappedBoot.storageList .primary first ∧
        Agrees frameworkResources swappedBoot.storageList .secondary second ∧
        Agrees frameworkResources swappedBoot.storageList .usbdisk third ∧
        first.removable = false ∧
        (swappedBoot.storageList.primary.emmc ≠ 0 ↔
          swappedBoot.storageList.secondary.emmc = 0) := by
  have hroom : (swappedBoot.storageList.filled shippedTemplate.text).length < 2048 := by
    decide +kernel
  have hres : frameworkResources.Known := by
    constructor <;> decide
  exact ⟨hroom, storages_agree swappedBoot frameworkResources shippedTemplate hres rfl rfl rfl
    hroom⟩

end MountService
