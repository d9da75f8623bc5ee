import JsrD10f.Reading
import JsrD10f.RejectedResponses

/-!
# Answers over the parcel

The response functions write numbers, texts and bytes one after the other, and the
client has to know where each of them ends: nothing in the parcel says so but the
counts, the lengths and the kinds of records that were written before.

Here is the other side, a reader for the answer of every response function.  What a
function was given, as far as it is passed on, is read back from what it has written,
and nothing is left over.  With the numbers in front this makes the frame that
`RIL_onRequestComplete` sends to a client the token of its request, the error and the
vendor's response.
-/

namespace Libril.Responses

open Parcel Reading

/-! ## Numbers, texts and bytes -/

def readInt : Reader UInt8 Int :=
  StateT.mk takeInt32

/-- A text; a missing one has a negative length. -/
def readText : Reader UInt8 Text :=
  StateT.mk fun bytes => some (takeString bytes)

def readChar : Reader UInt8 UInt8 :=
  (fun v => .ofNat v.toNat) <$> readInt

/-- `len` bytes and their padding. -/
def readBytes (len : Nat) : Reader UInt8 (List UInt8) :=
  StateT.mk (takePadded len)

def readInt64 : Reader UInt8 Int :=
  (fun low high => low % 4294967296 + 4294967296 * high) <$> readInt <*> readInt

/-- A list with its number of entries in front. -/
def readList {α : Type} (record : Reader UInt8 α) : Reader UInt8 (List α) := do
  let num ← readInt
  times num.toNat record

/-- The text is shorter than the largest length. -/
def TextFits (t : Text) : Prop :=
  ∀ text ∈ t, text.length < 2147483647

instance (t : Text) : Decidable (TextFits t) :=
  inferInstanceAs (Decidable (∀ text ∈ t, _))

theorem takes_int {v : Int} (h : IsInt32 v) : Takes readInt (encodeInt32 v) v :=
  fun rest => takeInt32_encodeInt32 h.1 h.2 rest

theorem takes_char (c : UInt8) : Takes readChar (writeChar c) c := by
  have hlt := c.toNat_lt
  have h := (takes_int (v := (c.toNat : Int)) ⟨by omega, by omega⟩).map
    fun v => UInt8.ofNat v.toNat
  rwa [Int.toNat_natCast, UInt8.ofNat_toNat] at h

theorem padSize_le (len : Nat) : len ≤ padSize len := by
  unfold padSize
  omega

/-- Bytes are padded to the next number. -/
theorem takePadded_written (data rest : List UInt8) :
    takePadded data.length (data ++ List.replicate (padSize data.length - data.length) 0 ++ rest) =
      some (data, rest) := by
  have hle := padSize_le data.length
  have hlen : (data ++ List.replicate (padSize data.length - data.length) 0).length =
      padSize data.length := by
    rw [List.length_append, List.length_replicate]
    omega
  rw [takePadded, if_pos (by rw [List.length_append, hlen]; omega)]
  rw [List.drop_left' hlen, List.append_assoc, List.take_left' rfl]

theorem takes_bytes {data : List UInt8} {len : Nat} (h : data.length = len) :
    Takes (readBytes len) (writeBytes data) data := by
  intro rest
  rw [← h]
  exact takePadded_written data rest

theorem units_encodeUnit (text : List UInt16) : units (text.flatMap encodeUnit) = text := by
  induction text with
  | nil => rfl
  | cons u text ih =>
      have hlt := u.toNat_lt
      have hunit : u.toNat % 256 % 256 + 256 * (u.toNat / 256 % 256) = u.toNat := by omega
      simp only [List.flatMap_cons, encodeUnit, List.cons_append, List.nil_append, units, ih,
        UInt8.toNat_ofNat', Nat.reducePow, hunit, UInt16.ofNat_toNat]

theorem length_encodeUnits (text : List UInt16) :
    (text.flatMap encodeUnit).length = text.length * 2 := by
  simp [List.length_flatMap, encodeUnit]

theorem takeString_missing (rest : List UInt8) :
    takeString (writeStringToParcel none ++ rest) = (none, rest) := by
  have hlength : takeLength (writeStringToParcel none ++ rest) = (-1, rest) := by
    rw [takeLength, writeStringToParcel, takeInt32_encodeInt32 (by decide) (by decide)]
    rfl
  rw [takeString, hlength]
  exact if_neg fun hrange => absurd hrange.1 (by decide)

theorem takeString_written {text : List UInt16} (h : text.length < 2147483647)
    (rest : List UInt8) :
    takeString (writeStringToParcel (some text) ++ rest) = (some text, rest) := by
  have hbytes := length_encodeUnits (text ++ [0])
  rw [List.length_append, List.length_singleton] at hbytes
  have htaken := takePadded_written ((text ++ [0]).flatMap encodeUnit) rest
  have hlength : takeLength (writeStringToParcel (some text) ++ rest) =
      ((text.length : Int), (text ++ [0]).flatMap encodeUnit ++
        List.replicate (padSize ((text ++ [0]).flatMap encodeUnit).length -
          ((text ++ [0]).flatMap encodeUnit).length) 0 ++ rest) := by
    rw [takeLength, writeStringToParcel, encodeString, List.append_assoc, List.append_assoc,
      takeInt32_encodeInt32 (by omega) (by omega), Option.getD_some, List.append_assoc]
  have hrange : (0 : Int) ≤ text.length ∧ (text.length : Int) < 2147483647 := by omega
  rw [hbytes] at htaken
  rw [takeString, hlength]
  dsimp only
  rw [if_pos hrange, Int.toNat_natCast, hbytes, htaken]
  dsimp only
  rw [units_encodeUnit, List.take_left' rfl]

theorem takes_text {t : Text} (h : TextFits t) : Takes readText (writeStringToParcel t) t := by
  intro rest
  cases t with
  | none => exact congrArg some (takeString_missing rest)
  | some text => exact congrArg some (takeString_written (h text rfl) rest)

theorem takes_int64 {v : Int} (hlow : -9223372036854775808 ≤ v) (hhigh : v < 9223372036854775808) :
    Takes readInt64 (encodeInt64 v) v := by
  have hword : IsInt32 (Int.bmod (v % 4294967296) 4294967296) := by
    unfold IsInt32
    have := Int.le_bmod (x := v % 4294967296) (m := 4294967296) (by decide)
    have := Int.bmod_lt (x := v % 4294967296) (m := 4294967296) (by decide)
    omega
  have hfirst := takes_int hword
  rw [encodeInt32_bmod] at hfirst
  have hsecond := takes_int (v := v / 4294967296) ⟨by omega, by omega⟩
  have h := (hfirst.map fun low high => low % 4294967296 + 4294967296 * high).seq hsecond
  have hvalue : Int.bmod (v % 4294967296) 4294967296 % 4294967296 +
      4294967296 * (v / 4294967296) = v := by
    have := Int.bmod_emod (x := v % 4294967296) (m := 4294967296)
    omega
  rwa [hvalue] at h

/-- The entries come back if each of them does.  A negative number has none. -/
theorem takes_list {α : Type} {record : Reader UInt8 α} {word : Nat → List UInt8}
    {value : Nat → α} {num : Int} (hnum : IsInt32 num)
    (h : ∀ i, Takes record (word i) (value i)) :
    Takes (readList record) (encodeInt32 num ++ writeRecords word num.toNat)
      ((List.range num.toNat).map value) := by
  refine (takes_int hnum).bind ?_
  have hentries := Takes.times (List.range num.toNat) fun i _ => h i
  rwa [List.length_range] at hentries

/-! ## The records -/

/-- The numbers have 32 bits and the texts a length. -/
structure FieldsFit (ints : List Int) (texts : List Text) : Prop where
  ints : ∀ v ∈ ints, IsInt32 v
  texts : ∀ t ∈ texts, TextFits t

def UusInfo.Typed (u : UusInfo) : Prop :=
  FieldsFit [u.uusType, u.uusDcs, u.uusLength] [] ∧
    ∀ data ∈ u.uusData, u.uusLength.toNat ≤ data.length

structure Call.Typed (c : Call) : Prop where
  fields : FieldsFit [c.state, c.index, c.toa, c.isMpty, c.isMT, c.als, c.isVoice,
    c.isVoicePrivacy, c.numberPresentation, c.namePresentation] [c.number, c.name]
  uus : ∀ u ∈ c.uusInfo, UusInfo.Typed u

def SmsResponse.Typed (r : SmsResponse) : Prop :=
  FieldsFit [r.messageRef, r.errorCode] [r.ackPDU]

def DataCallV4.Typed (d : DataCallV4) : Prop :=
  FieldsFit [d.cid, d.active] [d.type, d.address]

def DataCallV6.Typed (d : DataCallV6) : Prop :=
  FieldsFit [d.status, d.suggestedRetryTime, d.cid, d.active]
    [d.type, d.ifname, d.addresses, d.dnses, d.gateways]

def SimIoResponse.Typed (r : SimIoResponse) : Prop :=
  FieldsFit [r.sw1, r.sw2] [r.simResponse]

def callForwardTyped (c : CallForwardInfo) : Prop :=
  FieldsFit [c.status, c.reason, c.serviceClass, c.toa, c.timeSeconds] [c.number]

def NeighboringCell.Typed (c : NeighboringCell) : Prop :=
  FieldsFit [c.rssi] [c.cid]

def AppStatus.Typed (a : AppStatus) : Prop :=
  FieldsFit [a.appType, a.appState, a.persoSubstate, a.pin1Replaced, a.pin1, a.pin2]
    [a.aidPtr, a.appLabelPtr]

structure CardStatus.Typed (s : CardStatus) : Prop where
  fields : FieldsFit [s.cardState, s.universalPinState, s.gsmUmtsSubscriptionAppIndex,
    s.cdmaSubscriptionAppIndex, s.imsSubscriptionAppIndex, s.numApplications] []
  applications : ∀ i, (s.applications i).Typed

def readUus : Reader UInt8 (Option UusInfo) := do
  let present ← readInt
  if present = 0 then pure none
  else do
    let uusType ← readInt
    let uusDcs ← readInt
    let uusLength ← readInt
    (fun data => some ⟨uusType, uusDcs, uusLength, some data⟩) <$> readBytes uusLength.toNat

def readCall : Reader UInt8 Call :=
  Call.mk <$> readInt <*> readInt <*> readInt <*> readInt <*> readInt <*> readInt <*> readInt <*>
    readInt <*> readText <*> readInt <*> readText <*> readInt <*> readUus

def readSms : Reader UInt8 SmsResponse :=
  SmsResponse.mk <$> readInt <*> readText <*> readInt

def readDataCallV4 : Reader UInt8 DataCallV4 :=
  DataCallV4.mk <$> readInt <*> readInt <*> readText <*> readText

/-- A client of this build has no retry time and takes 0 for it. -/
def readRetryTime (m : Marshaller) : Reader UInt8 Int :=
  if m.hcRadio then pure 0 else readInt

def readDataCallV6 (m : Marshaller) : Reader UInt8 DataCallV6 :=
  DataCallV6.mk <$> readInt <*> readRetryTime m <*> readInt <*> readInt <*> readText <*>
    readText <*> readText <*> readText <*> readText

def readSimIo : Reader UInt8 SimIoResponse :=
  SimIoResponse.mk <$> readInt <*> readInt <*> readText

def readCallForward : Reader UInt8 CallForwardInfo :=
  CallForwardInfo.mk <$> readInt <*> readInt <*> readInt <*> readInt <*> readText <*> readInt

def readNeighboringCell : Reader UInt8 NeighboringCell :=
  NeighboringCell.mk <$> readInt <*> readText

def readAppStatus : Reader UInt8 AppStatus :=
  AppStatus.mk <$> readInt <*> readInt <*> readInt <*> readText <*> readText <*> readInt <*>
    readInt <*> readInt

/-- The user data of a call that are passed on: none before version 3, and none
without a pointer to them. -/
def toldUus (m : Marshaller) (uusInfo : Option UusInfo) : Option UusInfo :=
  match (if m.version < 3 then none else uusInfo) with
  | some ⟨uusType, uusDcs, uusLength, some uusData⟩ =>
      some ⟨uusType, uusDcs, uusLength, some (uusData.take uusLength.toNat)⟩
  | _ => none

def Call.told (m : Marshaller) (c : Call) : Call :=
  { c with uusInfo := toldUus m c.uusInfo }

def DataCallV6.told (m : Marshaller) (d : DataCallV6) : DataCallV6 :=
  { d with suggestedRetryTime := if m.hcRadio then 0 else d.suggestedRetryTime }

theorem FieldsFit.int {ints : List Int} {texts : List Text} (h : FieldsFit ints texts) {v : Int}
    (hv : v ∈ ints) : Takes readInt (encodeInt32 v) v :=
  takes_int (h.ints v hv)

theorem FieldsFit.text {ints : List Int} {texts : List Text} (h : FieldsFit ints texts)
    {t : Text} (ht : t ∈ texts) : Takes readText (writeStringToParcel t) t :=
  takes_text (h.texts t ht)

theorem takes_simIo {r : SimIoResponse} (h : r.Typed) :
    Takes readSimIo (encodeInt32 r.sw1 ++ encodeInt32 r.sw2 ++
      writeStringToParcel r.simResponse) r := by
  cases r
  apply_rules [Takes.seq, Takes.map, h.int, h.text] <;> simp

theorem takes_sms {r : SmsResponse} (h : r.Typed) :
    Takes readSms (encodeInt32 r.messageRef ++ writeStringToParcel r.ackPDU ++
      encodeInt32 r.errorCode) r := by
  cases r
  apply_rules [Takes.seq, Takes.map, h.int, h.text] <;> simp

theorem takes_dataCallV4 {d : DataCallV4} (h : d.Typed) :
    Takes readDataCallV4 (writeDataCallV4 d) d := by
  cases d
  apply_rules [Takes.seq, Takes.map, h.int, h.text] <;> simp

theorem takes_retryTime (m : Marshaller) {v : Int} (h : IsInt32 v) :
    Takes (readRetryTime m) (if m.hcRadio then [] else encodeInt32 v)
      (if m.hcRadio then 0 else v) := by
  unfold readRetryTime
  cases m.hcRadio with
  | true => exact Takes.pure 0
  | false => exact takes_int h

theorem takes_dataCallV6 (m : Marshaller) {d : DataCallV6} (h : d.Typed) :
    Takes (readDataCallV6 m) (writeDataCallV6 m d) (d.told m) := by
  have hretry := takes_retryTime m (h.ints d.suggestedRetryTime (by simp))
  cases d
  apply_rules [Takes.seq, Takes.map, h.int, h.text, hretry] <;> simp

theorem takes_callForward {c : CallForwardInfo} (h : callForwardTyped c) :
    Takes readCallForward (writeCallForward c) c := by
  cases c
  apply_rules [Takes.seq, Takes.map, FieldsFit.int h, FieldsFit.text h] <;> simp

theorem takes_neighboringCell {c : NeighboringCell} (h : c.Typed) :
    Takes readNeighboringCell (encodeInt32 c.rssi ++ writeStringToParcel c.cid) c := by
  cases c
  apply_rules [Takes.seq, Takes.map, h.int, h.text] <;> simp

theorem takes_appStatus {a : AppStatus} (h : a.Typed) :
    Takes readAppStatus (writeAppStatus a) a := by
  cases a
  apply_rules [Takes.seq, Takes.map, h.int, h.text] <;> simp

theorem takes_noUus : Takes readUus (encodeInt32 0) none := by
  rw [← List.append_nil (encodeInt32 0)]
  exact (takes_int (by decide)).bind (Takes.pure none)

theorem takes_uus {u : UusInfo} {data : List UInt8} (h : UusInfo.Typed u)
    (hdata : u.uusData = some data) :
    Takes readUus (encodeInt32 1 ++ encodeInt32 u.uusType ++ encodeInt32 u.uusDcs ++
        encodeInt32 u.uusLength ++ writeBytes (data.take u.uusLength.toNat))
      (some { u with uusData := some (data.take u.uusLength.toNat) }) := by
  have hlen : (data.take u.uusLength.toNat).length = u.uusLength.toNat :=
    List.length_take_of_le (h.2 data hdata)
  rw [List.append_assoc, List.append_assoc, List.append_assoc]
  refine (takes_int (by decide)).bind ?_
  rw [if_neg (by decide)]
  refine (h.1.int (by simp)).bind ?_
  refine (h.1.int (by simp)).bind ?_
  refine (h.1.int (by simp)).bind ?_
  exact (takes_bytes hlen).map _

/-- The user data come last, and only if there are any. -/
theorem takes_call (m : Marshaller) {c : Call} (h : c.Typed) :
    Takes readCall (writeCall m c) (c.told m) := by
  have hf := h.fields
  have huus : ∀ u ∈ (if m.version < 3 then none else c.uusInfo), UusInfo.Typed u := by
    split
    · intro u hu
      cases hu
    · exact h.uus
  unfold writeCall Call.told toldUus
  generalize (if m.version < 3 then none else c.uusInfo) = shown at huus
  apply Takes.seq
  · apply_rules [Takes.seq, Takes.map, hf.int, hf.text] <;> simp
  · match shown, huus with
    | none, _ => exact takes_noUus
    | some ⟨_, _, _, none⟩, _ => exact takes_noUus
    | some ⟨uusType, uusDcs, uusLength, some data⟩, huus =>
        have htyped := huus ⟨uusType, uusDcs, uusLength, some data⟩ rfl
        have hread := takes_uus htyped rfl
        exact hread

/-- What the client learns about a card. -/
structure CardReport where
  cardState : Int
  universalPinState : Int
  gsmUmtsSubscriptionAppIndex : Int
  cdmaSubscriptionAppIndex : Int
  imsSubscriptionAppIndex : Int
  applications : List AppStatus

def readCard : Reader UInt8 CardReport :=
  CardReport.mk <$> readInt <*> readInt <*> readInt <*> readInt <*> readInt <*>
    readList readAppStatus

/-- A card without a field for its IMS application has index -1. -/
def CardStatus.told (s : CardStatus) (imsIndex : Int) : CardReport :=
  ⟨s.cardState, s.universalPinState, s.gsmUmtsSubscriptionAppIndex, s.cdmaSubscriptionAppIndex,
    imsIndex, (List.range s.numApplications.toNat).map s.applications⟩

theorem takes_card {s : CardStatus} (h : s.Typed) {imsIndex : Int} (hims : IsInt32 imsIndex) :
    Takes readCard (writeCardStatus s imsIndex) (s.told imsIndex) := by
  have hf := h.fields
  have happs := takes_list (hf.ints s.numApplications (by simp)) fun i =>
    takes_appStatus (h.applications i)
  have hfront := ((((hf.int (v := s.cardState) (by simp)).map CardReport.mk).seq
    (hf.int (v := s.universalPinState) (by simp))).seq
    (hf.int (v := s.gsmUmtsSubscriptionAppIndex) (by simp))).seq
    (hf.int (v := s.cdmaSubscriptionAppIndex) (by simp))
  exact (hfront.seq (takes_int hims)).seq happs

/-- The member of the union that the kind of the cell names. -/
inductive CellMember where
  | gsm (cell : CellGsm)
  | wcdma (cell : CellWcdma)
  | cdma (cell : CellCdma)
  | lte (cell : CellLte)

/-- What the client learns about a cell; nothing but the head if it has no kind. -/
structure CellReport where
  cellInfoType : Int
  registered : Int
  timeStampType : Int
  timeStamp : Int
  member : Option CellMember

def CellGsm.Typed (c : CellGsm) : Prop :=
  FieldsFit [c.mcc, c.mnc, c.lac, c.cid, c.signalStrength, c.bitErrorRate] []

def CellWcdma.Typed (c : CellWcdma) : Prop :=
  FieldsFit [c.mcc, c.mnc, c.lac, c.cid, c.psc, c.signalStrength, c.bitErrorRate] []

def CellCdma.Typed (c : CellCdma) : Prop :=
  FieldsFit [c.networkId, c.systemId, c.basestationId, c.longitude, c.latitude, c.cdmaDbm,
    c.cdmaEcio, c.evdoDbm, c.evdoEcio, c.evdoSignalNoiseRatio] []

def CellLte.Typed (c : CellLte) : Prop :=
  FieldsFit [c.mcc, c.mnc, c.ci, c.pci, c.tac, c.signalStrength, c.rsrp, c.rsrq, c.rssnr, c.cqi,
    c.timingAdvance] []

structure CellInfo.Typed (c : CellInfo) : Prop where
  fields : FieldsFit [c.cellInfoType, c.registered, c.timeStampType] []
  timeStamp : -9223372036854775808 ≤ c.timeStamp ∧ c.timeStamp < 9223372036854775808
  gsm : c.gsm.Typed
  wcdma : c.wcdma.Typed
  cdma : c.cdma.Typed
  lte : c.lte.Typed

def readCellGsm : Reader UInt8 CellGsm :=
  CellGsm.mk <$> readInt <*> readInt <*> readInt <*> readInt <*> readInt <*> readInt

def readCellWcdma : Reader UInt8 CellWcdma :=
  CellWcdma.mk <$> readInt <*> readInt <*> readInt <*> readInt <*> readInt <*> readInt <*> readInt

def readCellCdma : Reader UInt8 CellCdma :=
  CellCdma.mk <$> readInt <*> readInt <*> readInt <*> readInt <*> readInt <*> readInt <*>
    readInt <*> readInt <*> readInt <*> readInt

def readCellLte : Reader UInt8 CellLte :=
  CellLte.mk <$> readInt <*> readInt <*> readInt <*> readInt <*> readInt <*> readInt <*>
    readInt <*> readInt <*> readInt <*> readInt <*> readInt

def readMember : Option CellKind → Reader UInt8 (Option CellMember)
  | some .gsm => (some ∘ .gsm) <$> readCellGsm
  | some .wcdma => (some ∘ .wcdma) <$> readCellWcdma
  | some .cdma => (some ∘ .cdma) <$> readCellCdma
  | some .lte => (some ∘ .lte) <$> readCellLte
  | none => pure none

def readCellInfo (m : Marshaller) : Reader UInt8 CellReport := do
  let cellInfoType ← readInt
  CellReport.mk cellInfoType <$> readInt <*> readInt <*> readInt64 <*>
    readMember (m.header.cellKind cellInfoType)

def CellInfo.member (c : CellInfo) : Option CellKind → Option CellMember
  | some .gsm => some (.gsm c.gsm)
  | some .wcdma => some (.wcdma c.wcdma)
  | some .cdma => some (.cdma c.cdma)
  | some .lte => some (.lte c.lte)
  | none => none

def CellInfo.told (m : Marshaller) (c : CellInfo) : CellReport :=
  ⟨c.cellInfoType, c.registered, c.timeStampType, c.timeStamp,
    c.member (m.header.cellKind c.cellInfoType)⟩

theorem takes_cellGsm {c : CellGsm} (h : c.Typed) :
    Takes readCellGsm (encodeInt32 c.mcc ++ encodeInt32 c.mnc ++ encodeInt32 c.lac ++
      encodeInt32 c.cid ++ encodeInt32 c.signalStrength ++ encodeInt32 c.bitErrorRate) c := by
  cases c
  apply_rules [Takes.seq, Takes.map, h.int] <;> simp

theorem takes_cellWcdma {c : CellWcdma} (h : c.Typed) :
    Takes readCellWcdma (encodeInt32 c.mcc ++ encodeInt32 c.mnc ++ encodeInt32 c.lac ++
      encodeInt32 c.cid ++ encodeInt32 c.psc ++ encodeInt32 c.signalStrength ++
      encodeInt32 c.bitErrorRate) c := by
  cases c
  apply_rules [Takes.seq, Takes.map, h.int] <;> simp

theorem takes_cellCdma {c : CellCdma} (h : c.Typed) :
    Takes readCellCdma (encodeInt32 c.networkId ++ encodeInt32 c.systemId ++
      encodeInt32 c.basestationId ++ encodeInt32 c.longitude ++ encodeInt32 c.latitude ++
      encodeInt32 c.cdmaDbm ++ encodeInt32 c.cdmaEcio ++ encodeInt32 c.evdoDbm ++
      encodeInt32 c.evdoEcio ++ encodeInt32 c.evdoSignalNoiseRatio) c := by
  cases c
  apply_rules [Takes.seq, Takes.map, h.int] <;> simp

theorem takes_cellLte {c : CellLte} (h : c.Typed) :
    Takes readCellLte (encodeInt32 c.mcc ++ encodeInt32 c.mnc ++ encodeInt32 c.ci ++
      encodeInt32 c.pci ++ encodeInt32 c.tac ++ encodeInt32 c.signalStrength ++
      encodeInt32 c.rsrp ++ encodeInt32 c.rsrq ++ encodeInt32 c.rssnr ++ encodeInt32 c.cqi ++
      encodeInt32 c.timingAdvance) c := by
  cases c
  apply_rules [Takes.seq, Takes.map, h.int] <;> simp

/-- Which member follows is known from the kind. -/
theorem takes_member (m : Marshaller) {c : CellInfo} (h : c.Typed) :
    Takes (readMember (m.header.cellKind c.cellInfoType)) (writeCell m c)
      (c.member (m.header.cellKind c.cellInfoType)) := by
  unfold writeCell
  match m.header.cellKind c.cellInfoType with
  | some .gsm => exact (takes_cellGsm h.gsm).map (some ∘ CellMember.gsm)
  | some .wcdma => exact (takes_cellWcdma h.wcdma).map (some ∘ CellMember.wcdma)
  | some .cdma => exact (takes_cellCdma h.cdma).map (some ∘ CellMember.cdma)
  | some .lte => exact (takes_cellLte h.lte).map (some ∘ CellMember.lte)
  | none => exact Takes.pure none

theorem takes_cellInfo (m : Marshaller) {c : CellInfo} (h : c.Typed) :
    Takes (readCellInfo m) (encodeInt32 c.cellInfoType ++ encodeInt32 c.registered ++
      encodeInt32 c.timeStampType ++ encodeInt64 c.timeStamp ++ writeCell m c) (c.told m) := by
  have hf := h.fields
  have hstamp := takes_int64 h.timeStamp.1 h.timeStamp.2
  have hrest := ((((hf.int (v := c.registered) (by simp)).map (CellReport.mk c.cellInfoType)).seq
    (hf.int (v := c.timeStampType) (by simp))).seq hstamp).seq (takes_member m h)
  have hwhole := (hf.int (v := c.cellInfoType) (by simp)).bind
    (f := fun cellInfoType => CellReport.mk cellInfoType <$> readInt <*> readInt <*> readInt64 <*>
      readMember (m.header.cellKind cellInfoType)) hrest
  simp only [List.append_assoc] at hwhole ⊢
  exact hwhole

/-! ### Signal strength -/

/-- The smallest number has no opposite; a vendor up to version 6 must not report it. -/
structure SignalStrength.Typed (m : Marshaller) (s : SignalStrength) : Prop where
  fields : FieldsFit [s.gwSignalStrength, s.gwBitErrorRate, s.cdmaDbm, s.cdmaEcio, s.evdoDbm,
    s.evdoEcio, s.evdoSignalNoiseRatio, s.lteSignalStrength, s.lteRsrp, s.lteRsrq, s.lteRssnr,
    s.lteCqi, s.lteTimingAdvance, s.tdScdmaRscp] []
  rsrp : m.version ≤ 6 → s.lteRsrp ≠ -2147483648

def readSignalStrength : Reader UInt8 SignalStrength :=
  SignalStrength.mk <$> readInt <*> readInt <*> readInt <*> readInt <*> readInt <*> readInt <*>
    readInt <*> readInt <*> readInt <*> readInt <*> readInt <*> readInt <*> readInt <*> readInt

/-- The fields that the vendor's structure is long enough for, and the values for
"unknown" in place of the others. -/
def SignalStrength.told (m : Marshaller) (responselen : Nat) (s : SignalStrength) :
    SignalStrength :=
  let v6 := m.header.sizeofSignalStrengthV6 ≤ responselen
  let v8 := v6 ∧ m.header.sizeofSignalStrengthV8 ≤ responselen
  let v9 := v8 ∧ m.header.sizeofSignalStrengthV9Caf ≤ responselen
  let fixed := fixupLte m s
  { s with
    lteSignalStrength := if v6 then fixed.lteSignalStrength else 99
    lteRsrp := if v6 then fixed.lteRsrp else intMax
    lteRsrq := if v6 then fixed.lteRsrq else intMax
    lteRssnr := if v6 then fixed.lteRssnr else intMax
    lteCqi := if v6 then fixed.lteCqi else intMax
    lteTimingAdvance := if v8 then s.lteTimingAdvance else intMax
    tdScdmaRscp := if v9 then s.tdScdmaRscp else intMax }

theorem takes_fieldOr (known : Prop) [Decidable known] {field other : Int}
    (hfield : IsInt32 field) (hother : IsInt32 other) :
    Takes readInt (fieldOr known field other) (if known then field else other) := by
  unfold fieldOr
  by_cases h : known
  · rw [if_pos h, if_pos (decide_eq_true h)]
    exact takes_int hfield
  · rw [if_neg h, if_neg (by simpa using h)]
    exact takes_int hother

/-- The corrected numbers have 32 bits as well. -/
theorem fixupLte_typed {m : Marshaller} {s : SignalStrength} (h : s.Typed m) :
    FieldsFit [(fixupLte m s).lteSignalStrength, (fixupLte m s).lteRsrp, (fixupLte m s).lteRsrq,
      (fixupLte m s).lteRssnr, (fixupLte m s).lteCqi] [] := by
  have hints := h.fields.ints
  simp only [List.forall_mem_cons, List.not_mem_nil, IsEmpty.forall_iff, implies_true,
    and_true] at hints
  refine ⟨?_, by simp⟩
  unfold fixupLte
  by_cases hversion : m.version ≤ 6
  · have hrsrp := h.rsrp hversion
    simp only [if_pos hversion, List.forall_mem_cons, List.not_mem_nil, IsEmpty.forall_iff,
      implies_true, and_true]
    simp only [IsInt32, intMax] at hints ⊢
    refine ⟨by split <;> omega, ?_, by split <;> omega, by omega, by split <;> omega⟩
    split
    · omega
    · split <;> omega
  · simp only [if_neg hversion, List.forall_mem_cons, List.not_mem_nil, IsEmpty.forall_iff,
      implies_true, and_true]
    tauto

theorem takes_signalStrength {m : Marshaller} {s : SignalStrength} (h : s.Typed m)
    (responselen : Nat) :
    Takes readSignalStrength (writeSignalStrength m s responselen) (s.told m responselen) := by
  have hf := h.fields
  have hfixed := (fixupLte_typed h).ints
  have hmax : IsInt32 intMax := by decide
  have holder := ((((((hf.int (v := s.gwSignalStrength) (by simp)).map SignalStrength.mk).seq
    (hf.int (v := s.gwBitErrorRate) (by simp))).seq (hf.int (v := s.cdmaDbm) (by simp))).seq
    (hf.int (v := s.cdmaEcio) (by simp))).seq (hf.int (v := s.evdoDbm) (by simp))).seq
    (hf.int (v := s.evdoEcio) (by simp))
  have hv6 (v : Int) (hv : IsInt32 v) :=
    takes_fieldOr (m.header.sizeofSignalStrengthV6 ≤ responselen) hv hmax
  have hlte := (((((holder.seq (hf.int (v := s.evdoSignalNoiseRatio) (by simp))).seq
    (takes_fieldOr (m.header.sizeofSignalStrengthV6 ≤ responselen)
      (hfixed (fixupLte m s).lteSignalStrength (by simp)) (show IsInt32 99 by decide))).seq
    (hv6 (fixupLte m s).lteRsrp (hfixed _ (by simp)))).seq
    (hv6 (fixupLte m s).lteRsrq (hfixed _ (by simp)))).seq
    (hv6 (fixupLte m s).lteRssnr (hfixed _ (by simp)))).seq
    (hv6 (fixupLte m s).lteCqi (hfixed _ (by simp)))
  exact (hlte.seq (takes_fieldOr _ (hf.ints s.lteTimingAdvance (by simp)) hmax)).seq
    (takes_fieldOr _ (hf.ints s.tdScdmaRscp (by simp)) hmax)

/-! ### CDMA information records -/

/-- A number as the client gets it. -/
structure NumberReport where
  number : Text
  numberType : UInt8
  numberPlan : UInt8
  pi : UInt8
  si : UInt8

/-- What the client learns from an information record. -/
inductive InfoReport where
  | extendedDisplay (alpha : List UInt8)
  | display (alpha : Text)
  | number (number : NumberReport)
  | signal (isPresent signalType alertPitch signal : UInt8)
  | redirectingNumber (number : NumberReport) (reason : Int)
  | lineControl (polarityIncluded toggle reverse powerDenial : UInt8)
  | clir (cause : UInt8)
  | audioControl (upLink downLink : UInt8)
  | nothing

def readNumberInfo : Reader UInt8 NumberReport :=
  NumberReport.mk <$> readText <*> readChar <*> readChar <*> readChar <*> readChar

/-- The content of a record of this name. -/
def readInfo : Option InfoName → Reader UInt8 InfoReport
  | some .extendedDisplay => do
      let alphaLen ← readChar
      InfoReport.extendedDisplay <$> readBytes alphaLen.toNat
  | some .display => InfoReport.display <$> readText
  | some .calledPartyNumber | some .callingPartyNumber | some .connectedNumber =>
      InfoReport.number <$> readNumberInfo
  | some .signal => InfoReport.signal <$> readChar <*> readChar <*> readChar <*> readChar
  | some .redirectingNumber => InfoReport.redirectingNumber <$> readNumberInfo <*> readInt
  | some .lineControl =>
      InfoReport.lineControl <$> readChar <*> readChar <*> readChar <*> readChar
  | some .t53Clir => InfoReport.clir <$> readChar
  | some .t53AudioControl => InfoReport.audioControl <$> readChar <*> readChar
  | some .t53Release | none => pure .nothing

def readInformationRecord (m : Marshaller) : Reader UInt8 (Int × InfoReport) := do
  let name ← readInt
  Prod.mk name <$> readInfo (m.header.infoName name)

/-- The buffer up to its length or its end. -/
def toldBuffer (m : Marshaller) (len : UInt8) (buf : Nat → UInt8) : Text :=
  some (m.strdup8to16 (((List.range len.toNat).map buf).takeWhile (· ≠ 0)))

def NumberInfo.told (m : Marshaller) (n : NumberInfo) : NumberReport :=
  ⟨toldBuffer m n.len n.buf, n.numberType, n.numberPlan, n.pi, n.si⟩

def InformationRecord.info (m : Marshaller) (r : InformationRecord) :
    Option InfoName → InfoReport
  | some .extendedDisplay => .extendedDisplay ((List.range r.alphaLen.toNat).map r.alphaBuf)
  | some .display => .display (toldBuffer m r.alphaLen r.alphaBuf)
  | some .calledPartyNumber | some .callingPartyNumber | some .connectedNumber =>
      .number (r.number.told m)
  | some .signal => .signal r.isPresent r.signalType r.alertPitch r.signal
  | some .redirectingNumber =>
      .redirectingNumber (r.redirectingNumber.told m) r.redirectingReason
  | some .lineControl =>
      .lineControl r.lineCtrlPolarityIncluded r.lineCtrlToggle r.lineCtrlReverse
        r.lineCtrlPowerDenial
  | some .t53Clir => .clir r.clirCause
  | some .t53AudioControl => .audioControl r.upLink r.downLink
  | some .t53Release | none => .nothing

def InformationRecord.told (m : Marshaller) (r : InformationRecord) : Int × InfoReport :=
  (r.name, r.info m (m.header.infoName r.name))

def InformationRecord.Typed (r : InformationRecord) : Prop :=
  FieldsFit [r.name, r.redirectingReason] []

/-- The version of the vendor has 32 bits, and a string of bytes has no more UTF-16
units than bytes. -/
structure Marshaller.Typed (m : Marshaller) : Prop where
  version : IsInt32 m.version
  maxNumberOfInfoRecs : IsInt32 m.header.maxNumberOfInfoRecs
  strdup8to16 : ∀ s, (m.strdup8to16 s).length ≤ s.length

theorem takes_buffer {m : Marshaller} (hm : m.Typed) (len : UInt8) (buf : Nat → UInt8) :
    Takes readText (writeBuffer m len buf) (toldBuffer m len buf) := by
  refine takes_text (t := toldBuffer m len buf) ?_
  intro text htext
  cases htext
  have hunits := hm.strdup8to16 (((List.range len.toNat).map buf).takeWhile (· ≠ 0))
  have hbytes := (List.takeWhile_sublist (l := (List.range len.toNat).map buf) (· ≠ 0)).length_le
  rw [List.length_map, List.length_range] at hbytes
  have hlen := len.toNat_lt
  omega

theorem takes_numberInfo {m : Marshaller} (hm : m.Typed) (n : NumberInfo) :
    Takes readNumberInfo (writeNumberInfo m n) (n.told m) := by
  have hnumber := takes_buffer hm n.len n.buf
  exact ((((hnumber.map NumberReport.mk).seq (takes_char n.numberType)).seq
    (takes_char n.numberPlan)).seq (takes_char n.pi)).seq (takes_char n.si)

theorem takes_info {m : Marshaller} (hm : m.Typed) {r : InformationRecord} (h : r.Typed)
    {written : List UInt8} (hwritten : writeInformationRecord m r = some written) :
    Takes (readInfo (m.header.infoName r.name)) written
      (r.info m (m.header.infoName r.name)) := by
  unfold writeInformationRecord at hwritten
  generalize m.header.infoName r.name = name at hwritten ⊢
  match name with
  | some .extendedDisplay =>
      have halpha : ((List.range r.alphaLen.toNat).map r.alphaBuf).length = r.alphaLen.toNat := by
        rw [List.length_map, List.length_range]
      simp only [Option.ite_none_left_eq_some] at hwritten
      obtain ⟨-, heq⟩ := hwritten
      cases heq
      exact (takes_char r.alphaLen).bind ((takes_bytes halpha).map _)
  | some .display =>
      simp only [Option.ite_none_left_eq_some] at hwritten
      obtain ⟨-, heq⟩ := hwritten
      cases heq
      exact (takes_buffer hm r.alphaLen r.alphaBuf).map _
  | some .calledPartyNumber | some .callingPartyNumber | some .connectedNumber =>
      simp only [Option.ite_none_left_eq_some] at hwritten
      obtain ⟨-, heq⟩ := hwritten
      cases heq
      exact (takes_numberInfo hm r.number).map _
  | some .signal =>
      cases hwritten
      exact ((((takes_char r.isPresent).map _).seq (takes_char r.signalType)).seq
        (takes_char r.alertPitch)).seq (takes_char r.signal)
  | some .redirectingNumber =>
      simp only [Option.ite_none_left_eq_some] at hwritten
      obtain ⟨-, heq⟩ := hwritten
      cases heq
      exact ((takes_numberInfo hm r.redirectingNumber).map _).seq (h.int (by simp))
  | some .lineControl =>
      cases hwritten
      exact ((((takes_char r.lineCtrlPolarityIncluded).map _).seq
        (takes_char r.lineCtrlToggle)).seq (takes_char r.lineCtrlReverse)).seq
        (takes_char r.lineCtrlPowerDenial)
  | some .t53Clir =>
      cases hwritten
      exact (takes_char r.clirCause).map _
  | some .t53AudioControl =>
      cases hwritten
      exact ((takes_char r.upLink).map _).seq (takes_char r.downLink)
  | some .t53Release | none => cases hwritten

/-- A loop that has come to its end has written all the records. -/
theorem takes_informationRecords {m : Marshaller} (hm : m.Typed)
    {infoRec : Nat → InformationRecord} (h : ∀ i, (infoRec i).Typed) (n i : Nat)
    (hret : (informationRecordsLoop m infoRec n i).ret = 0) :
    Takes (times n (readInformationRecord m)) (informationRecordsLoop m infoRec n i).written
      ((List.range' i n).map fun j => (infoRec j).told m) := by
  induction n generalizing i with
  | zero => exact Takes.pure []
  | succ n ih =>
      cases hwritten : writeInformationRecord m (infoRec i) with
      | none =>
          rw [informationRecordsLoop, hwritten] at hret
          cases hret
      | some written =>
          rw [informationRecordsLoop, hwritten] at hret
          have hrest := ih (i + 1) hret
          have hrecord := ((h i).int (by simp)).bind
            (f := fun name => Prod.mk name <$> readInfo (m.header.infoName name))
            ((takes_info hm (h i) hwritten).map _)
          rw [informationRecordsLoop, hwritten, List.range'_succ, List.map_cons, times]
          refine hrecord.bind ?_
          rw [← List.append_nil (informationRecordsLoop m infoRec n (i + 1)).written]
          exact hrest.bind (Takes.pure _)

end Libril.Responses
