import JsrD10f.Dispatch

/-!
# Response functions

The third column of `s_commands` names the function that writes the vendor's
response to a request into the parcel.  Each of them gets a pointer and a length,
checks what it can, appends numbers, strings and bytes, and returns 0 or
`RIL_ERRNO_INVALID_RESPONSE`.

The vendor's memory is given by what the functions find there under the types they
cast the pointer to; pointers inside of it are followed.  The sizes, the limits and
the values of the enumerations come from `ril.h` and are parameters.  A function
that follows a null pointer has no result.  The printouts are left out.
-/

namespace Libril.Responses

open Parcel

/-! ## The vendor's memory -/

/-- `RIL_Call`. -/
structure Call where
  state : Int
  index : Int
  toa : Int
  isMpty : Int
  isMT : Int
  als : Int
  isVoice : Int
  isVoicePrivacy : Int
  number : Text
  numberPresentation : Int
  name : Text
  namePresentation : Int
  uusInfo : Option UusInfo
deriving Inhabited

/-- `RIL_SMS_Response`. -/
structure SmsResponse where
  messageRef : Int
  ackPDU : Text
  errorCode : Int
deriving Inhabited

/-- `RIL_Data_Call_Response_v4`, without the unused `apn`. -/
structure DataCallV4 where
  cid : Int
  active : Int
  type : Text
  address : Text
deriving Inhabited

/-- `RIL_Data_Call_Response_v6`. -/
structure DataCallV6 where
  status : Int
  suggestedRetryTime : Int
  cid : Int
  active : Int
  type : Text
  ifname : Text
  addresses : Text
  dnses : Text
  gateways : Text
deriving Inhabited

/-- `RIL_SIM_IO_Response`. -/
structure SimIoResponse where
  sw1 : Int
  sw2 : Int
  simResponse : Text
deriving Inhabited

/-- `RIL_NeighboringCell`. -/
structure NeighboringCell where
  rssi : Int
  cid : Text
deriving Inhabited

/-- `RIL_CDMA_NumberInfoRecord`. -/
structure NumberInfo where
  len : UInt8
  buf : Nat → UInt8
  numberType : UInt8
  numberPlan : UInt8
  pi : UInt8
  si : UInt8
deriving Inhabited

/-- The names of a CDMA information record. -/
inductive InfoName where
  | extendedDisplay
  | display
  | calledPartyNumber
  | callingPartyNumber
  | connectedNumber
  | signal
  | redirectingNumber
  | lineControl
  | t53Clir
  | t53AudioControl
  | t53Release
deriving DecidableEq, Repr

/-- `RIL_CDMA_InformationRecord`, with a view for each member of its union. -/
structure InformationRecord where
  name : Int
  alphaLen : UInt8
  alphaBuf : Nat → UInt8
  number : NumberInfo
  isPresent : UInt8
  signalType : UInt8
  alertPitch : UInt8
  signal : UInt8
  redirectingNumber : NumberInfo
  redirectingReason : Int
  lineCtrlPolarityIncluded : UInt8
  lineCtrlToggle : UInt8
  lineCtrlReverse : UInt8
  lineCtrlPowerDenial : UInt8
  clirCause : UInt8
  upLink : UInt8
  downLink : UInt8
deriving Inhabited

/-- `RIL_CDMA_InformationRecords`. -/
structure InformationRecords where
  numberOfInfoRecs : Int
  infoRec : Nat → InformationRecord
deriving Inhabited

/-- `RIL_SignalStrength_v9_CAF`. -/
structure SignalStrength where
  gwSignalStrength : Int
  gwBitErrorRate : Int
  cdmaDbm : Int
  cdmaEcio : Int
  evdoDbm : Int
  evdoEcio : Int
  evdoSignalNoiseRatio : Int
  lteSignalStrength : Int
  lteRsrp : Int
  lteRsrq : Int
  lteRssnr : Int
  lteCqi : Int
  lteTimingAdvance : Int
  tdScdmaRscp : Int
deriving Inhabited

/-- The kinds of cells in `RIL_CellInfo`. -/
inductive CellKind where
  | gsm
  | wcdma
  | cdma
  | lte
deriving DecidableEq, Repr

structure CellGsm where
  mcc : Int
  mnc : Int
  lac : Int
  cid : Int
  signalStrength : Int
  bitErrorRate : Int
deriving Inhabited

structure CellWcdma where
  mcc : Int
  mnc : Int
  lac : Int
  cid : Int
  psc : Int
  signalStrength : Int
  bitErrorRate : Int
deriving Inhabited

structure CellCdma where
  networkId : Int
  systemId : Int
  basestationId : Int
  longitude : Int
  latitude : Int
  cdmaDbm : Int
  cdmaEcio : Int
  evdoDbm : Int
  evdoEcio : Int
  evdoSignalNoiseRatio : Int
deriving Inhabited

structure CellLte where
  mcc : Int
  mnc : Int
  ci : Int
  pci : Int
  tac : Int
  signalStrength : Int
  rsrp : Int
  rsrq : Int
  rssnr : Int
  cqi : Int
  timingAdvance : Int
deriving Inhabited

/-- `RIL_CellInfo`, with a view for each member of its union. -/
structure CellInfo where
  cellInfoType : Int
  registered : Int
  timeStampType : Int
  timeStamp : Int
  gsm : CellGsm
  wcdma : CellWcdma
  cdma : CellCdma
  lte : CellLte
deriving Inhabited

/-- `RIL_AppStatus`. -/
structure AppStatus where
  appType : Int
  appState : Int
  persoSubstate : Int
  aidPtr : Text
  appLabelPtr : Text
  pin1Replaced : Int
  pin1 : Int
  pin2 : Int
deriving Inhabited

/-- `RIL_CardStatus_v5` and `RIL_CardStatus_v6`.  The old one has no
`ims_subscription_app_index`, so the fields behind it are found elsewhere. -/
structure CardStatus where
  cardState : Int
  universalPinState : Int
  gsmUmtsSubscriptionAppIndex : Int
  cdmaSubscriptionAppIndex : Int
  imsSubscriptionAppIndex : Int
  numApplications : Int
  applications : Nat → AppStatus
deriving Inhabited

/-- `RIL_DataCallProfileInfo`. -/
structure DataCallProfileInfo where
  profileId : Int
  priority : Int
deriving Inhabited

/-- What a response pointer leads to, under the types it is cast to. -/
structure Content where
  ints : Nat → Int
  text : List UInt16
  strings : Nat → Text
  bytes : Nat → UInt8
  calls : Nat → Call
  sms : SmsResponse
  dataCallsV4 : Nat → DataCallV4
  dataCalls : Nat → DataCallV6
  simIo : SimIoResponse
  callForwards : Nat → CallForwardInfo
  cells : Nat → NeighboringCell
  informationRecords : InformationRecords
  signalStrength : SignalStrength
  cellInfos : Nat → CellInfo
  cardStatusV5 : CardStatus
  cardStatusV6 : CardStatus
  gsmConfigs : Nat → GsmBroadcastSmsConfigInfo
  cdmaConfigs : Nat → CdmaBroadcastSmsConfigInfo
  profileCount : Int
  profiles : Nat → DataCallProfileInfo

/-- What the code takes from `ril.h`. -/
structure RilHeader where
  sizeofSmsResponse : Nat
  sizeofDataCallV4 : Nat
  sizeofDataCallV6 : Nat
  sizeofSimIoResponse : Nat
  sizeofInformationRecords : Nat
  sizeofSignalStrengthV5 : Nat
  sizeofSignalStrengthV6 : Nat
  sizeofSignalStrengthV8 : Nat
  sizeofSignalStrengthV9Caf : Nat
  sizeofCellInfo : Nat
  sizeofCardStatusV5 : Nat
  sizeofCardStatusV6 : Nat
  sizeofDataCallProfileInfo : Nat
  maxNumberOfInfoRecs : Int
  alphaInfoBufferLength : Nat
  numberInfoBufferLength : Nat
  infoName : Int → Option InfoName
  cellKind : Int → Option CellKind

/-- The build, two more of its switches, the header and `strdup8to16`. -/
structure Marshaller extends Build where
  newLibrilHtc : Bool
  hcRadio : Bool
  header : RilHeader
  strdup8to16 : List UInt8 → List UInt16

/-! ## Writing -/

def writeStringToParcel : Text → List UInt8
  | none => encodeInt32 (-1)
  | some text => encodeString text

/-- `write(data, len)`. -/
def writeBytes (data : List UInt8) : List UInt8 :=
  data ++ List.replicate (padSize data.length - data.length) 0

/-- `writeInt32` of a `char`. -/
def writeChar (c : UInt8) : List UInt8 :=
  encodeInt32 c.toNat

/-- `writeInt64`. -/
def encodeInt64 (v : Int) : List UInt8 :=
  encodeInt32 (v % 4294967296) ++ encodeInt32 (v / 4294967296)

/-- The records 0 to `n - 1`. -/
def writeRecords (record : Nat → List UInt8) (n : Nat) : List UInt8 :=
  (List.range n).flatMap record

def success (written : List UInt8) : Marshalled :=
  ⟨0, written⟩

/-- `return RIL_ERRNO_INVALID_RESPONSE` after some bytes were written. -/
def invalidResponse (written : List UInt8) : Marshalled :=
  ⟨-1, written⟩

/-- A null pointer with a length. -/
def nullWithLength (response : Option Content) (responselen : Nat) : Bool :=
  response.isNone && responselen != 0

def intMax : Int := 2147483647

/-- A null pointer has no length, and the length is a multiple of the size of an
entry; then their number is written, and each of them. -/
def responseList (size : Nat) (record : Content → Nat → List UInt8)
    (response : Option Content) (responselen : Nat) : Marshalled :=
  if nullWithLength response responselen then invalidResponse []
  else if responselen % size ≠ 0 then invalidResponse []
  else
    let num := responselen / size
    success (encodeInt32 num ++ (response.map fun c => writeRecords (record c) num).getD [])

/-- The pointer leads to a structure of this size. -/
def responseStruct (size : Nat) (record : Content → List UInt8) (response : Option Content)
    (responselen : Nat) : Marshalled :=
  match response with
  | none => invalidResponse []
  | some c => if responselen ≠ size then invalidResponse [] else success (record c)

/-! ## The functions -/

def responseInts : Option Content → Nat → Marshalled :=
  responseList 4 fun c i => encodeInt32 (c.ints i)

/-- `responseStrings` with its flag.  The vendor library of one manufacturer has a
fifth string for each network, which is left out. -/
def responseStringsFlag (m : Marshaller) (networkSearch : Bool) (response : Option Content)
    (responselen : Nat) : Marshalled :=
  if nullWithLength response responselen then invalidResponse []
  else if responselen % 4 ≠ 0 then invalidResponse []
  else
    match response with
    | none => success (encodeInt32 0)
    | some c =>
        let numStrings := responselen / 4
        let skips := m.newLibrilHtc && networkSearch
        let count := if skips then numStrings - numStrings / 5 else numStrings
        success (encodeInt32 count ++ writeRecords (fun i =>
          if skips && (i + 1) % 5 == 0 then [] else writeStringToParcel (c.strings i)) numStrings)

def responseStrings (m : Marshaller) : Option Content → Nat → Marshalled :=
  responseStringsFlag m false

def responseStringsNetworks (m : Marshaller) : Option Content → Nat → Marshalled :=
  responseStringsFlag m true

/-- The result of a function that is called after some bytes were written. -/
def writtenAfter (written : List UInt8) (r : Marshalled) : Marshalled :=
  ⟨r.ret, written ++ r.written⟩

def responseStringsWithVersion (m : Marshaller) (version : Int) (response : Option Content)
    (responselen : Nat) : Marshalled :=
  writtenAfter (encodeInt32 version) (responseStrings m response responselen)

def responseString (response : Option Content) (_responselen : Nat) : Marshalled :=
  success (writeStringToParcel (response.map Content.text))

def responseVoid (_response : Option Content) (_responselen : Nat) : Marshalled :=
  success []

/-- A negative length of the user data writes nothing. -/
def writeCall (m : Marshaller) (c : Call) : List UInt8 :=
  encodeInt32 c.state ++ encodeInt32 c.index ++ encodeInt32 c.toa ++ encodeInt32 c.isMpty ++
    encodeInt32 c.isMT ++ encodeInt32 c.als ++ encodeInt32 c.isVoice ++
    encodeInt32 c.isVoicePrivacy ++ writeStringToParcel c.number ++
    encodeInt32 c.numberPresentation ++ writeStringToParcel c.name ++
    encodeInt32 c.namePresentation ++
    -- a vendor before version 3 does not know the field
    match (if m.version < 3 then none else c.uusInfo) with
    | some ⟨uusType, uusDcs, uusLength, some uusData⟩ =>
        encodeInt32 1 ++ encodeInt32 uusType ++ encodeInt32 uusDcs ++ encodeInt32 uusLength ++
          writeBytes (uusData.take uusLength.toNat)
    | _ => encodeInt32 0

def responseCallList (m : Marshaller) : Option Content → Nat → Marshalled :=
  responseList 4 fun c i => writeCall m (c.calls i)

def responseSMS (m : Marshaller) : Option Content → Nat → Marshalled :=
  responseStruct m.header.sizeofSmsResponse fun c =>
    encodeInt32 c.sms.messageRef ++ writeStringToParcel c.sms.ackPDU ++
      encodeInt32 c.sms.errorCode

def writeDataCallV4 (d : DataCallV4) : List UInt8 :=
  encodeInt32 d.cid ++ encodeInt32 d.active ++ writeStringToParcel d.type ++
    writeStringToParcel d.address

def responseDataCallListV4 (m : Marshaller) : Option Content → Nat → Marshalled :=
  responseList m.header.sizeofDataCallV4 fun c i => writeDataCallV4 (c.dataCallsV4 i)

def writeDataCallV6 (m : Marshaller) (d : DataCallV6) : List UInt8 :=
  encodeInt32 d.status ++ (if m.hcRadio then [] else encodeInt32 d.suggestedRetryTime) ++
    encodeInt32 d.cid ++ encodeInt32 d.active ++ writeStringToParcel d.type ++
    writeStringToParcel d.ifname ++ writeStringToParcel d.addresses ++
    writeStringToParcel d.dnses ++ writeStringToParcel d.gateways

/-- `responseDataCallList`.  The version is written before anything is checked. -/
def responseDataCallList (m : Marshaller) (response : Option Content) (responselen : Nat) :
    Marshalled :=
  writtenAfter (encodeInt32 m.version)
    (if m.version < 5 then responseDataCallListV4 m response responselen
    else responseList m.header.sizeofDataCallV6 (fun c i => writeDataCallV6 m (c.dataCalls i))
      response responselen)

def responseSetupDataCall (m : Marshaller) (response : Option Content) (responselen : Nat) :
    Marshalled :=
  if m.version < 5 then responseStringsWithVersion m m.version response responselen
  else responseDataCallList m response responselen

def responseRaw (response : Option Content) (responselen : Nat) : Marshalled :=
  if nullWithLength response responselen then invalidResponse []
  else
    match response with
    | none => success (encodeInt32 (-1))
    | some c => success (encodeInt32 responselen ++
        writeBytes ((List.range responselen).map c.bytes))

def responseSimIo (m : Marshaller) : Option Content → Nat → Marshalled :=
  responseStruct m.header.sizeofSimIoResponse fun c =>
    encodeInt32 c.simIo.sw1 ++ encodeInt32 c.simIo.sw2 ++ writeStringToParcel c.simIo.simResponse

def writeCallForward (c : CallForwardInfo) : List UInt8 :=
  encodeInt32 c.status ++ encodeInt32 c.reason ++ encodeInt32 c.serviceClass ++
    encodeInt32 c.toa ++ writeStringToParcel c.number ++ encodeInt32 c.timeSeconds

def responseCallForwards : Option Content → Nat → Marshalled :=
  responseList 4 fun c i => writeCallForward (c.callForwards i)

def responseCellList : Option Content → Nat → Marshalled :=
  responseList 4 fun c i => encodeInt32 (c.cells i).rssi ++ writeStringToParcel (c.cells i).cid

/-- The text of a buffer that has been copied and terminated. -/
def writeBuffer (m : Marshaller) (len : UInt8) (buf : Nat → UInt8) : List UInt8 :=
  let string8 := ((List.range len.toNat).map buf).takeWhile (· ≠ 0)
  writeStringToParcel (some (m.strdup8to16 string8))

def writeNumberInfo (m : Marshaller) (n : NumberInfo) : List UInt8 :=
  writeBuffer m n.len n.buf ++ writeChar n.numberType ++ writeChar n.numberPlan ++
    writeChar n.pi ++ writeChar n.si

/-- One turn of the loop of `responseCdmaInformationRecords`, behind the name; `none`
is the return from it. -/
def writeInformationRecord (m : Marshaller) (r : InformationRecord) : Option (List UInt8) :=
  match m.header.infoName r.name with
  | some .extendedDisplay =>
      if m.header.alphaInfoBufferLength < r.alphaLen.toNat then none
      else some (writeChar r.alphaLen ++
        writeBytes ((List.range r.alphaLen.toNat).map r.alphaBuf))
  | some .display =>
      if m.header.alphaInfoBufferLength < r.alphaLen.toNat then none
      else some (writeBuffer m r.alphaLen r.alphaBuf)
  | some .calledPartyNumber | some .callingPartyNumber | some .connectedNumber =>
      if m.header.numberInfoBufferLength < r.number.len.toNat then none
      else some (writeNumberInfo m r.number)
  | some .signal =>
      some (writeChar r.isPresent ++ writeChar r.signalType ++ writeChar r.alertPitch ++
        writeChar r.signal)
  | some .redirectingNumber =>
      if m.header.numberInfoBufferLength < r.redirectingNumber.len.toNat then none
      else some (writeNumberInfo m r.redirectingNumber ++ encodeInt32 r.redirectingReason)
  | some .lineControl =>
      some (writeChar r.lineCtrlPolarityIncluded ++ writeChar r.lineCtrlToggle ++
        writeChar r.lineCtrlReverse ++ writeChar r.lineCtrlPowerDenial)
  | some .t53Clir => some (writeChar r.clirCause)
  | some .t53AudioControl => some (writeChar r.upLink ++ writeChar r.downLink)
  | some .t53Release | none => none

/-- The loop from record `i` on, with `n` turns left. -/
def informationRecordsLoop (m : Marshaller) (infoRec : Nat → InformationRecord) :
    Nat → Nat → Marshalled
  | 0, _ => success []
  | n + 1, i =>
      match writeInformationRecord m (infoRec i) with
      | none => invalidResponse (encodeInt32 (infoRec i).name)
      | some written =>
          writtenAfter (encodeInt32 (infoRec i).name ++ written)
            (informationRecordsLoop m infoRec n (i + 1))

/-- `responseCdmaInformationRecords`, which the table of unsolicited responses names. -/
def responseCdmaInformationRecords (m : Marshaller) (response : Option Content)
    (responselen : Nat) : Option Marshalled :=
  if nullWithLength response responselen then some (invalidResponse [])
  else if responselen ≠ m.header.sizeofInformationRecords then some (invalidResponse [])
  else do
    let c ← response
    let num := min c.informationRecords.numberOfInfoRecs m.header.maxNumberOfInfoRecs
    some (writtenAfter (encodeInt32 num)
      (informationRecordsLoop m c.informationRecords.infoRec num.toNat 0))

/-- The field of a structure that is long enough. -/
def fieldOr (known : Bool) (field other : Int) : List UInt8 :=
  encodeInt32 (if known then field else other)

/-- The numbers of a vendor up to version 6 are brought into the range of the others. -/
def fixupLte (m : Marshaller) (s : SignalStrength) : SignalStrength :=
  if m.version ≤ 6 then
    { s with
      lteSignalStrength := if s.lteSignalStrength = -1 then 99 else s.lteSignalStrength
      lteRsrp :=
        if s.lteRsrp = -1 then intMax else if s.lteRsrp < -1 then -s.lteRsrp else s.lteRsrp
      lteRsrq := if s.lteRsrq = -1 then intMax else s.lteRsrq
      lteCqi := if s.lteCqi = -1 then intMax else s.lteCqi }
  else s

def writeSignalStrength (m : Marshaller) (s : SignalStrength) (responselen : Nat) : List UInt8 :=
  let v6 := m.header.sizeofSignalStrengthV6 ≤ responselen
  let v8 := v6 ∧ m.header.sizeofSignalStrengthV8 ≤ responselen
  let v9 := v8 ∧ m.header.sizeofSignalStrengthV9Caf ≤ responselen
  let fixed := fixupLte m s
  encodeInt32 s.gwSignalStrength ++ encodeInt32 s.gwBitErrorRate ++ encodeInt32 s.cdmaDbm ++
    encodeInt32 s.cdmaEcio ++ encodeInt32 s.evdoDbm ++ encodeInt32 s.evdoEcio ++
    encodeInt32 s.evdoSignalNoiseRatio ++ fieldOr v6 fixed.lteSignalStrength 99 ++
    fieldOr v6 fixed.lteRsrp intMax ++ fieldOr v6 fixed.lteRsrq intMax ++
    fieldOr v6 fixed.lteRssnr intMax ++ fieldOr v6 fixed.lteCqi intMax ++
    fieldOr v8 s.lteTimingAdvance intMax ++ fieldOr v9 s.tdScdmaRscp intMax

def responseRilSignalStrength (m : Marshaller) (response : Option Content) (responselen : Nat) :
    Option Marshalled :=
  if nullWithLength response responselen then some (invalidResponse [])
  else if m.header.sizeofSignalStrengthV5 ≤ responselen then do
    let c ← response
    some (success (writeSignalStrength m c.signalStrength responselen))
  else some (invalidResponse [])

def writeCell (m : Marshaller) (c : CellInfo) : List UInt8 :=
  match m.header.cellKind c.cellInfoType with
  | some .gsm =>
      encodeInt32 c.gsm.mcc ++ encodeInt32 c.gsm.mnc ++ encodeInt32 c.gsm.lac ++
        encodeInt32 c.gsm.cid ++ encodeInt32 c.gsm.signalStrength ++
        encodeInt32 c.gsm.bitErrorRate
  | some .wcdma =>
      encodeInt32 c.wcdma.mcc ++ encodeInt32 c.wcdma.mnc ++ encodeInt32 c.wcdma.lac ++
        encodeInt32 c.wcdma.cid ++ encodeInt32 c.wcdma.psc ++
        encodeInt32 c.wcdma.signalStrength ++ encodeInt32 c.wcdma.bitErrorRate
  | some .cdma =>
      encodeInt32 c.cdma.networkId ++ encodeInt32 c.cdma.systemId ++
        encodeInt32 c.cdma.basestationId ++ encodeInt32 c.cdma.longitude ++
        encodeInt32 c.cdma.latitude ++ encodeInt32 c.cdma.cdmaDbm ++
        encodeInt32 c.cdma.cdmaEcio ++ encodeInt32 c.cdma.evdoDbm ++
        encodeInt32 c.cdma.evdoEcio ++ encodeInt32 c.cdma.evdoSignalNoiseRatio
  | some .lte =>
      encodeInt32 c.lte.mcc ++ encodeInt32 c.lte.mnc ++ encodeInt32 c.lte.ci ++
        encodeInt32 c.lte.pci ++ encodeInt32 c.lte.tac ++ encodeInt32 c.lte.signalStrength ++
        encodeInt32 c.lte.rsrp ++ encodeInt32 c.lte.rsrq ++ encodeInt32 c.lte.rssnr ++
        encodeInt32 c.lte.cqi ++ encodeInt32 c.lte.timingAdvance
  -- the switch has no default
  | none => []

def responseCellInfoList (m : Marshaller) : Option Content → Nat → Marshalled :=
  responseList m.header.sizeofCellInfo fun c i =>
    let cell := c.cellInfos i
    encodeInt32 cell.cellInfoType ++ encodeInt32 cell.registered ++
      encodeInt32 cell.timeStampType ++ encodeInt64 cell.timeStamp ++ writeCell m cell

def writeAppStatus (a : AppStatus) : List UInt8 :=
  encodeInt32 a.appType ++ encodeInt32 a.appState ++ encodeInt32 a.persoSubstate ++
    writeStringToParcel a.aidPtr ++ writeStringToParcel a.appLabelPtr ++
    encodeInt32 a.pin1Replaced ++ encodeInt32 a.pin1 ++ encodeInt32 a.pin2

def sendSimStatusAppInfo (numApps : Int) (appStatus : Nat → AppStatus) : List UInt8 :=
  encodeInt32 numApps ++ writeRecords (fun i => writeAppStatus (appStatus i)) numApps.toNat

def writeCardStatus (s : CardStatus) (imsIndex : Int) : List UInt8 :=
  encodeInt32 s.cardState ++ encodeInt32 s.universalPinState ++
    encodeInt32 s.gsmUmtsSubscriptionAppIndex ++ encodeInt32 s.cdmaSubscriptionAppIndex ++
    encodeInt32 imsIndex ++ sendSimStatusAppInfo s.numApplications s.applications

def responseSimStatus (m : Marshaller) (response : Option Content) (responselen : Nat) :
    Option Marshalled :=
  if nullWithLength response responselen then some (invalidResponse [])
  else if responselen = m.header.sizeofCardStatusV6 then do
    let c ← response
    some (success (writeCardStatus c.cardStatusV6 c.cardStatusV6.imsSubscriptionAppIndex))
  else if responselen = m.header.sizeofCardStatusV5 then do
    let c ← response
    some (success (writeCardStatus c.cardStatusV5 (-1)))
  else some (invalidResponse [])

/-- The two functions for broadcast configurations check nothing. -/
def responseConfigs (record : Content → Nat → List UInt8) (response : Option Content)
    (responselen : Nat) : Option Marshalled :=
  let num := responselen / 4
  match response with
  | none => if num = 0 then some (success (encodeInt32 0)) else none
  | some c => some (success (encodeInt32 num ++ writeRecords (record c) num))

def writeGsmConfig (c : GsmBroadcastSmsConfigInfo) : List UInt8 :=
  encodeInt32 c.fromServiceId ++ encodeInt32 c.toServiceId ++ encodeInt32 c.fromCodeScheme ++
    encodeInt32 c.toCodeScheme ++ writeChar c.selected

def responseGsmBrSmsCnf : Option Content → Nat → Option Marshalled :=
  responseConfigs fun c i => writeGsmConfig (c.gsmConfigs i)

def writeCdmaConfig (c : CdmaBroadcastSmsConfigInfo) : List UInt8 :=
  encodeInt32 c.serviceCategory ++ encodeInt32 c.language ++ writeChar c.selected

def responseCdmaBrSmsCnf : Option Content → Nat → Option Marshalled :=
  responseConfigs fun c i => writeCdmaConfig (c.cdmaConfigs i)

/-- `responseGetDataCallProfile`.  The count is compared as an unsigned number, so a
negative one is too large. -/
def responseGetDataCallProfile (m : Marshaller) (response : Option Content)
    (responselen : Nat) : Option Marshalled :=
  if nullWithLength response responselen then some (invalidResponse [])
  else do
    let c ← response
    let room := responselen / m.header.sizeofDataCallProfileInfo
    let count := (c.profileCount % 4294967296).toNat
    let num := if room < count then room else count
    some (success (encodeInt32 num ++ writeRecords (fun i =>
      encodeInt32 (c.profiles i).profileId ++ encodeInt32 (c.profiles i).priority) num))

/-! ## The table -/

/-- The response functions that `s_commands` names, and the one of the unsolicited
responses that may fail in the middle of a list. -/
inductive ResponseFunction where
  | void
  | ints
  | string
  | strings
  | stringsNetworks
  | callList
  | sms
  | dataCallList
  | setupDataCall
  | raw
  | simIo
  | callForwards
  | cellList
  | rilSignalStrength
  | cellInfoList
  | simStatus
  | gsmBrSmsCnf
  | cdmaBrSmsCnf
  | getDataCallProfile
  | cdmaInformationRecords
deriving DecidableEq, Repr

def ResponseFunction.call (m : Marshaller) (response : Option Content) (responselen : Nat) :
    ResponseFunction → Option Marshalled
  | .void => some (responseVoid response responselen)
  | .ints => some (responseInts response responselen)
  | .string => some (responseString response responselen)
  | .strings => some (responseStrings m response responselen)
  | .stringsNetworks => some (responseStringsNetworks m response responselen)
  | .callList => some (responseCallList m response responselen)
  | .sms => some (responseSMS m response responselen)
  | .dataCallList => some (responseDataCallList m response responselen)
  | .setupDataCall => some (responseSetupDataCall m response responselen)
  | .raw => some (responseRaw response responselen)
  | .simIo => some (responseSimIo m response responselen)
  | .callForwards => some (responseCallForwards response responselen)
  | .cellList => some (responseCellList response responselen)
  | .rilSignalStrength => responseRilSignalStrength m response responselen
  | .cellInfoList => some (responseCellInfoList m response responselen)
  | .simStatus => responseSimStatus m response responselen
  | .gsmBrSmsCnf => responseGsmBrSmsCnf response responselen
  | .cdmaBrSmsCnf => responseCdmaBrSmsCnf response responselen
  | .getDataCallProfile => responseGetDataCallProfile m response responselen
  | .cdmaInformationRecords => responseCdmaInformationRecords m response responselen

/-- The functions of the entries 1 to 108 of `s_commands`, ten to a row. -/
def baseResponses (legacy : Bool) : List ResponseFunction :=
  [.simStatus, .ints, .ints, .ints, .ints, .ints, .ints, .ints, .callList, .void,
    .string, .void, .void, .void, .void, .void, .void, .ints, .rilSignalStrength, .strings,
    .strings, .strings, .void, .void, .sms, .sms, .setupDataCall, .simIo, .void, .void,
    .ints, .void, .callForwards, .void, .ints, .void, .void, .string, .string, .void,
    .void, .ints, .ints, .void, .ints, .void, .void,
    if legacy then .strings else .stringsNetworks, .void, .void,
    .string, .void, .void, .ints, .ints, .ints, .dataCallList, .void, .raw, .strings,
    .void, .void, .ints, .void, .void, .ints, .string, .void, .string, .void,
    .void, .void, .void, .ints, .cellList, .void, .void, .void, .ints, .void,
    .ints, .void, .ints, .void, .void, .void, .sms, .void, .gsmBrSmsCnf, .void,
    .void, .cdmaBrSmsCnf, .void, .void, .strings, .ints, .void, .strings, .void, .string,
    .void, .void, .void, .ints, .string, .void, .simIo, .ints]

def laterResponses : List ResponseFunction :=
  [.void, .ints, .sms, .getDataCallProfile, .void, .void, .simIo, .ints, .void, .simIo]

def cellInfoResponses : List ResponseFunction :=
  [.cellInfoList, .void]

def responseEntries (m : Marshaller) : List ResponseFunction :=
  baseResponses m.variantLegacy ++ (if m.noCellInfoList then [] else cellInfoResponses) ++
    laterResponses ++ (if m.variantLegacy then [] else [.string])

/-- The response functions of `s_commands`.  Entry 0 has none. -/
def sResponses (m : Marshaller) : List (Option ResponseFunction) :=
  none :: (responseEntries m).map some

/-- The numbers that the dispatch functions send by themselves go through the same
function. -/
theorem responseInts_eq (c : Content) (n : Nat) :
    responseInts (some c) (4 * n) = Libril.responseInts ((List.range n).map c.ints) := by
  have hmod : 4 * n % 4 = 0 := Nat.mul_mod_right 4 n
  have hdiv : 4 * n / 4 = n := Nat.mul_div_cancel_left n (by decide)
  simp [responseInts, responseList, nullWithLength, hmod, hdiv, success, writeRecords,
    Libril.responseInts, List.flatMap_map]

/-! ## How far a rejected response gets -/

/-- The function looks at the response before it writes.  The two functions for data
calls start with the version; the one for information records checks the length
first, and each record when its name is written. -/
def ResponseFunction.ChecksFirst (m : Marshaller) (response : Option Content)
    (responselen : Nat) : ResponseFunction → Prop
  | .dataCallList => False
  | .setupDataCall => False
  | .cdmaInformationRecords =>
      response = none ∨ responselen ≠ m.header.sizeofInformationRecords
  | _ => True

/-- A rejected response has left nothing in the parcel. -/
def Clean (r : Marshalled) : Prop :=
  r.ret ≠ 0 → r.written = []

theorem clean_success (written : List UInt8) : Clean (success written) :=
  fun h => absurd rfl h

theorem clean_invalidResponse : Clean (invalidResponse []) :=
  fun _ => rfl

theorem responseList_clean (size : Nat) (record : Content → Nat → List UInt8)
    (response : Option Content) (responselen : Nat) :
    Clean (responseList size record response responselen) := by
  unfold responseList
  split
  · exact clean_invalidResponse
  · split
    · exact clean_invalidResponse
    · exact clean_success _

theorem responseStruct_clean (size : Nat) (record : Content → List UInt8)
    (response : Option Content) (responselen : Nat) :
    Clean (responseStruct size record response responselen) := by
  cases response with
  | none => exact clean_invalidResponse
  | some c =>
      simp only [responseStruct]
      split
      · exact clean_invalidResponse
      · exact clean_success _

theorem responseStringsFlag_clean (m : Marshaller) (networkSearch : Bool)
    (response : Option Content) (responselen : Nat) :
    Clean (responseStringsFlag m networkSearch response responselen) := by
  unfold responseStringsFlag
  split
  · exact clean_invalidResponse
  · split
    · exact clean_invalidResponse
    · cases response with
      | none => exact clean_success _
      | some c => exact clean_success _

theorem responseRaw_clean (response : Option Content) (responselen : Nat) :
    Clean (responseRaw response responselen) := by
  unfold responseRaw
  split
  · exact clean_invalidResponse
  · cases response with
    | none => exact clean_success _
    | some c => exact clean_success _

theorem responseConfigs_clean {record : Content → Nat → List UInt8} {response : Option Content}
    {responselen : Nat} {r : Marshalled}
    (h : responseConfigs record response responselen = some r) : Clean r := by
  cases response with
  | none =>
      simp only [responseConfigs] at h
      split at h
      · cases h
        exact clean_success _
      · cases h
  | some c =>
      cases h
      exact clean_success _

theorem responseRilSignalStrength_clean {m : Marshaller} {response : Option Content}
    {responselen : Nat} {r : Marshalled}
    (h : responseRilSignalStrength m response responselen = some r) : Clean r := by
  unfold responseRilSignalStrength at h
  split at h
  · cases h
    exact clean_invalidResponse
  · split at h
    · obtain ⟨c, -, hc⟩ := Option.bind_eq_some_iff.mp h
      cases hc
      exact clean_success _
    · cases h
      exact clean_invalidResponse

theorem responseSimStatus_clean {m : Marshaller} {response : Option Content}
    {responselen : Nat} {r : Marshalled}
    (h : responseSimStatus m response responselen = some r) : Clean r := by
  unfold responseSimStatus at h
  split at h
  · cases h
    exact clean_invalidResponse
  · split at h
    · obtain ⟨c, -, hc⟩ := Option.bind_eq_some_iff.mp h
      cases hc
      exact clean_success _
    · split at h
      · obtain ⟨c, -, hc⟩ := Option.bind_eq_some_iff.mp h
        cases hc
        exact clean_success _
      · cases h
        exact clean_invalidResponse

theorem responseGetDataCallProfile_clean {m : Marshaller} {response : Option Content}
    {responselen : Nat} {r : Marshalled}
    (h : responseGetDataCallProfile m response responselen = some r) : Clean r := by
  unfold responseGetDataCallProfile at h
  split at h
  · cases h
    exact clean_invalidResponse
  · obtain ⟨c, -, hc⟩ := Option.bind_eq_some_iff.mp h
    cases hc
    exact clean_success _

theorem writtenAfter_ne_nil (v : Int) (r : Marshalled) :
    (writtenAfter (encodeInt32 v) r).written ≠ [] := by
  intro h
  exact List.cons_ne_nil _ _ (List.append_eq_nil_iff.mp h).1

/-- With the right length the number of records is written before one of them is
looked at. -/
theorem responseCdmaInformationRecords_written {m : Marshaller} {response : Option Content}
    {responselen : Nat} {r : Marshalled}
    (h : responseCdmaInformationRecords m response responselen = some r) :
    r.written = [] ↔ response = none ∨ responselen ≠ m.header.sizeofInformationRecords := by
  unfold responseCdmaInformationRecords at h
  split at h
  · rename_i hnull
    cases h
    have hnone : response = none := by
      simp only [nullWithLength, Bool.and_eq_true, Option.isNone_iff_eq_none] at hnull
      exact hnull.1
    simp [invalidResponse, hnone]
  · split at h
    · rename_i hsize
      cases h
      simp [invalidResponse, hsize]
    · rename_i hsize
      obtain ⟨c, hc, hr⟩ := Option.bind_eq_some_iff.mp h
      cases hr
      have hwritten := writtenAfter_ne_nil
        (min c.informationRecords.numberOfInfoRecs m.header.maxNumberOfInfoRecs)
        (informationRecordsLoop m c.informationRecords.infoRec
          (min c.informationRecords.numberOfInfoRecs m.header.maxNumberOfInfoRecs).toNat 0)
      simp [hwritten, hc, not_not.mp hsize]

theorem responseDataCallList_written (m : Marshaller) (response : Option Content)
    (responselen : Nat) : (responseDataCallList m response responselen).written ≠ [] :=
  writtenAfter_ne_nil _ _

theorem responseSetupDataCall_written (m : Marshaller) (response : Option Content)
    (responselen : Nat) : (responseSetupDataCall m response responselen).written ≠ [] := by
  unfold responseSetupDataCall
  split
  · exact writtenAfter_ne_nil _ _
  · exact responseDataCallList_written m response responselen

/-- **Rejected responses.**  Of a rejected response nothing is in the parcel exactly if
the function checks before it writes. -/
theorem rejected_written_iff {m : Marshaller} {response : Option Content} {responselen : Nat}
    {f : ResponseFunction} {r : Marshalled} (h : f.call m response responselen = some r)
    (hret : r.ret ≠ 0) : r.written = [] ↔ f.ChecksFirst m response responselen := by
  have hclean : Clean r → (r.written = [] ↔ True) := fun hr => iff_true_intro (hr hret)
  cases f with
  | void =>
      cases h
      exact hclean (clean_success _)
  | ints =>
      cases h
      exact hclean (responseList_clean _ _ _ _)
  | string =>
      cases h
      exact hclean (clean_success _)
  | strings =>
      cases h
      exact hclean (responseStringsFlag_clean _ _ _ _)
  | stringsNetworks =>
      cases h
      exact hclean (responseStringsFlag_clean _ _ _ _)
  | callList =>
      cases h
      exact hclean (responseList_clean _ _ _ _)
  | sms =>
      cases h
      exact hclean (responseStruct_clean _ _ _ _)
  | dataCallList =>
      cases h
      exact iff_false_intro (responseDataCallList_written m response responselen)
  | setupDataCall =>
      cases h
      exact iff_false_intro (responseSetupDataCall_written m response responselen)
  | raw =>
      cases h
      exact hclean (responseRaw_clean _ _)
  | simIo =>
      cases h
      exact hclean (responseStruct_clean _ _ _ _)
  | callForwards =>
      cases h
      exact hclean (responseList_clean _ _ _ _)
  | cellList =>
      cases h
      exact hclean (responseList_clean _ _ _ _)
  | rilSignalStrength => exact hclean (responseRilSignalStrength_clean h)
  | cellInfoList =>
      cases h
      exact hclean (responseList_clean _ _ _ _)
  | simStatus => exact hclean (responseSimStatus_clean h)
  | gsmBrSmsCnf => exact hclean (responseConfigs_clean h)
  | cdmaBrSmsCnf => exact hclean (responseConfigs_clean h)
  | getDataCallProfile => exact hclean (responseGetDataCallProfile_clean h)
  | cdmaInformationRecords => exact responseCdmaInformationRecords_written h

end Libril.Responses
