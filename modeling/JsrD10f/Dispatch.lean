import JsrD10f.ParcelCursor
import JsrD10f.UnsolResponses

/-!
# The dispatch functions

Each entry of `s_commands` names a dispatch function, which unpacks the payload
of a request and hands it to the vendor RIL.  A function that finds the payload
broken calls `invalidCommandBlock`, which writes a log line and returns.

Strings are kept as the UTF-16 text of the parcel; the conversion to UTF-8 only
matters for being `NULL` or empty.  Lengths are 32-bit `size_t` values.  Memory
on the stack is not checked by the code: an array that does not fit, or a write
behind its end, is the outcome `overrun`.
-/

namespace Libril

open Parcel

/-- What the build and the process fix.  `BoardConfig.mk` sets either
`RIL_VARIANT_LEGACY` or `RILJ_USE_CLA`.  `stack` is the stack space of the
dispatching thread, `junk` what an uninitialised variable holds. -/
structure Build where
  version : Int
  variantLegacy : Bool
  noCellInfoList : Bool
  stack : Nat
  junk : Int
  junkByte : UInt8
deriving Repr

/-- A `char *`. -/
abbrev Text := Option (List UInt16)

structure SmsWriteArgs where
  status : Int
  pdu : Text
  smsc : Text
deriving DecidableEq, Repr

structure UusInfo where
  uusType : Int
  uusDcs : Int
  uusLength : Int
  uusData : Option (List UInt8)
deriving DecidableEq, Repr

structure Dial where
  address : Text
  clir : Int
  uusInfo : Option UusInfo
deriving DecidableEq, Repr

structure SimIo where
  cla : Int
  command : Int
  fileid : Int
  path : Text
  p1 : Int
  p2 : Int
  p3 : Int
  data : Text
  pin2 : Text
  aidPtr : Text
deriving DecidableEq, Repr

structure CallForwardInfo where
  status : Int
  reason : Int
  serviceClass : Int
  toa : Int
  number : Text
  timeSeconds : Int
deriving DecidableEq, Repr

/-- `RIL_CDMA_SMS_Message`.  The arrays hold zeros behind the listed bytes. -/
structure CdmaSmsMessage where
  uTeleserviceID : Int
  bIsServicePresent : UInt8
  uServicecategory : Int
  digitMode : Int
  numberMode : Int
  numberType : Int
  numberPlan : Int
  numberOfDigits : UInt8
  digits : List UInt8
  subaddressType : Int
  subOdd : UInt8
  subNumberOfDigits : UInt8
  subDigits : List UInt8
  uBearerDataLen : Int
  aBearerData : List UInt8
deriving DecidableEq, Repr

structure GsmBroadcastSmsConfigInfo where
  fromServiceId : Int
  toServiceId : Int
  fromCodeScheme : Int
  toCodeScheme : Int
  selected : UInt8
deriving DecidableEq, Repr

structure CdmaBroadcastSmsConfigInfo where
  serviceCategory : Int
  language : Int
  selected : UInt8
deriving DecidableEq, Repr

structure InitialAttachApn where
  apn : Text
  protocol : Text
  authtype : Int
  username : Text
  password : Text
deriving DecidableEq, Repr

structure SelectUiccSub where
  slot : Int
  appIndex : Int
  subType : Int
  actStatus : Int
deriving DecidableEq, Repr

/-- The data of an `onRequest` call.  Its length is written out where the code
computes it; elsewhere it is the size of the structure, of which an old vendor
RIL does not know the last field of `RIL_Dial` and the version 6 fields of
`RIL_SIM_IO`. -/
inductive RequestData where
  | void
  | string (s : Text)
  | strings (l : Option (List Text)) (datalen : Nat)
  | ints (l : List Int) (datalen : Nat)
  | smsWrite (args : SmsWriteArgs)
  | dial (d : Dial) (hasUusInfo : Bool)
  | simIo (io : SimIo) (isV6 : Bool)
  | callForward (cff : CallForwardInfo)
  | raw (data : Option (List UInt8)) (len : Int)
  | cdmaSms (m : CdmaSmsMessage)
  | imsGsmSms (retry : UInt8) (messageRef : Int) (l : Option (List Text)) (datalen : Nat)
  | imsCdmaSms (retry : UInt8) (messageRef : Int) (m : CdmaSmsMessage)
  | cdmaSmsAck (uErrorClass uSMSCauseCode : Int)
  | gsmBrSmsCnf (l : List GsmBroadcastSmsConfigInfo) (datalen : Nat)
  | cdmaBrSmsCnf (l : List CdmaBroadcastSmsConfigInfo) (datalen : Nat)
  | cdmaSmsWriteArgs (status : Int) (m : CdmaSmsMessage)
  | initialAttachApn (pf : InitialAttachApn)
  | uiccSub (sub : SelectUiccSub)
deriving DecidableEq, Repr

/-- What a response function returns, and the bytes it has written. -/
structure Marshalled where
  ret : Int
  written : List UInt8
deriving DecidableEq, Repr

/-- The arguments of `RIL_onRequestComplete`. -/
structure Reply where
  error : Int
  response : Option Marshalled
deriving DecidableEq, Repr

/-- How a dispatch function ends.  `unknownFormat` is the branch of
`dispatchImsSms` that only writes a log line. -/
inductive DispatchResult where
  | onRequest (data : RequestData)
  | invalidCommandBlock
  | unknownFormat
  | overrun
deriving DecidableEq, Repr

/-- The same for all entries of `s_commands`: two of them may call
`RIL_onRequestComplete` themselves. -/
inductive CallResult where
  | dispatched (r : DispatchResult)
  | answered (replies : List Reply)
deriving DecidableEq, Repr

/-- `size * count` as a `size_t`. -/
def sizeTimes (size : Nat) (count : Int) : Nat :=
  (size * count % 4294967296).toNat

def dispatchVoid : DispatchResult :=
  .onRequest .void

def dispatchString (c : Cursor) : DispatchResult :=
  let (string8, _) := readString c
  .onRequest (.string string8)

def stringsLoop : Nat → Cursor → List Text
  | 0, _ => []
  | n + 1, c =>
      let (s, c) := readString c
      s :: stringsLoop n c

/-- The array of `dispatchStrings` and `dispatchImsGsmSms` with its length, or
nothing when it is too large for the stack or for a `size_t`. -/
def readStrings (b : Build) (countStrings : Int) (c : Cursor) :
    Option (Option (List Text) × Nat) :=
  if countStrings = 0 then some (some [], 0)
  else if countStrings = -1 then some (none, 0)
  else
    let datalen := sizeTimes 4 countStrings
    if datalen ≤ b.stack ∧ 4 * countStrings ≤ datalen then
      some (some (stringsLoop countStrings.toNat c), datalen)
    else none

def dispatchStrings (b : Build) (c : Cursor) : DispatchResult :=
  let (countStrings, c) := readInt32 b.junk c
  if !c.ok then .invalidCommandBlock
  else
    match readStrings b countStrings c with
    | some (l, datalen) => .onRequest (.strings l datalen)
    | none => .overrun

/-- The loop of `dispatchInts` from index `i` on.  The element is written
before the status of its read is checked. -/
def intsLoop (b : Build) (datalen : Nat) : Nat → Nat → Cursor → Except DispatchResult (List Int)
  | 0, _, _ => .ok []
  | n + 1, i, c =>
      let (t, c) := readInt32 b.junk c
      if datalen < 4 * (i + 1) then .error .overrun
      else if !c.ok then .error .invalidCommandBlock
      else (intsLoop b datalen n (i + 1) c).map (t :: ·)

def dispatchInts (b : Build) (c : Cursor) : DispatchResult :=
  let (count, c) := readInt32 b.junk c
  if !c.ok || count == 0 then .invalidCommandBlock
  else
    let datalen := sizeTimes 4 count
    if b.stack < datalen then .overrun
    else
      match intsLoop b datalen count.toNat 0 c with
      | .ok l => .onRequest (.ints l datalen)
      | .error e => e

def dispatchSmsWrite (b : Build) (c : Cursor) : DispatchResult :=
  let (status, c) := readInt32 b.junk c
  let (pdu, c) := readString c
  if !c.ok || pdu.isNone then .invalidCommandBlock
  else
    let (smsc, _) := readString c
    .onRequest (.smsWrite ⟨status, pdu, smsc⟩)

/-- The user-to-user information of a dialling request. -/
def readUusInfo (t : Int) (c : Cursor) (junk : Int) : Option UusInfo :=
  let (uusType, c) := readInt32 t c
  let (uusDcs, c) := readInt32 uusType c
  let (len, c) := readInt32 junk c
  if !c.ok then none
  else if len = -1 then some ⟨uusType, uusDcs, 0, none⟩
  else
    let (uusData, _) := readInplace len c
    some ⟨uusType, uusDcs, len, uusData⟩

def dispatchDial (b : Build) (c : Cursor) : DispatchResult :=
  let (address, c) := readString c
  let (clir, c) := readInt32 b.junk c
  if !c.ok || address.isNone then .invalidCommandBlock
  else if b.version < 3 then .onRequest (.dial ⟨address, clir, none⟩ false)
  else
    let (uusPresent, c) := readInt32 b.junk c
    if !c.ok then .invalidCommandBlock
    else if uusPresent = 0 then .onRequest (.dial ⟨address, clir, none⟩ true)
    else
      match readUusInfo clir c b.junk with
      | some uusInfo => .onRequest (.dial ⟨address, clir, some uusInfo⟩ true)
      | none => .invalidCommandBlock

/-- `dispatchSIM_IO`.  `transmit` says that the request is one of the two
`SIM_TRANSMIT` requests.  Only the status of the last number is checked. -/
def dispatchSimIo (b : Build) (transmit : Bool) (c : Cursor) : DispatchResult :=
  let (cla, t, c) :=
    if transmit && !b.variantLegacy then
      let (t, c) := readInt32 b.junk c
      (t, t, c)
    else (0, b.junk, c)
  let (command, c) := readInt32 t c
  let (fileid, c) := readInt32 command c
  let (path, c) := readString c
  let (p1, c) := readInt32 fileid c
  let (p2, c) := readInt32 p1 c
  let (p3, c) := readInt32 p2 c
  let (data, c) := readString c
  let (pin2, c) := readString c
  let (aidPtr, c) := readString c
  if !c.ok then .invalidCommandBlock
  else
    .onRequest (.simIo ⟨cla, command, fileid, path, p1, p2, p3, data, pin2, aidPtr⟩
      (6 ≤ b.version))

def dispatchCallForward (b : Build) (c : Cursor) : DispatchResult :=
  let (status, c) := readInt32 b.junk c
  let (reason, c) := readInt32 status c
  let (serviceClass, c) := readInt32 reason c
  let (toa, c) := readInt32 serviceClass c
  let (number, c) := readString c
  let (timeSeconds, c) := readInt32 toa c
  if !c.ok then .invalidCommandBlock
  else
    let number := if number = some [] then none else number
    .onRequest (.callForward ⟨status, reason, serviceClass, toa, number, timeSeconds⟩)

/-- `dispatchRaw`.  The null pointer chosen for length -1 is overwritten by the
read of zero bytes. -/
def dispatchRaw (b : Build) (c : Cursor) : DispatchResult :=
  let (len, c) := readInt32 b.junk c
  if !c.ok then .invalidCommandBlock
  else
    let len := if len = -1 then 0 else len
    let (data, _) := readInplace len c
    .onRequest (.raw data len)

/-- A loop of byte reads into an array.  The last value stays in `ut`. -/
def bytesLoop : Nat → UInt8 → Cursor → List UInt8 × UInt8 × Cursor
  | 0, ut, c => ([], ut, c)
  | n + 1, ut, c =>
      let (ut, c) := readByte ut c
      let (l, ut', c) := bytesLoop n ut c
      (ut :: l, ut', c)

def cdmaSmsAddressMax : Nat := 36

def cdmaSmsSubaddressMax : Nat := 36

def cdmaSmsBearerDataMax : Nat := 255

/-- The fields of a CDMA message, in the order in which `constructCdmaSms` and
`dispatchRilCdmaSmsWriteArgs` read them.  The two differ in how many array
elements they take. -/
def readCdmaMessage (b : Build) (address subaddress : UInt8 → Nat) (bearer : Int → Nat)
    (t : Int) (c : Cursor) : CdmaSmsMessage × Cursor :=
  let (uTeleserviceID, c) := readInt32 t c
  let (bIsServicePresent, c) := readByte b.junkByte c
  let (uServicecategory, c) := readInt32 uTeleserviceID c
  let (digitMode, c) := readInt32 uServicecategory c
  let (numberMode, c) := readInt32 digitMode c
  let (numberType, c) := readInt32 numberMode c
  let (numberPlan, c) := readInt32 numberType c
  let (numberOfDigits, c) := readByte bIsServicePresent c
  let (digits, ut, c) := bytesLoop (address numberOfDigits) numberOfDigits c
  let (subaddressType, c) := readInt32 numberPlan c
  let (subOdd, c) := readByte ut c
  let (subNumberOfDigits, c) := readByte subOdd c
  let (subDigits, ut, c) := bytesLoop (subaddress subNumberOfDigits) subNumberOfDigits c
  let (uBearerDataLen, c) := readInt32 subaddressType c
  let (aBearerData, _, c) := bytesLoop (bearer uBearerDataLen) ut c
  ({ uTeleserviceID, bIsServicePresent, uServicecategory, digitMode, numberMode, numberType,
     numberPlan, numberOfDigits, digits, subaddressType, subOdd, subNumberOfDigits, subDigits,
     uBearerDataLen, aBearerData }, c)

def constructCdmaSms (b : Build) (c : Cursor) : Option CdmaSmsMessage :=
  let (m, c) := readCdmaMessage b (fun n => min n.toNat cdmaSmsAddressMax)
    (fun n => min n.toNat cdmaSmsSubaddressMax)
    (fun n => (min n cdmaSmsBearerDataMax).toNat) b.junk c
  if !c.ok then none else some m

def dispatchCdmaSms (b : Build) (c : Cursor) : DispatchResult :=
  match constructCdmaSms b c with
  | none => .invalidCommandBlock
  | some m => .onRequest (.cdmaSms m)

def dispatchImsCdmaSms (b : Build) (retry : UInt8) (messageRef : Int) (c : Cursor) : DispatchResult :=
  match constructCdmaSms b c with
  | none => .invalidCommandBlock
  | some m => .onRequest (.imsCdmaSms retry messageRef m)

def dispatchImsGsmSms (b : Build) (retry : UInt8) (messageRef : Int) (c : Cursor) : DispatchResult :=
  let (countStrings, c) := readInt32 b.junk c
  if !c.ok then .invalidCommandBlock
  else
    match readStrings b countStrings c with
    | some (l, datalen) => .onRequest (.imsGsmSms retry messageRef l datalen)
    | none => .overrun

/-- `dispatchImsSms`.  `RADIO_TECH_3GPP` is 1, `RADIO_TECH_3GPP2` is 2; for any
other format the function only writes a log line. -/
def dispatchImsSms (b : Build) (c : Cursor) : DispatchResult :=
  let (format, c) := readInt32 b.junk c
  if !c.ok then .invalidCommandBlock
  else
    let (retry, c) := readByte b.junkByte c
    if !c.ok then .invalidCommandBlock
    else
      let (messageRef, c) := readInt32 b.junk c
      if !c.ok then .invalidCommandBlock
      else if format = 1 then dispatchImsGsmSms b retry messageRef c
      else if format = 2 then dispatchImsCdmaSms b retry messageRef c
      else .unknownFormat

def dispatchCdmaSmsAck (b : Build) (c : Cursor) : DispatchResult :=
  let (uErrorClass, c) := readInt32 b.junk c
  let (uSMSCauseCode, c) := readInt32 uErrorClass c
  if !c.ok then .invalidCommandBlock
  else .onRequest (.cdmaSmsAck uErrorClass uSMSCauseCode)

def gsmBrLoop : Nat → Int → Cursor → List GsmBroadcastSmsConfigInfo × Cursor
  | 0, _, c => ([], c)
  | n + 1, t, c =>
      let (fromServiceId, c) := readInt32 t c
      let (toServiceId, c) := readInt32 fromServiceId c
      let (fromCodeScheme, c) := readInt32 toServiceId c
      let (toCodeScheme, c) := readInt32 fromCodeScheme c
      let (selected, c) := readInt32 toCodeScheme c
      let (l, c) := gsmBrLoop n selected c
      (⟨fromServiceId, toServiceId, fromCodeScheme, toCodeScheme,
        .ofNat (selected % 256).toNat⟩ :: l, c)

def cdmaBrLoop : Nat → Int → Cursor → List CdmaBroadcastSmsConfigInfo × Cursor
  | 0, _, c => ([], c)
  | n + 1, t, c =>
      let (serviceCategory, c) := readInt32 t c
      let (language, c) := readInt32 serviceCategory c
      let (selected, c) := readInt32 language c
      let (l, c) := cdmaBrLoop n selected c
      (⟨serviceCategory, language, .ofNat (selected % 256).toNat⟩ :: l, c)

/-- The arrays `gsmBci[num]` and `gsmBciPtrs[num]`, or their CDMA
counterparts, are in place: they fit on the stack and every element the loop
writes is inside. -/
def arraysFit (b : Build) (size : Nat) (num : Int) : Bool :=
  sizeTimes size num + sizeTimes 4 num ≤ b.stack && size * num ≤ sizeTimes size num

/-- `sizeof(RIL_GSM_BroadcastSmsConfigInfo)`. -/
def gsmBroadcastSize : Nat := 20

/-- `sizeof(RIL_CDMA_BroadcastSmsConfigInfo)`. -/
def cdmaBroadcastSize : Nat := 12

def dispatchGsmBrSmsCnf (b : Build) (c : Cursor) : DispatchResult :=
  let (num, c) := readInt32 b.junk c
  if !c.ok then .invalidCommandBlock
  else if !arraysFit b gsmBroadcastSize num then .overrun
  else
    let (l, c) := gsmBrLoop num.toNat b.junk c
    if !c.ok then .invalidCommandBlock
    else .onRequest (.gsmBrSmsCnf l (sizeTimes 4 num))

def dispatchCdmaBrSmsCnf (b : Build) (c : Cursor) : DispatchResult :=
  let (num, c) := readInt32 b.junk c
  if !c.ok then .invalidCommandBlock
  else if !arraysFit b cdmaBroadcastSize num then .overrun
  else
    let (l, c) := cdmaBrLoop num.toNat b.junk c
    if !c.ok then .invalidCommandBlock
    else .onRequest (.cdmaBrSmsCnf l (sizeTimes 4 num))

def dispatchRilCdmaSmsWriteArgs (b : Build) (c : Cursor) : DispatchResult :=
  let (status, c) := readInt32 b.junk c
  let (m, c) := readCdmaMessage b (fun _ => cdmaSmsAddressMax) (fun _ => cdmaSmsSubaddressMax)
    (fun _ => cdmaSmsBearerDataMax) status c
  if !c.ok then .invalidCommandBlock
  else .onRequest (.cdmaSmsWriteArgs status m)

/-- The parcel that `dispatchDataCall` builds for a vendor RIL before version 4.
A string that cannot be read is written as an empty one. -/
def dropParams : Nat → Cursor → List UInt8
  | 0, _ => []
  | n + 1, c =>
      let (s, c) := readString c
      encodeString (s.getD []) ++ dropParams n c

/-- `dispatchDataCall`.  `readInt32()` returns 0 when there is no number.  The
request code and the token, which are copied too, are not read again. -/
def dispatchDataCall (b : Build) (c : Cursor) : DispatchResult :=
  let (numParams, c') := readInt32 0 c
  if b.version < 4 ∧ 6 < numParams then
    dispatchStrings b ⟨encodeInt32 6 ++ dropParams 6 c', true⟩
  else dispatchStrings b c

def RadioTech.value : RadioTech → Int
  | .umts => 3
  | .oneXRtt => 6

def CdmaSubscriptionSource.value : CdmaSubscriptionSource → Int
  | .ruimSim => 0
  | .nv => 1

/-- `responseInts`. -/
def responseInts (l : List Int) : Marshalled :=
  ⟨0, encodeInt32 l.length ++ l.flatMap encodeInt32⟩

/-- The answers for an old vendor RIL.  Nothing returns after the first of them
when the radio is off or unavailable. -/
def oldAnswers (state : RadioState) (value : Option Int) : List Reply :=
  (if state = .unavailable ∨ state = .off then [⟨1, none⟩] else []) ++
    [match value with
      | none => ⟨2, none⟩
      | some v => ⟨0, some (responseInts [v])⟩]

def dispatchVoiceRadioTech (state : RadioState) (radio : RadioVars) : CallResult × RadioVars :=
  if state = .on then (.dispatched dispatchVoid, radio)
  else
    let tech := decodeVoiceRadioTechnology state
    (.answered (oldAnswers state (tech.map RadioTech.value)), { radio with voiceRadioTech := tech })

def dispatchCdmaSubscriptionSource (state : RadioState) (radio : RadioVars) :
    CallResult × RadioVars :=
  if state = .on then (.dispatched dispatchVoid, radio)
  else
    let source := decodeCdmaSubscriptionSource state
    (.answered (oldAnswers state (source.map CdmaSubscriptionSource.value)),
      { radio with cdmaSubscriptionSource := source })

def dispatchSetInitialAttachApn (b : Build) (c : Cursor) : DispatchResult :=
  let (apn, c) := readString c
  let (protocol, c) := readString c
  let (authtype, c) := readInt32 b.junk c
  let (username, c) := readString c
  let (password, c) := readString c
  if !c.ok then .invalidCommandBlock
  else .onRequest (.initialAttachApn ⟨apn, protocol, authtype, username, password⟩)

def dispatchUiccSubscripton (b : Build) (c : Cursor) : DispatchResult :=
  let (slot, c) := readInt32 b.junk c
  if !c.ok then .invalidCommandBlock
  else
    let (appIndex, c) := readInt32 slot c
    if !c.ok then .invalidCommandBlock
    else
      let (subType, c) := readInt32 appIndex c
      if !c.ok then .invalidCommandBlock
      else
        let (actStatus, c) := readInt32 subType c
        if !c.ok then .invalidCommandBlock
        else .onRequest (.uiccSub ⟨slot, appIndex, subType, actStatus⟩)

/-- The dispatch functions that `s_commands` names. -/
inductive Dispatch where
  | void
  | string
  | strings
  | ints
  | smsWrite
  | dial
  | simIo (transmit : Bool)
  | callForward
  | raw
  | cdmaSms
  | imsSms
  | cdmaSmsAck
  | gsmBrSmsCnf
  | cdmaBrSmsCnf
  | rilCdmaSmsWriteArgs
  | dataCall
  | voiceRadioTech
  | cdmaSubscriptionSource
  | setInitialAttachApn
  | uiccSubscripton
deriving DecidableEq, Repr

/-- The call of a dispatch function.  `state` is what `onStateRequest` would
return. -/
def Dispatch.call (b : Build) (state : RadioState) (radio : RadioVars) (c : Cursor) :
    Dispatch → CallResult × RadioVars
  | .void => (.dispatched dispatchVoid, radio)
  | .string => (.dispatched (dispatchString c), radio)
  | .strings => (.dispatched (dispatchStrings b c), radio)
  | .ints => (.dispatched (dispatchInts b c), radio)
  | .smsWrite => (.dispatched (dispatchSmsWrite b c), radio)
  | .dial => (.dispatched (dispatchDial b c), radio)
  | .simIo transmit => (.dispatched (dispatchSimIo b transmit c), radio)
  | .callForward => (.dispatched (dispatchCallForward b c), radio)
  | .raw => (.dispatched (dispatchRaw b c), radio)
  | .cdmaSms => (.dispatched (dispatchCdmaSms b c), radio)
  | .imsSms => (.dispatched (dispatchImsSms b c), radio)
  | .cdmaSmsAck => (.dispatched (dispatchCdmaSmsAck b c), radio)
  | .gsmBrSmsCnf => (.dispatched (dispatchGsmBrSmsCnf b c), radio)
  | .cdmaBrSmsCnf => (.dispatched (dispatchCdmaBrSmsCnf b c), radio)
  | .rilCdmaSmsWriteArgs => (.dispatched (dispatchRilCdmaSmsWriteArgs b c), radio)
  | .dataCall => (.dispatched (dispatchDataCall b c), radio)
  | .voiceRadioTech => dispatchVoiceRadioTech state radio
  | .cdmaSubscriptionSource => dispatchCdmaSubscriptionSource state radio
  | .setInitialAttachApn => (.dispatched (dispatchSetInitialAttachApn b c), radio)
  | .uiccSubscripton => (.dispatched (dispatchUiccSubscripton b c), radio)

end Libril
