import JsrD10f.Answers
import JsrD10f.SmsCodec
import JsrD10f.UnsolReads
import JsrD10f.UnsolResponses

/-!
# Frames of unsolicited responses

`RIL_onUnsolicitedResponse` looks up the code in `s_unsolResponses`, writes two numbers
and lets the response function of the entry write the rest.  Two entries get more: a
change of the radio state ends with the new state, and the network time with the time
of its arrival.

A client that knows the table reads such a frame from its front to its end.  It finds
the code, what the vendor said, and the additional number of the two entries.
-/

namespace Libril.Responses

open Parcel Reading

/-! ## Null pointers

A null pointer without a length is a response as well. -/

/-- The response that a null pointer without a length stands for.  Structures have none. -/
def ResponseFunction.toldNothing (m : Marshaller) : ResponseFunction → Answer
  | .void | .sms | .simIo | .rilSignalStrength | .simStatus | .getDataCallProfile
  | .cdmaInformationRecords => .void
  | .ints => .ints []
  | .string => .string none
  | .strings | .stringsNetworks => .strings []
  | .callList => .calls []
  | .dataCallList => if m.version < 5 then .dataCallsV4 m.version [] else .dataCalls m.version []
  | .setupDataCall =>
      if m.version < 5 then .setupStrings m.version []
      else .dataCalls m.version []
  | .raw => .raw []
  | .callForwards => .callForwards []
  | .cellList => .cells []
  | .cellInfoList => .cellInfos []
  | .gsmBrSmsCnf => .gsmConfigs []
  | .cdmaBrSmsCnf => .cdmaConfigs []

section Nothing

variable {m : Marshaller} {responselen : Nat}

theorem takes_empty {α : Type} (reader : Reader UInt8 α) :
    Takes (readList reader) (encodeInt32 0) [] := by
  rw [← List.append_nil (encodeInt32 0)]
  exact (takes_int (by decide)).bind (Takes.pure [])

theorem takes_responseList_none {α : Type} {record : Content → Nat → List UInt8}
    {reader : Reader UInt8 α} {size : Nat}
    (hret : (responseList size record none responselen).ret = 0) :
    Takes (readList reader) (responseList size record none responselen).written [] := by
  unfold responseList at hret ⊢
  by_cases hlen : responselen = 0
  · subst hlen
    simp only [nullWithLength, Option.isNone_none, bne_self_eq_false, Bool.and_false,
      Bool.false_eq_true, if_false, Nat.zero_mod, ne_eq, not_true_eq_false, Nat.zero_div,
      Option.map_none, Option.getD_none, List.append_nil]
    exact takes_empty reader
  · have hnull : nullWithLength none responselen = true := by
      simpa [nullWithLength] using hlen
    rw [if_pos hnull] at hret
    cases hret

theorem takes_strings_none {networkSearch : Bool}
    (hret : (responseStringsFlag m networkSearch none responselen).ret = 0) :
    Takes (readList readText) (responseStringsFlag m networkSearch none responselen).written
      [] := by
  unfold responseStringsFlag at hret ⊢
  split at hret
  · cases hret
  · split at hret
    · cases hret
    · rename_i hnull hmod
      rw [if_neg hnull, if_neg hmod]
      exact takes_empty readText

theorem takes_dataCallList_none (hm : m.Typed)
    (hret : (responseDataCallList m none responselen).ret = 0) :
    Takes (readDataCallList m) (responseDataCallList m none responselen).written
      (ResponseFunction.dataCallList.toldNothing m) := by
  unfold responseDataCallList at hret ⊢
  unfold readDataCallList
  dsimp only [ResponseFunction.toldNothing]
  by_cases hversion : m.version < 5
  · rw [if_pos hversion] at hret ⊢
    rw [if_pos hversion, if_pos hversion]
    exact ((takes_int hm.version).map Answer.dataCallsV4).seq (takes_responseList_none hret)
  · rw [if_neg hversion] at hret ⊢
    rw [if_neg hversion, if_neg hversion]
    exact ((takes_int hm.version).map Answer.dataCalls).seq (takes_responseList_none hret)

theorem takes_setupDataCall_none (hm : m.Typed)
    (hret : (responseSetupDataCall m none responselen).ret = 0) :
    Takes (ResponseFunction.setupDataCall.read m)
      (responseSetupDataCall m none responselen).written
      (ResponseFunction.setupDataCall.toldNothing m) := by
  unfold responseSetupDataCall at hret ⊢
  dsimp only [ResponseFunction.read, ResponseFunction.toldNothing]
  by_cases hversion : m.version < 5
  · rw [if_pos hversion] at hret ⊢
    rw [if_pos hversion, if_pos hversion]
    exact ((takes_int hm.version).map Answer.setupStrings).seq (takes_strings_none hret)
  · rw [if_neg hversion] at hret ⊢
    rw [if_neg hversion, if_neg hversion]
    have hlist := takes_dataCallList_none hm hret
    dsimp only [ResponseFunction.toldNothing] at hlist
    rwa [if_neg hversion] at hlist

theorem takes_raw_none (hret : (responseRaw none responselen).ret = 0) :
    Takes readRaw (responseRaw none responselen).written [] := by
  unfold responseRaw at hret ⊢
  split at hret
  · cases hret
  · rename_i hnull
    rw [if_neg hnull]
    have hempty := (takes_int (v := -1) (by decide)).bind (f := fun len => readBytes len.toNat)
      (takes_bytes (List.length_nil (α := UInt8)))
    exact hempty

/-- No result, or an error. -/
def Fails (x : Option Marshalled) : Prop :=
  ∀ r, x = some r → r.ret ≠ 0

theorem fails_none : Fails none :=
  fun _ h => by cases h

theorem fails_invalidResponse : Fails (some (invalidResponse [])) := by
  intro r h
  cases h
  decide

theorem Fails.ite {p : Prop} [Decidable p] {x y : Option Marshalled} (hx : Fails x)
    (hy : Fails y) : Fails (if p then x else y) := by
  split
  · exact hx
  · exact hy

theorem takes_configs_none {α : Type} (record : Content → Nat → List UInt8) {r : Marshalled}
    {reader : Reader UInt8 α} (hcall : responseConfigs record none responselen = some r) :
    Takes (readList reader) r.written [] := by
  unfold responseConfigs at hcall
  dsimp only at hcall
  split at hcall
  · cases hcall
    exact takes_empty reader
  · cases hcall

/-- The answer to a null pointer is the empty one of its kind. -/
theorem takes_nothing (hm : m.Typed) (f : ResponseFunction) {r : Marshalled}
    (hcall : f.call m none responselen = some r) (hret : r.ret = 0) :
    Takes (f.read m) r.written (f.toldNothing m) := by
  cases f with
  | void =>
      cases hcall
      exact Takes.pure Answer.void
  | ints =>
      cases hcall
      exact (takes_responseList_none hret).map Answer.ints
  | string =>
      cases hcall
      have hmissing := takes_text (t := none) fun text htext => by cases htext
      exact hmissing.map Answer.string
  | strings =>
      cases hcall
      exact (takes_strings_none hret).map Answer.strings
  | stringsNetworks =>
      cases hcall
      exact (takes_strings_none hret).map Answer.strings
  | callList =>
      cases hcall
      exact (takes_responseList_none hret).map Answer.calls
  | sms =>
      cases hcall
      cases hret
  | dataCallList =>
      cases hcall
      exact takes_dataCallList_none hm hret
  | setupDataCall =>
      cases hcall
      exact takes_setupDataCall_none hm hret
  | raw =>
      cases hcall
      exact (takes_raw_none hret).map Answer.raw
  | simIo =>
      cases hcall
      cases hret
  | callForwards =>
      cases hcall
      exact (takes_responseList_none hret).map Answer.callForwards
  | cellList =>
      cases hcall
      exact (takes_responseList_none hret).map Answer.cells
  | rilSignalStrength =>
      have hfails : Fails (responseRilSignalStrength m none responselen) :=
        fails_invalidResponse.ite (fails_none.ite fails_invalidResponse)
      exact absurd hret (hfails r hcall)
  | cellInfoList =>
      cases hcall
      exact (takes_responseList_none hret).map Answer.cellInfos
  | simStatus =>
      have hfails : Fails (responseSimStatus m none responselen) :=
        fails_invalidResponse.ite (fails_none.ite (fails_none.ite fails_invalidResponse))
      exact absurd hret (hfails r hcall)
  | gsmBrSmsCnf =>
      exact (takes_configs_none (fun c i => writeGsmConfig (c.gsmConfigs i)) hcall).map
        Answer.gsmConfigs
  | cdmaBrSmsCnf =>
      exact (takes_configs_none (fun c i => writeCdmaConfig (c.cdmaConfigs i)) hcall).map
        Answer.cdmaConfigs
  | getDataCallProfile =>
      have hfails : Fails (responseGetDataCallProfile m none responselen) :=
        fails_invalidResponse.ite fails_none
      exact absurd hret (hfails r hcall)
  | cdmaInformationRecords =>
      have hfails : Fails (responseCdmaInformationRecords m none responselen) :=
        fails_invalidResponse.ite (fails_invalidResponse.ite fails_none)
      exact absurd hret (hfails r hcall)

end Nothing

end Libril.Responses

namespace Libril

open Parcel Responses VendorMemory UnsolReads Reading

/-! ## The table -/

/-- The response functions of `s_unsolResponses`. -/
inductive UnsolFunction where
  | listed (f : ResponseFunction)
  | ssn
  | simRefresh
  | callRing
  | cdmaSms
  | cdmaCallWaiting
  | ssData
deriving DecidableEq, Repr

def Unsol.function : Unsol → UnsolFunction
  | .radioStateChanged => .listed .void
  | .callStateChanged => .listed .void
  | .voiceNetworkStateChanged => .listed .void
  | .newSms => .listed .string
  | .newSmsStatusReport => .listed .string
  | .newSmsOnSim => .listed .ints
  | .onUssd => .listed .strings
  | .onUssdRequest => .listed .void
  | .nitzTimeReceived => .listed .string
  | .signalStrength => .listed .rilSignalStrength
  | .dataCallListChanged => .listed .dataCallList
  | .suppSvcNotification => .ssn
  | .stkSessionEnd => .listed .void
  | .stkProactiveCommand => .listed .string
  | .stkEventNotify => .listed .string
  | .stkCallSetup => .listed .ints
  | .simSmsStorageFull => .listed .void
  | .simRefresh => .simRefresh
  | .callRing => .callRing
  | .simStatusChanged => .listed .void
  | .cdmaNewSms => .cdmaSms
  | .newBroadcastSms => .listed .raw
  | .cdmaRuimSmsStorageFull => .listed .void
  | .restrictedStateChanged => .listed .ints
  | .enterEmergencyCallbackMode => .listed .void
  | .cdmaCallWaiting => .cdmaCallWaiting
  | .cdmaOtaProvisionStatus => .listed .ints
  | .cdmaInfoRec => .listed .cdmaInformationRecords
  | .oemHookRaw => .listed .raw
  | .ringbackTone => .listed .ints
  | .resendIncallMute => .listed .void
  | .cdmaSubscriptionSourceChanged => .listed .ints
  | .cdmaPrlChanged => .listed .ints
  | .exitEmergencyCallbackMode => .listed .void
  | .rilConnected => .listed .ints
  | .voiceRadioTechChanged => .listed .ints
  | .cellInfoList => .listed .cellInfoList
  | .imsNetworkStateChanged => .listed .void
  | .onSs => .ssData
  | .stkCcAlphaNotify => .listed .string
  | .uiccSubscriptionStatusChanged => .listed .ints

/-- `s_unsolResponses` up to the entry that a build may leave out. -/
def baseUnsol : List Unsol :=
  [.radioStateChanged, .callStateChanged, .voiceNetworkStateChanged, .newSms,
    .newSmsStatusReport, .newSmsOnSim, .onUssd, .onUssdRequest, .nitzTimeReceived,
    .signalStrength, .dataCallListChanged, .suppSvcNotification, .stkSessionEnd,
    .stkProactiveCommand, .stkEventNotify, .stkCallSetup, .simSmsStorageFull, .simRefresh,
    .callRing, .simStatusChanged, .cdmaNewSms, .newBroadcastSms, .cdmaRuimSmsStorageFull,
    .restrictedStateChanged, .enterEmergencyCallbackMode, .cdmaCallWaiting,
    .cdmaOtaProvisionStatus, .cdmaInfoRec, .oemHookRaw, .ringbackTone, .resendIncallMute,
    .cdmaSubscriptionSourceChanged, .cdmaPrlChanged, .exitEmergencyCallbackMode,
    .rilConnected, .voiceRadioTechChanged]

def sUnsolResponses (b : Build) : List Unsol :=
  baseUnsol ++ (if b.noCellInfoList then [] else [.cellInfoList]) ++
    [.imsNetworkStateChanged, .onSs, .stkCcAlphaNotify, .uiccSubscriptionStatusChanged]

/-- The marshaller with what else the functions of this table take from `ril.h`, and
the memory behind the pointers of a buffer. -/
structure UnsolMarshaller extends Marshaller where
  layouts : UnsolLayouts
  strings : Int → List UInt16
  sizeofCdmaSms : Nat
  responseBase : Int

/-- What the data pointer leads to, as bytes and under the types it is cast to. -/
structure UnsolData where
  mem : Memory
  content : Content
  sms : CdmaSmsMessage

def UnsolFunction.call (m : UnsolMarshaller) (data : Option UnsolData) (datalen : Nat) :
    UnsolFunction → Option Marshalled
  | .listed f => f.call m.toMarshaller (data.map UnsolData.content) datalen
  | .ssn => (responseSsn m.layouts m.strings (data.map UnsolData.mem) datalen).map
      Encoded.marshalled
  | .simRefresh => (ResponseReads.responseSimRefresh m.layouts.toLayouts m.strings m.version
      (data.map UnsolData.mem) datalen).map Encoded.marshalled
  | .callRing => (responseCallRing m.layouts (data.map UnsolData.mem) datalen).map
      Encoded.marshalled
  | .cdmaSms => some (responseCdmaSms m.sizeofCdmaSms (data.map UnsolData.sms) datalen)
  | .cdmaCallWaiting => (ResponseReads.responseCdmaCallWaiting m.layouts.toLayouts m.strings
      (data.map UnsolData.mem) datalen).map Encoded.marshalled
  | .ssData => (responseSSData m.layouts m.strings (data.map UnsolData.mem) datalen).map
      Encoded.marshalled

/-- What the call finds out: the radio state that `processRadioState` makes of the result of
`onStateRequest`, and what `elapsedRealtime` returns. -/
structure Moment where
  newState : Int
  timeReceived : Int

/-- "Some things get more payload." -/
def Unsol.payload (now : Moment) : Unsol → List UInt8
  | .radioStateChanged => encodeInt32 now.newState
  | .nitzTimeReceived => encodeInt64 now.timeReceived
  | _ => []

/-- `RIL_onUnsolicitedResponse` up to `sendResponse`: the parcel, or `none` if it
returns before.  A function that follows a null pointer has no result. -/
def rilOnUnsolicitedResponse (m : UnsolMarshaller) (registerCalled : Bool) (now : Moment)
    (unsolResponse : Int) (data : Option UnsolData) (datalen : Nat) :
    Option (Option (List UInt8)) :=
  if !registerCalled then some none
  else
    let unsolResponseIndex := unsolResponse - m.responseBase
    if unsolResponseIndex < 0 ∨ (sUnsolResponses m.toBuild).length ≤ unsolResponseIndex then
      some none
    else do
      let u ← (sUnsolResponses m.toBuild)[unsolResponseIndex.toNat]?
      let r ← u.function.call m data datalen
      if r.ret ≠ 0 then some none
      else some (some (encodeInt32 1 ++ encodeInt32 unsolResponse ++ r.written ++ u.payload now))

/-! ## The client -/

/-- What the client learns from an unsolicited response. -/
inductive UnsolAnswer where
  | listed (answer : Answer)
  | ssn (r : SsnReport)
  | simRefresh (r : SimRefreshReport)
  | ring (signal : Option SignalReport)
  | cdmaSms (m : CdmaSmsMessage)
  | cdmaCallWaiting (r : CallWaitingReport)
  | ssData (r : SsDataReport)

/-- A message, as `constructCdmaSms` reads one. -/
def readCdmaSms (b : Build) : Reader UInt8 CdmaSmsMessage :=
  StateT.mk fun bytes =>
    let (m, c) := readCdmaMessage b addressLimit subaddressLimit bearerLimit b.junk ⟨bytes, true⟩
    if c.ok then some (m, c.rest) else none

/-- The readers; `cdma` is the kind of the phone. -/
def UnsolFunction.read (m : UnsolMarshaller) (cdma : Bool) :
    UnsolFunction → Reader UInt8 UnsolAnswer
  | .listed f => UnsolAnswer.listed <$> f.read m.toMarshaller
  | .ssn => UnsolAnswer.ssn <$> readSsn
  | .simRefresh => UnsolAnswer.simRefresh <$> readSimRefresh
  | .callRing => UnsolAnswer.ring <$> readRing cdma
  | .cdmaSms => UnsolAnswer.cdmaSms <$> readCdmaSms m.toBuild
  | .cdmaCallWaiting => UnsolAnswer.cdmaCallWaiting <$> readCallWaiting
  | .ssData => UnsolAnswer.ssData <$> readSsData m.layouts

def Unsol.readPayload : Unsol → Reader UInt8 (Option Int)
  | .radioStateChanged => some <$> readInt
  | .nitzTimeReceived => some <$> readInt64
  | _ => pure none

/-- A whole frame: its kind, its code, the answer and the additional number. -/
def readUnsolFrame (m : UnsolMarshaller) (cdma : Bool) :
    Reader UInt8 (Int × Int × UnsolAnswer × Option Int) := do
  let kind ← readInt
  let code ← readInt
  match (sUnsolResponses m.toBuild)[(code - m.responseBase).toNat]? with
  | none => failure
  | some u =>
      (fun answer payload => (kind, code, answer, payload)) <$> u.function.read m cdma <*>
        u.readPayload

/-- What the vendor says with its data.  A null pointer is no structure. -/
def UnsolFunction.told (m : UnsolMarshaller) (data : Option UnsolData) (datalen : Nat) :
    UnsolFunction → Option UnsolAnswer
  | .listed f => some (.listed (data.elim (f.toldNothing m.toMarshaller) fun d =>
      f.told m.toMarshaller d.content datalen))
  | .ssn => data.map fun d => .ssn (ssnIn m.layouts m.strings d.mem)
  | .simRefresh => data.map fun d =>
      .simRefresh (simRefreshIn m.layouts m.strings m.version d.mem)
  | .callRing => some (.ring (ringIn m.layouts (data.map UnsolData.mem) datalen))
  | .cdmaSms => data.map fun d => .cdmaSms (carried d.sms)
  | .cdmaCallWaiting => data.map fun d =>
      .cdmaCallWaiting (callWaitingIn m.layouts m.strings d.mem datalen)
  | .ssData => data.map fun d => .ssData (ssDataIn m.layouts m.strings d.mem)

def Unsol.toldPayload (now : Moment) : Unsol → Option Int
  | .radioStateChanged => some now.newState
  | .nitzTimeReceived => some now.timeReceived
  | _ => none

/-- The numbers have the width of their types, and texts have a length. -/
structure UnsolData.Typed (m : UnsolMarshaller) (d : UnsolData) : Prop where
  content : d.content.Typed m.toMarshaller
  sms : IsCdmaSms d.sms

structure UnsolMarshaller.Typed (m : UnsolMarshaller) : Prop where
  marshaller : m.toMarshaller.Typed
  strings : StringsShort m.strings

structure Moment.Typed (now : Moment) : Prop where
  newState : IsInt32 now.newState
  timeReceived : -9223372036854775808 ≤ now.timeReceived ∧
    now.timeReceived < 9223372036854775808

/-- The phone has the kind that the vendor takes it for. -/
def RingAgrees (cdma : Bool) (data : Option UnsolData) (datalen : Nat) : Prop :=
  signalled (data.map UnsolData.mem) datalen = cdma

/-! ## Reading back -/

section Frames

variable {m : UnsolMarshaller} {data : Option UnsolData} {datalen : Nat}

theorem takes_cdmaSms (b : Build) {msg : CdmaSmsMessage} (h : IsCdmaSms msg) :
    Takes (readCdmaSms b) (writeAddress msg ++ (writeSubaddress msg ++ writeBearerData msg))
      (carried msg) := by
  intro rest
  have hread := readCdmaMessage_written b h b.junk rest true
  rw [List.append_assoc, List.append_assoc, readCdmaSms, StateT.run_mk, hread]
  rfl

/-- The encoded response behind a marshalled one. -/
theorem exists_encoded {x : Option Encoded} {r : Marshalled}
    (hcall : x.map Encoded.marshalled = some r) (hret : r.ret = 0) :
    ∃ e, x = some e ∧ e.ret = 0 ∧ r.written = e.pass.written := by
  obtain ⟨e, he, rfl⟩ := Option.map_eq_some_iff.mp hcall
  exact ⟨e, he, hret, rfl⟩

/-- What a function accepts lies behind a pointer. -/
def NeedsPointer (f : Option Memory → Option Encoded) : Prop :=
  ∀ e, f none = some e → e.ret ≠ 0

theorem responseSsn_needsPointer (l : UnsolLayouts) (strings : Int → List UInt16)
    (responselen : Nat) : NeedsPointer fun p => responseSsn l strings p responselen := by
  intro e he
  cases he
  decide

theorem responseSimRefresh_needsPointer (l : ResponseReads.Layouts) (strings : Int → List UInt16)
    (version : Int) (responselen : Nat) :
    NeedsPointer fun p => ResponseReads.responseSimRefresh l strings version p responselen := by
  intro e he
  dsimp only [ResponseReads.responseSimRefresh] at he
  split at he
  · cases he
    decide
  · split at he <;> cases he

theorem responseCdmaCallWaiting_needsPointer (l : ResponseReads.Layouts)
    (strings : Int → List UInt16) (responselen : Nat) :
    NeedsPointer fun p => ResponseReads.responseCdmaCallWaiting l strings p responselen := by
  intro e he
  dsimp only [ResponseReads.responseCdmaCallWaiting] at he
  split at he
  · cases he
    decide
  · cases he

theorem responseSSData_needsPointer (l : UnsolLayouts) (strings : Int → List UInt16)
    (responselen : Nat) : NeedsPointer fun p => responseSSData l strings p responselen := by
  intro e he
  dsimp only [responseSSData] at he
  split at he
  · cases he
    decide
  · split at he
    · cases he
      decide
    · cases he

/-- Then the answer is that of the structure. -/
theorem takes_structure {f : Option Memory → Option Encoded} (hf : NeedsPointer f)
    {α : Type} {reader : Reader UInt8 α} {value : Memory → α} {answer : α → UnsolAnswer}
    (h : ∀ mem e, f (some mem) = some e → e.ret = 0 → Takes reader e.pass.written (value mem))
    {r : Marshalled} (hcall : (f (data.map UnsolData.mem)).map Encoded.marshalled = some r)
    (hret : r.ret = 0) :
    ∃ a, (data.map fun d => answer (value d.mem)) = some a ∧
      Takes (answer <$> reader) r.written a := by
  obtain ⟨e, he, heret, hwritten⟩ := exists_encoded hcall hret
  cases data with
  | none => exact absurd heret (hf e he)
  | some d =>
      refine ⟨_, rfl, ?_⟩
      rw [hwritten]
      exact (h d.mem e he heret).map answer

/-- The answers of the table are read back. -/
theorem takes_unsol (hm : m.Typed) (hdata : ∀ d ∈ data, d.Typed m) (hlen : datalen < 2147483648)
    {cdma : Bool} (f : UnsolFunction) (hring : f = .callRing → RingAgrees cdma data datalen)
    {r : Marshalled} (hcall : f.call m data datalen = some r) (hret : r.ret = 0) :
    ∃ answer, f.told m data datalen = some answer ∧ Takes (f.read m cdma) r.written answer := by
  cases f with
  | listed f =>
      refine ⟨_, rfl, ?_⟩
      cases data with
      | none => exact (takes_nothing hm.marshaller f hcall hret).map _
      | some d =>
          exact (takes_answer hm.marshaller (hdata d rfl).content hlen f hcall hret).map _
  | ssn =>
      exact takes_structure (responseSsn_needsPointer m.layouts m.strings datalen)
        (fun _ _ he heret => takes_ssn hm.strings he heret) hcall hret
  | simRefresh =>
      exact takes_structure
        (responseSimRefresh_needsPointer m.layouts.toLayouts m.strings m.version datalen)
        (fun _ _ he _ => takes_simRefresh hm.strings he) hcall hret
  | callRing =>
      obtain ⟨e, he, heret, hwritten⟩ := exists_encoded hcall hret
      refine ⟨_, rfl, ?_⟩
      rw [hwritten, ← hring rfl]
      exact (takes_callRing he heret).map UnsolAnswer.ring
  | cdmaSms =>
      cases hcall
      cases data with
      | none => cases hret
      | some d =>
          refine ⟨_, rfl, ?_⟩
          rw [Option.map_some, responseCdmaSms] at hret ⊢
          split at hret
          · cases hret
          · rename_i hsize
            rw [if_neg hsize]
            exact (takes_cdmaSms m.toBuild (hdata d rfl).sms).map UnsolAnswer.cdmaSms
  | cdmaCallWaiting =>
      exact takes_structure
        (responseCdmaCallWaiting_needsPointer m.layouts.toLayouts m.strings datalen)
        (fun _ _ he _ => takes_callWaiting hm.strings he) hcall hret
  | ssData =>
      exact takes_structure (responseSSData_needsPointer m.layouts m.strings datalen)
        (fun _ _ he heret => takes_ssData hm.strings he heret) hcall hret

theorem takes_payload {now : Moment} (hnow : now.Typed) (u : Unsol) :
    Takes u.readPayload (u.payload now) (u.toldPayload now) := by
  unfold Unsol.readPayload Unsol.payload Unsol.toldPayload
  split
  · exact (takes_int hnow.newState).map some
  · exact (takes_int64 hnow.timeReceived.1 hnow.timeReceived.2).map some
  · exact Takes.pure none

theorem takes_unsolFrame {now : Moment} (hnow : now.Typed) {cdma : Bool} {i : Nat} {u : Unsol}
    (hu : (sUnsolResponses m.toBuild)[i]? = some u) (hcode : IsInt32 (m.responseBase + i))
    {written : List UInt8} {answer : UnsolAnswer}
    (h : Takes (u.function.read m cdma) written answer) :
    Takes (readUnsolFrame m cdma)
      (encodeInt32 1 ++ encodeInt32 (m.responseBase + i) ++ written ++ u.payload now)
      (1, m.responseBase + i, answer, u.toldPayload now) := by
  have hindex : (m.responseBase + i - m.responseBase).toNat = i := by omega
  rw [List.append_assoc, List.append_assoc]
  refine (takes_int (by decide)).bind ((takes_int hcode).bind ?_)
  rw [hindex, hu]
  exact (h.map _).seq (takes_payload hnow u)

end Frames

/-- **Unsolicited responses reach the client as the vendor gave them.**  For every entry
of the table and every response with it, nothing is sent if the response function
rejects the response.  Otherwise the frame is read as the code, the vendor's response,
and the new radio state or the time of arrival where the entry has one; nothing is left
over. -/
theorem unsolicited_read_back {m : UnsolMarshaller} (hm : m.Typed) {now : Moment}
    (hnow : now.Typed) (cdma : Bool) {i : Nat} {u : Unsol}
    (hu : (sUnsolResponses m.toBuild)[i]? = some u) (hcode : IsInt32 (m.responseBase + i))
    {data : Option UnsolData} (hdata : ∀ d ∈ data, d.Typed m) {datalen : Nat}
    (hlen : datalen < 2147483648) (hring : u = .callRing → RingAgrees cdma data datalen)
    {r : Marshalled} (hcall : u.function.call m data datalen = some r) :
    (r.ret ≠ 0 → rilOnUnsolicitedResponse m true now (m.responseBase + i) data datalen =
      some none) ∧
    (r.ret = 0 → ∃ frame answer,
      rilOnUnsolicitedResponse m true now (m.responseBase + i) data datalen =
        some (some frame) ∧
      u.function.told m data datalen = some answer ∧
      (readUnsolFrame m cdma).run frame =
        some ((1, m.responseBase + i, answer, u.toldPayload now), [])) := by
  have hrange : ¬(m.responseBase + i - m.responseBase < 0 ∨
      (sUnsolResponses m.toBuild).length ≤ m.responseBase + i - m.responseBase) := by
    have hlt := (List.getElem?_eq_some_iff.mp hu).1
    omega
  have hindex : (m.responseBase + i - m.responseBase).toNat = i := by omega
  have hrun : rilOnUnsolicitedResponse m true now (m.responseBase + i) data datalen =
      if r.ret ≠ 0 then some none
      else some (some (encodeInt32 1 ++ encodeInt32 (m.responseBase + i) ++ r.written ++
        u.payload now)) := by
    simp only [rilOnUnsolicitedResponse, Bool.not_true, Bool.false_eq_true, if_false, hrange,
      hindex, hu, hcall, Option.bind_eq_bind, Option.bind_some]
  constructor
  · intro hret
    rw [hrun, if_pos hret]
  · intro hret
    have hfunction : u.function = .callRing → RingAgrees cdma data datalen := by
      intro hf
      apply hring
      cases u <;> cases hf
      rfl
    obtain ⟨answer, htold, htakes⟩ := takes_unsol hm hdata hlen u.function hfunction hcall hret
    refine ⟨_, answer, ?_, htold, (takes_unsolFrame hnow hu hcode htakes).whole⟩
    rw [hrun, if_neg (not_not_intro hret)]

/-- The structures of a 32-bit build, with seven service classes. -/
def unsolLayouts32 : UnsolLayouts where
  toLayouts := ResponseReads.layouts32
  ssn := ⟨20, 0, 4, 8, 12, 16, by decide⟩
  signalInfo := ⟨4, 0, 1, 2, 3, by decide⟩
  forward := ⟨24, 0, 4, 8, 12, 16, 20, by decide⟩
  numServiceClasses := 7
  ssInfoMax := 4
  ssInfoMax_int := by omega
  ssData := ⟨192, 0, 4, 8, 12, 16, 20, 24, 20, by decide, by decide, by decide, by decide⟩
  interrogation := 2
  cfu := 0
  cfBusy := 1
  cfNoReply := 2
  cfNotReachable := 3
  cfAll := 4
  cfAllConditional := 5

def someUnsolMarshaller : UnsolMarshaller where
  toMarshaller := someMarshaller
  layouts := unsolLayouts32
  strings := fun _ => []
  sizeofCdmaSms := 372
  responseBase := 1000

/-- A query for unconditional forwarding whose answer counts nine records. -/
def nineForwards : UnsolData where
  mem := fun q => if q = 4 then 2 else if q = 20 then 9 else 0
  content := imeiContent
  sms := ⟨0, 0, 0, 0, 0, 0, 0, 0, [], 0, 0, 0, [], 0, []⟩

theorem nineForwards_typed : nineForwards.Typed someUnsolMarshaller where
  content := imeiContent_typed
  sms := ⟨by decide, by decide, by decide, by decide, by decide, by decide, by decide, by decide⟩

theorem someUnsolMarshaller_typed : someUnsolMarshaller.Typed where
  marshaller := someMarshaller_typed
  strings := fun _ => show 0 < 2147483647 by omega

theorem unsolicited_read_back_nineForwards :
    ∃ frame answer, rilOnUnsolicitedResponse someUnsolMarshaller true ⟨0, 0⟩
        (someUnsolMarshaller.responseBase + (38 : Nat)) (some nineForwards) 192 =
          some (some frame) ∧
      Unsol.onSs.function.told someUnsolMarshaller (some nineForwards) 192 = some answer ∧
      (readUnsolFrame someUnsolMarshaller false).run frame =
        some ((1, someUnsolMarshaller.responseBase + (38 : Nat), answer, none), []) := by
  have hdata : ∀ d ∈ some nineForwards, d.Typed someUnsolMarshaller := by
    rintro d ⟨⟩
    exact nineForwards_typed
  exact (unsolicited_read_back (u := .onSs) someUnsolMarshaller_typed ⟨by decide, by decide⟩ false
    (by decide) (by decide) hdata (by omega) (fun h => by cases h) rfl).2 rfl

end Libril
