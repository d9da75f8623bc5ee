import JsrD10f.AnswerCodec
import JsrD10f.CountWords

/-!
# What a client reads

Every response function of `s_commands` has a reader for its answer.  A response that
the function accepts is read back from the parcel as far as the function passes it on:
`told` says what that is.  The frame in front of it is three numbers, so the client
that waits for a request reads the token of that request, the vendor's error and the
vendor's response, and nothing is left over.
-/

namespace Libril.Responses

open Parcel Reading

/-! ## The answers -/

/-- What a client reads behind the error, by the kind of the request. -/
inductive Answer where
  | void
  | ints (l : List Int)
  | string (t : Text)
  | strings (l : List Text)
  | calls (l : List Call)
  | sms (r : SmsResponse)
  | dataCallsV4 (version : Int) (l : List DataCallV4)
  | dataCalls (version : Int) (l : List DataCallV6)
  | setupStrings (version : Int) (l : List Text)
  | raw (data : List UInt8)
  | simIo (r : SimIoResponse)
  | callForwards (l : List CallForwardInfo)
  | cells (l : List NeighboringCell)
  | signalStrength (s : SignalStrength)
  | cellInfos (l : List CellReport)
  | card (r : CardReport)
  | gsmConfigs (l : List GsmBroadcastSmsConfigInfo)
  | cdmaConfigs (l : List CdmaBroadcastSmsConfigInfo)
  | profiles (l : List DataCallProfileInfo)
  | information (l : List (Int × InfoReport))

def readGsmConfig : Reader UInt8 GsmBroadcastSmsConfigInfo :=
  GsmBroadcastSmsConfigInfo.mk <$> readInt <*> readInt <*> readInt <*> readInt <*> readChar

def readCdmaConfig : Reader UInt8 CdmaBroadcastSmsConfigInfo :=
  CdmaBroadcastSmsConfigInfo.mk <$> readInt <*> readInt <*> readChar

def readProfile : Reader UInt8 DataCallProfileInfo :=
  DataCallProfileInfo.mk <$> readInt <*> readInt

def readRaw : Reader UInt8 (List UInt8) := do
  let len ← readInt
  readBytes len.toNat

def readDataCallList (m : Marshaller) : Reader UInt8 Answer :=
  if m.version < 5 then Answer.dataCallsV4 <$> readInt <*> readList readDataCallV4
  else Answer.dataCalls <$> readInt <*> readList (readDataCallV6 m)

/-- The client's side of the third column of `s_commands`. -/
def ResponseFunction.read (m : Marshaller) : ResponseFunction → Reader UInt8 Answer
  | .void => pure .void
  | .ints => Answer.ints <$> readList readInt
  | .string => Answer.string <$> readText
  | .strings | .stringsNetworks => Answer.strings <$> readList readText
  | .callList => Answer.calls <$> readList readCall
  | .sms => Answer.sms <$> readSms
  | .dataCallList => readDataCallList m
  | .setupDataCall =>
      if m.version < 5 then Answer.setupStrings <$> readInt <*> readList readText
      else readDataCallList m
  | .raw => Answer.raw <$> readRaw
  | .simIo => Answer.simIo <$> readSimIo
  | .callForwards => Answer.callForwards <$> readList readCallForward
  | .cellList => Answer.cells <$> readList readNeighboringCell
  | .rilSignalStrength => Answer.signalStrength <$> readSignalStrength
  | .cellInfoList => Answer.cellInfos <$> readList (readCellInfo m)
  | .simStatus => Answer.card <$> readCard
  | .gsmBrSmsCnf => Answer.gsmConfigs <$> readList readGsmConfig
  | .cdmaBrSmsCnf => Answer.cdmaConfigs <$> readList readCdmaConfig
  | .getDataCallProfile => Answer.profiles <$> readList readProfile
  | .cdmaInformationRecords => Answer.information <$> readList (readInformationRecord m)

/-- The first `n` entries of an array. -/
def entries {α : Type} (n : Nat) (entry : Nat → α) : List α :=
  (List.range n).map entry

/-- The strings of a network search that are passed on: every fifth is left out where
the vendor has one more for each network. -/
def networkStrings (m : Marshaller) (numStrings : Nat) : List Nat :=
  (List.range numStrings).filter fun i => !(m.newLibrilHtc && (i + 1) % 5 == 0)

def toldDataCalls (m : Marshaller) (c : Content) (responselen : Nat) : Answer :=
  if m.version < 5 then
    .dataCallsV4 m.version (entries (responselen / m.header.sizeofDataCallV4) c.dataCallsV4)
  else
    .dataCalls m.version (entries (responselen / m.header.sizeofDataCallV6) fun i =>
      (c.dataCalls i).told m)

/-- How many profiles are passed on: the count, as an unsigned number, or as many as
there is room for. -/
def numProfiles (m : Marshaller) (c : Content) (responselen : Nat) : Nat :=
  min (responselen / m.header.sizeofDataCallProfileInfo) (c.profileCount % 4294967296).toNat

/-- What a response says, as far as the response function passes it on. -/
def ResponseFunction.told (m : Marshaller) (c : Content) (responselen : Nat) :
    ResponseFunction → Answer
  | .void => .void
  | .ints => .ints (entries (responselen / 4) c.ints)
  | .string => .string (some c.text)
  | .strings => .strings (entries (responselen / 4) c.strings)
  | .stringsNetworks => .strings ((networkStrings m (responselen / 4)).map c.strings)
  | .callList => .calls (entries (responselen / 4) fun i => (c.calls i).told m)
  | .sms => .sms c.sms
  | .dataCallList => toldDataCalls m c responselen
  | .setupDataCall =>
      if m.version < 5 then .setupStrings m.version (entries (responselen / 4) c.strings)
      else toldDataCalls m c responselen
  | .raw => .raw (entries responselen c.bytes)
  | .simIo => .simIo c.simIo
  | .callForwards => .callForwards (entries (responselen / 4) c.callForwards)
  | .cellList => .cells (entries (responselen / 4) c.cells)
  | .rilSignalStrength => .signalStrength (c.signalStrength.told m responselen)
  | .cellInfoList =>
      .cellInfos (entries (responselen / m.header.sizeofCellInfo) fun i => (c.cellInfos i).told m)
  | .simStatus =>
      .card (if responselen = m.header.sizeofCardStatusV6 then
        c.cardStatusV6.told c.cardStatusV6.imsSubscriptionAppIndex
      else c.cardStatusV5.told (-1))
  | .gsmBrSmsCnf => .gsmConfigs (entries (responselen / 4) c.gsmConfigs)
  | .cdmaBrSmsCnf => .cdmaConfigs (entries (responselen / 4) c.cdmaConfigs)
  | .getDataCallProfile => .profiles (entries (numProfiles m c responselen) c.profiles)
  | .cdmaInformationRecords =>
      .information (entries
        (min c.informationRecords.numberOfInfoRecs m.header.maxNumberOfInfoRecs).toNat
        fun i => (c.informationRecords.infoRec i).told m)

/-- The numbers in the vendor's memory have the width of their types, and a length that
stands beside a pointer is one. -/
structure Content.Typed (m : Marshaller) (c : Content) : Prop where
  ints : ∀ i, IsInt32 (c.ints i)
  text : TextFits (some c.text)
  strings : ∀ i, TextFits (c.strings i)
  calls : ∀ i, (c.calls i).Typed
  sms : c.sms.Typed
  dataCallsV4 : ∀ i, (c.dataCallsV4 i).Typed
  dataCalls : ∀ i, (c.dataCalls i).Typed
  simIo : c.simIo.Typed
  callForwards : ∀ i, callForwardTyped (c.callForwards i)
  cells : ∀ i, (c.cells i).Typed
  numberOfInfoRecs : IsInt32 c.informationRecords.numberOfInfoRecs
  infoRec : ∀ i, (c.informationRecords.infoRec i).Typed
  signalStrength : c.signalStrength.Typed m
  cellInfos : ∀ i, (c.cellInfos i).Typed
  cardStatusV5 : c.cardStatusV5.Typed
  cardStatusV6 : c.cardStatusV6.Typed
  gsmConfigs : ∀ i, FieldsFit [(c.gsmConfigs i).fromServiceId, (c.gsmConfigs i).toServiceId,
    (c.gsmConfigs i).fromCodeScheme, (c.gsmConfigs i).toCodeScheme] []
  cdmaConfigs : ∀ i, FieldsFit [(c.cdmaConfigs i).serviceCategory, (c.cdmaConfigs i).language] []
  profiles : ∀ i, FieldsFit [(c.profiles i).profileId, (c.profiles i).priority] []

/-! ## Reading back -/

section Responses

variable {m : Marshaller} {c : Content} {responselen : Nat}

theorem takes_entries {α : Type} {record : Reader UInt8 α} {word : Nat → List UInt8}
    {value : Nat → α} {n : Nat} (hn : n < 2147483648) (h : ∀ i, Takes record (word i) (value i)) :
    Takes (readList record) (encodeInt32 n ++ writeRecords word n) (entries n value) := by
  have hint : IsInt32 (n : Int) := ⟨by omega, by omega⟩
  exact takes_list hint h

theorem takes_responseList {α : Type} {record : Content → Nat → List UInt8}
    {reader : Reader UInt8 α} {value : Nat → α} {size : Nat} (hlen : responselen < 2147483648)
    (hret : (responseList size record (some c) responselen).ret = 0)
    (h : ∀ i, Takes reader (record c i) (value i)) :
    Takes (readList reader) (responseList size record (some c) responselen).written
      (entries (responselen / size) value) := by
  unfold responseList at hret ⊢
  split at hret
  · cases hret
  · split at hret
    · cases hret
    · rename_i hnull hmod
      rw [if_neg hnull, if_neg hmod]
      exact takes_entries (Nat.lt_of_le_of_lt (Nat.div_le_self _ _) hlen) h

theorem flatMap_skipped {α : Type} (skip : Nat → Bool) (word : Nat → List α) (l : List Nat) :
    l.flatMap (fun i => if skip i then [] else word i) =
      (l.filter fun i => !skip i).flatMap word := by
  induction l with
  | nil => rfl
  | cons i l ih =>
      rw [List.flatMap_cons, ih, List.filter_cons]
      cases skip i with
      | true => rfl
      | false => rfl

/-- Of five strings four are left. -/
theorem networkStrings_length (m : Marshaller) (n : Nat) :
    (networkStrings m n).length = if m.newLibrilHtc then n - n / 5 else n := by
  unfold networkStrings
  cases m.newLibrilHtc with
  | false => simp
  | true =>
      induction n with
      | zero => rfl
      | succ n ih =>
          simp only [Bool.true_and, if_true] at ih ⊢
          rw [List.range_succ, List.filter_append, List.length_append, ih]
          by_cases hfifth : (n + 1) % 5 = 0
          · simp [hfifth]
            omega
          · simp [hfifth]
            omega

theorem takes_networkStrings (hc : c.Typed m) (hlen : responselen < 2147483648)
    (hret : (responseStringsNetworks m (some c) responselen).ret = 0) :
    Takes (readList readText) (responseStringsNetworks m (some c) responselen).written
      ((networkStrings m (responselen / 4)).map c.strings) := by
  unfold responseStringsNetworks responseStringsFlag at hret ⊢
  split at hret
  · cases hret
  · split at hret
    · cases hret
    · rename_i hnull hmod
      rw [if_neg hnull, if_neg hmod]
      have hcount := networkStrings_length m (responselen / 4)
      have hdiv := Nat.div_le_self responselen 4
      have hstrings := Takes.times (networkStrings m (responselen / 4)) fun i _ =>
        takes_text (hc.strings i)
      simp only [Bool.and_true, success, writeRecords, flatMap_skipped]
      rw [hcount] at hstrings
      refine (takes_int ⟨by omega, ?_⟩).bind ?_
      · split <;> omega
      · exact hstrings

theorem takes_responseStrings (hc : c.Typed m) (hlen : responselen < 2147483648)
    (hret : (responseStrings m (some c) responselen).ret = 0) :
    Takes (readList readText) (responseStrings m (some c) responselen).written
      (entries (responselen / 4) c.strings) := by
  unfold responseStrings responseStringsFlag at hret ⊢
  split at hret
  · cases hret
  · split at hret
    · cases hret
    · rename_i hnull hmod
      rw [if_neg hnull, if_neg hmod]
      simp only [Bool.and_false, Bool.false_and, Bool.false_eq_true, if_false]
      exact takes_entries (Nat.lt_of_le_of_lt (Nat.div_le_self _ _) hlen) fun i =>
        takes_text (hc.strings i)

theorem takes_responseStruct {α : Type} {record : Content → List UInt8} {reader : Reader UInt8 α}
    {value : α} {size : Nat}
    (hret : (responseStruct size record (some c) responselen).ret = 0)
    (h : Takes reader (record c) value) :
    Takes reader (responseStruct size record (some c) responselen).written value := by
  unfold responseStruct at hret ⊢
  dsimp only at hret ⊢
  split at hret
  · cases hret
  · rename_i hsize
    rw [if_neg hsize]
    exact h

theorem takes_dataCallList (hm : m.Typed) (hc : c.Typed m) (hlen : responselen < 2147483648)
    (hret : (responseDataCallList m (some c) responselen).ret = 0) :
    Takes (readDataCallList m) (responseDataCallList m (some c) responselen).written
      (toldDataCalls m c responselen) := by
  unfold responseDataCallList at hret ⊢
  unfold readDataCallList toldDataCalls
  by_cases hversion : m.version < 5
  · rw [if_pos hversion] at hret ⊢
    rw [if_pos hversion, if_pos hversion]
    exact ((takes_int hm.version).map Answer.dataCallsV4).seq
      (takes_responseList hlen hret fun i => takes_dataCallV4 (hc.dataCallsV4 i))
  · rw [if_neg hversion] at hret ⊢
    rw [if_neg hversion, if_neg hversion]
    exact ((takes_int hm.version).map Answer.dataCalls).seq
      (takes_responseList hlen hret fun i => takes_dataCallV6 m (hc.dataCalls i))

theorem takes_setupDataCall (hm : m.Typed) (hc : c.Typed m) (hlen : responselen < 2147483648)
    (hret : (responseSetupDataCall m (some c) responselen).ret = 0) :
    Takes (ResponseFunction.setupDataCall.read m)
      (responseSetupDataCall m (some c) responselen).written
      (ResponseFunction.setupDataCall.told m c responselen) := by
  unfold responseSetupDataCall at hret ⊢
  dsimp only [ResponseFunction.read, ResponseFunction.told]
  by_cases hversion : m.version < 5
  · rw [if_pos hversion] at hret ⊢
    rw [if_pos hversion, if_pos hversion]
    exact ((takes_int hm.version).map Answer.setupStrings).seq
      (takes_responseStrings hc hlen hret)
  · rw [if_neg hversion] at hret ⊢
    rw [if_neg hversion, if_neg hversion]
    exact takes_dataCallList hm hc hlen hret

theorem takes_raw (hlen : responselen < 2147483648) :
    Takes readRaw (responseRaw (some c) responselen).written (entries responselen c.bytes) := by
  have hnull : nullWithLength (some c) responselen = false := rfl
  have hbytes : (entries responselen c.bytes).length = (responselen : Int).toNat := by
    rw [entries, List.length_map, List.length_range, Int.toNat_natCast]
  rw [responseRaw, hnull, if_neg Bool.false_ne_true]
  exact (takes_int (v := (responselen : Int)) ⟨by omega, by omega⟩).bind (takes_bytes hbytes)

theorem takes_simStatus (hc : c.Typed m) {r : Marshalled}
    (hcall : responseSimStatus m (some c) responselen = some r) (hret : r.ret = 0) :
    Takes (Answer.card <$> readCard) r.written
      (ResponseFunction.simStatus.told m c responselen) := by
  have hnull : nullWithLength (some c) responselen = false := rfl
  rw [responseSimStatus, hnull, if_neg Bool.false_ne_true] at hcall
  dsimp only [ResponseFunction.told]
  split at hcall
  · rename_i hsize
    cases hcall
    rw [if_pos hsize]
    exact (takes_card hc.cardStatusV6 (hc.cardStatusV6.fields.ints _ (by simp))).map _
  · rename_i hsize
    rw [if_neg hsize]
    split at hcall
    · cases hcall
      exact (takes_card hc.cardStatusV5 (by decide)).map _
    · cases hcall
      cases hret

theorem takes_rilSignalStrength (hc : c.Typed m) {r : Marshalled}
    (hcall : responseRilSignalStrength m (some c) responselen = some r) (hret : r.ret = 0) :
    Takes readSignalStrength r.written (c.signalStrength.told m responselen) := by
  have hnull : nullWithLength (some c) responselen = false := rfl
  rw [responseRilSignalStrength, hnull, if_neg Bool.false_ne_true] at hcall
  split at hcall
  · cases hcall
    exact takes_signalStrength hc.signalStrength responselen
  · cases hcall
    cases hret

theorem takes_gsmConfig {g : GsmBroadcastSmsConfigInfo} (h : FieldsFit [g.fromServiceId,
    g.toServiceId, g.fromCodeScheme, g.toCodeScheme] []) :
    Takes readGsmConfig (writeGsmConfig g) g := by
  have hints := (((h.int (v := g.fromServiceId) (by simp)).map GsmBroadcastSmsConfigInfo.mk).seq
    (h.int (v := g.toServiceId) (by simp))).seq (h.int (v := g.fromCodeScheme) (by simp))
  exact (hints.seq (h.int (v := g.toCodeScheme) (by simp))).seq (takes_char g.selected)

theorem takes_cdmaConfig {g : CdmaBroadcastSmsConfigInfo}
    (h : FieldsFit [g.serviceCategory, g.language] []) :
    Takes readCdmaConfig (writeCdmaConfig g) g := by
  have hints := ((h.int (v := g.serviceCategory) (by simp)).map CdmaBroadcastSmsConfigInfo.mk).seq
    (h.int (v := g.language) (by simp))
  exact hints.seq (takes_char g.selected)

theorem takes_profile {p : DataCallProfileInfo} (h : FieldsFit [p.profileId, p.priority] []) :
    Takes readProfile (encodeInt32 p.profileId ++ encodeInt32 p.priority) p := by
  cases p
  apply_rules [Takes.seq, Takes.map, h.int] <;> simp

theorem takes_getDataCallProfile (hc : c.Typed m) (hlen : responselen < 2147483648)
    {r : Marshalled} (hcall : responseGetDataCallProfile m (some c) responselen = some r) :
    Takes (readList readProfile) r.written
      (entries (numProfiles m c responselen) c.profiles) := by
  have hnull : nullWithLength (some c) responselen = false := rfl
  have hroom := Nat.div_le_self responselen m.header.sizeofDataCallProfileInfo
  have hnum : numProfiles m c responselen < 2147483648 :=
    Nat.lt_of_le_of_lt (Nat.min_le_left _ _) (by omega)
  have hmin : (if responselen / m.header.sizeofDataCallProfileInfo <
      (c.profileCount % 4294967296).toNat then responselen / m.header.sizeofDataCallProfileInfo
      else (c.profileCount % 4294967296).toNat) = numProfiles m c responselen := by
    unfold numProfiles
    split <;> omega
  rw [responseGetDataCallProfile, hnull, if_neg Bool.false_ne_true] at hcall
  simp only [Option.bind_eq_bind, Option.bind_some, hmin, Option.some.injEq] at hcall
  rw [← hcall]
  exact takes_entries hnum fun i => takes_profile (hc.profiles i)

theorem takes_cdmaInformationRecords (hm : m.Typed) (hc : c.Typed m) {r : Marshalled}
    (hcall : responseCdmaInformationRecords m (some c) responselen = some r) (hret : r.ret = 0) :
    Takes (readList (readInformationRecord m)) r.written
      (entries (min c.informationRecords.numberOfInfoRecs m.header.maxNumberOfInfoRecs).toNat
        fun i => (c.informationRecords.infoRec i).told m) := by
  have hnull : nullWithLength (some c) responselen = false := rfl
  rw [responseCdmaInformationRecords, hnull, if_neg Bool.false_ne_true] at hcall
  split at hcall
  · cases hcall
    cases hret
  · cases hcall
    have hnum : IsInt32 (min c.informationRecords.numberOfInfoRecs
        m.header.maxNumberOfInfoRecs) := by
      have hrecs := hc.numberOfInfoRecs
      have hmax := hm.maxNumberOfInfoRecs
      unfold IsInt32 at *
      omega
    have hrecords := takes_informationRecords hm hc.infoRec _ 0 hret
    rw [← List.range_eq_range'] at hrecords
    exact (takes_int hnum).bind hrecords

/-- **Answers are read back.**  Whatever the vendor gives to a response function that
accepts it, the client's reader finds it in the parcel and takes exactly the bytes
that were written. -/
theorem takes_answer (hm : m.Typed) (hc : c.Typed m) (hlen : responselen < 2147483648)
    (f : ResponseFunction) {r : Marshalled}
    (hcall : f.call m (some c) responselen = some r) (hret : r.ret = 0) :
    Takes (f.read m) r.written (f.told m c responselen) := by
  have hquarter : responselen / 4 < 2147483648 := by omega
  cases f with
  | void =>
      cases hcall
      exact Takes.pure Answer.void
  | ints =>
      cases hcall
      exact (takes_responseList hlen hret fun i => takes_int (hc.ints i)).map Answer.ints
  | string =>
      cases hcall
      exact (takes_text hc.text).map Answer.string
  | strings =>
      cases hcall
      exact (takes_responseStrings hc hlen hret).map Answer.strings
  | stringsNetworks =>
      cases hcall
      exact (takes_networkStrings hc hlen hret).map Answer.strings
  | callList =>
      cases hcall
      exact (takes_responseList hlen hret fun i => takes_call m (hc.calls i)).map Answer.calls
  | sms =>
      have hsms := takes_sms hc.sms
      cases hcall
      exact (takes_responseStruct hret hsms).map Answer.sms
  | dataCallList =>
      cases hcall
      exact takes_dataCallList hm hc hlen hret
  | setupDataCall =>
      cases hcall
      exact takes_setupDataCall hm hc hlen hret
  | raw =>
      cases hcall
      exact (takes_raw hlen).map Answer.raw
  | simIo =>
      have hsimIo := takes_simIo hc.simIo
      cases hcall
      exact (takes_responseStruct hret hsimIo).map Answer.simIo
  | callForwards =>
      cases hcall
      exact (takes_responseList hlen hret fun i => takes_callForward (hc.callForwards i)).map
        Answer.callForwards
  | cellList =>
      cases hcall
      exact (takes_responseList hlen hret fun i => takes_neighboringCell (hc.cells i)).map
        Answer.cells
  | rilSignalStrength =>
      exact (takes_rilSignalStrength hc hcall hret).map Answer.signalStrength
  | cellInfoList =>
      cases hcall
      exact (takes_responseList hlen hret fun i => takes_cellInfo m (hc.cellInfos i)).map
        Answer.cellInfos
  | simStatus => exact takes_simStatus hc hcall hret
  | gsmBrSmsCnf =>
      cases hcall
      exact (takes_entries hquarter fun i => takes_gsmConfig (hc.gsmConfigs i)).map
        Answer.gsmConfigs
  | cdmaBrSmsCnf =>
      cases hcall
      exact (takes_entries hquarter fun i => takes_cdmaConfig (hc.cdmaConfigs i)).map
        Answer.cdmaConfigs
  | getDataCallProfile => exact (takes_getDataCallProfile hc hlen hcall).map Answer.profiles
  | cdmaInformationRecords =>
      exact (takes_cdmaInformationRecords hm hc hcall hret).map Answer.information

end Responses

end Libril.Responses

namespace Libril

open Parcel Runs Responses Reading

/-! ## The entry of a request

What a request is answered with depends on its entry in `s_commands`.  No section of
the code changes the entry after the request is filed, so it is that of the command. -/

variable {α : Type} [DecidableEq α]

/-- No record is new or changed except in its pointer, and no command is new. -/
structure Kept (s s' : Service α) : Prop where
  info : ∀ a v, s'.requests.info a = some v → s.requests.info a = some v
  commands : s'.commands = s.commands

omit [DecidableEq α] in
theorem Kept.trans {s s' s'' : Service α} (h : Kept s s') (h' : Kept s' s'') : Kept s s'' :=
  ⟨fun a v hv => h.info a v (h'.info a v hv), h'.commands.trans h.commands⟩

theorem store_info {q q' : Requests α Nat} {ppCur p : Option α} (h : q.store ppCur p = some q') :
    q'.info = q.info := by
  cases ppCur with
  | none =>
      cases h
      rfl
  | some a =>
      obtain ⟨v, hv, rfl⟩ := Option.map_eq_some_iff.mp h
      exact (write_pNext p q.pending hv).2

theorem dequeueLoop_info {pRI : α} {fuel : Nat} {ppCur : Option α} {q q' : Requests α Nat}
    {found : Bool} (h : dequeueLoop pRI fuel ppCur q = some (found, q')) :
    q'.info = q.info := by
  induction fuel generalizing ppCur with
  | zero => cases h
  | succ fuel ih =>
      rw [dequeueLoop] at h
      obtain ⟨cur, -, h⟩ := Option.bind_eq_some_iff.mp h
      cases cur with
      | none =>
          cases h
          rfl
      | some a =>
          dsimp only at h
          split at h
          · obtain ⟨v, -, h⟩ := Option.bind_eq_some_iff.mp h
            obtain ⟨q₁, hstore, h⟩ := Option.bind_eq_some_iff.mp h
            cases h
            exact store_info hstore
          · exact ih h

theorem free_kept (q : Requests α Nat) (a x : α) (v : RequestInfo α Nat)
    (h : (q.free a).info x = some v) : q.info x = some v := by
  have hx : x ≠ a := ne_of_info (Function.update_self a none q.heap) h
  rwa [free_info hx] at h

theorem onRequestComplete_kept {a : α} {r : Reply} {s s' : Service α}
    (h : onRequestComplete a r s = some s') : Kept s s' := by
  rw [onRequestComplete] at h
  obtain ⟨⟨found, q⟩, hdequeue, h⟩ := Option.bind_eq_some_iff.mp h
  have hinfo := dequeueLoop_info hdequeue
  dsimp only at h
  split at h
  · cases h
    exact ⟨fun _ _ hv => hv, rfl⟩
  · obtain ⟨v, -, h⟩ := Option.bind_eq_some_iff.mp h
    cases h
    split
    · exact ⟨fun x w hw => by rw [← hinfo]; exact free_kept q a x w hw, rfl⟩
    · obtain ⟨hrequests, -, hcommands, -⟩ := sendResponse_fields { s with requests := q } v.ghost
        (replyData v.token r)
      refine ⟨fun x w hw => ?_, hcommands⟩
      have hkept := free_kept _ a x w hw
      rw [hrequests] at hkept
      rwa [← hinfo]

theorem completeAll_kept {a : α} {rs : List Reply} {s s' : Service α}
    (h : completeAll a rs s = some s') : Kept s s' := by
  induction rs generalizing s with
  | nil =>
      cases h
      exact ⟨fun _ _ hv => hv, rfl⟩
  | cons r rs ih =>
      obtain ⟨t, ht, h⟩ := Option.bind_eq_some_iff.mp h
      exact (onRequestComplete_kept ht).trans (ih h)

theorem afterDispatch_kept {a : α} {s s' : Service α} {result : CallResult}
    (h : afterDispatch a s result = some s') : Kept s s' := by
  match result with
  | .dispatched (.onRequest _) | .dispatched .invalidCommandBlock
  | .dispatched .unknownFormat | .dispatched .overrun =>
      cases h
      exact ⟨fun _ _ hv => hv, rfl⟩
  | .answered replies => exact completeAll_kept h

/-- Every record has the entry that its command asks for. -/
def Filed (s : Service α) : Prop :=
  ∀ a v, s.requests.info a = some v →
    ∃ cmd, s.commands[v.ghost]? = some cmd ∧ v.pCI = cmd.request.toNat

omit [DecidableEq α] in
theorem Filed.kept {s s' : Service α} (h : Filed s) (hkept : Kept s s') : Filed s' := by
  intro a v hv
  rw [hkept.commands]
  exact h a v (hkept.info a v hv)

omit [DecidableEq α] in
/-- One more command leaves those before it where they are. -/
theorem Filed.command {s : Service α} (h : Filed s) (cmd : Command) :
    Filed { s with commands := s.commands ++ [cmd] } := by
  intro a v hv
  obtain ⟨c, hc, hpCI⟩ := h a v hv
  exact ⟨c, List.getElem?_append_left (List.getElem?_eq_some_iff.mp hc).1 ▸ hc, hpCI⟩

theorem link_info {q q' : Requests α Nat} {a : α} (h : q.link a = some q') :
    q'.info = q.info := by
  obtain ⟨v, hv, h⟩ := Option.bind_eq_some_iff.mp h
  cases h
  exact (write_pNext q.pending (some a) hv).2

/-- The new record points to the command that was received last. -/
theorem Filed.alloc {s : Service α} (h : Filed s) {a : α} {cmd : Command} {q : Requests α Nat}
    (hlink : (s.requests.alloc a
      ⟨cmd.token, cmd.request.toNat, none, false, false, s.commands.length⟩).link a = some q)
    (radio : RadioVars) :
    Filed { s with commands := s.commands ++ [cmd], requests := q, radio := radio } := by
  intro x v hv
  rw [link_info hlink] at hv
  by_cases hx : x = a
  · subst hx
    rw [info_alloc_self] at hv
    cases hv
    exact ⟨cmd, List.getElem?_concat_length, rfl⟩
  · rw [info_alloc_of_ne hx] at hv
    exact h.command cmd x v hv

theorem processCommandBuffer_filed {b : Build} {a : α} {cmd : Command} {s s' : Service α}
    (h : Filed s) (hrun : processCommandBuffer b a cmd s = some s') : Filed s' := by
  rcases hr₁ : readInt32 b.junk ⟨cmd.buffer, true⟩ with ⟨request, c₁⟩
  rcases hr₂ : readInt32 b.junk c₁ with ⟨token, c₂⟩
  obtain ⟨hok, -, hheader⟩ := readHeader hr₁ hr₂
  simp only [processCommandBuffer, hr₁, hr₂] at hrun
  split at hrun
  · cases hrun
    exact h.command cmd
  · rename_i hread
    obtain ⟨rfl, rfl⟩ := hheader (hok.mp (by simpa using hread))
    split at hrun
    · cases hrun
      obtain ⟨hrequests, -, hcommands, -⟩ := sendResponse_fields
        { s with commands := s.commands ++ [cmd] } s.commands.length (solicited cmd.token 2 [])
      exact (h.command cmd).kept ⟨fun x v hv => by rwa [hrequests] at hv, hcommands⟩
    · obtain ⟨d, -, hrun⟩ := Option.bind_eq_some_iff.mp hrun
      obtain ⟨q, hlink, hrun⟩ := Option.bind_eq_some_iff.mp hrun
      exact (h.alloc hlink _).kept (afterDispatch_kept hrun)

theorem serviceStep_filed {b : Build} {reply : Nat → Reply} {s s' : Service α}
    {label : ServiceLabel α} (h : Filed s) (hrun : serviceStep b reply s label = some s') :
    Filed s' := by
  cases label with
  | command a cmd => exact processCommandBuffer_filed h hrun
  | complete a =>
      obtain ⟨v, -, hrun⟩ := Option.bind_eq_some_iff.mp hrun
      obtain ⟨t, ht, hrun⟩ := Option.bind_eq_some_iff.mp hrun
      cases hrun
      have hkept := onRequestComplete_kept ht
      exact h.kept ⟨hkept.info, hkept.commands⟩

/-! ## The frame -/

/-- A frame as the client sees it: the kind of the frame, the token, the error and the
answer. -/
def readFrame (m : Marshaller) (f : ResponseFunction) : Reader UInt8 (Int × Int × Int × Answer) :=
  (fun kind token error answer => (kind, token, error, answer)) <$> readInt <*> readInt <*>
    readInt <*> f.read m

theorem takes_frame {m : Marshaller} {f : ResponseFunction} {token e : Int} {answer : Answer}
    {written : List UInt8} (htoken : IsInt32 token) (he : IsInt32 e)
    (h : Takes (f.read m) written answer) :
    Takes (readFrame m f) (solicited token e written) (0, token, e, answer) :=
  ((((takes_int (by decide)).map _).seq (takes_int htoken)).seq (takes_int he)).seq h

/-- The vendor completes the request at `a` with this response, and the client that
sent command `i` reads the answer from the frame. -/
def Delivers (m : Marshaller) (f : ResponseFunction) (s : Service α) (a : α) (i : Nat)
    (token e : Int) (c : Content) (responselen : Nat) : Prop :=
  ∃ s' frame, rilOnRequestComplete m a e (some c) responselen s = some s' ∧
    s'.written = s.written ++ [(i, frame)] ∧
    (readFrame m f).run frame = some ((0, token, e, f.told m c responselen), [])

theorem delivers {m : Marshaller} (hm : m.Typed) {s : Service α} {a : α}
    {v : RequestInfo α Nat} (h : AwaitsAnswer s a v) (htoken : IsInt32 v.token)
    {f : ResponseFunction} (hf : (sResponses m)[v.pCI]? = some (some f)) {e : Int}
    (he : IsInt32 e) {c : Content} (hc : c.Typed m) {responselen : Nat}
    (hlen : responselen < 2147483648) {r : Marshalled}
    (hcall : f.call m (some c) responselen = some r) (hret : r.ret = 0)
    (hfits : r.written.length + 12 ≤ maxCommandBytes) :
    Delivers m f s a v.ghost v.token e c responselen := by
  obtain ⟨s', hs', hwritten⟩ := onRequestComplete_sends h ⟨e, some r⟩
  have hrun : rilOnRequestComplete m a e (some c) responselen s = some s' := by
    simp only [rilOnRequestComplete, h.record, hf, Option.join_some, Option.bind_eq_bind,
      Option.bind_some, hcall]
    exact hs'
  have hdata : replyData v.token ⟨e, some r⟩ = solicited v.token e r.written := by
    simp only [replyData, hret, ne_eq, not_true_eq_false, if_false]
  have hframe : (solicited v.token e r.written).length ≤ maxCommandBytes := by
    rw [solicited_length]
    omega
  refine ⟨s', solicited v.token e r.written, hrun, ?_, ?_⟩
  · rw [hwritten, hdata, sendResponse_written_eq s v.ghost _ _ hframe]
  · exact (takes_frame htoken he (takes_answer hm hc hlen f hcall hret)).whole

/-- **Answers reach the client as the vendor gave them.**  In every run, a request that
the vendor has still to complete belongs to a command, and has the entry of
`s_commands` that the command asks for.  Whatever response the vendor completes it with,
if the response function accepts it and the frame is not too long, the sender of the
command gets one more frame; in it are the token of the command, the vendor's error and
the vendor's response, and nothing else. -/
theorem answers_read_back {m : Marshaller} (hm : m.Typed) (reply : Nat → Reply)
    (labels : List (ServiceLabel α))
    (hlegal : Along (serviceStep m.toBuild reply) (fun s label => label.Legal s) Service.start
      labels) :
    ∃ s : Service α, exec (serviceStep m.toBuild reply) Service.start labels = some s ∧
      ∀ a ∈ s.calls, ∃ i cmd, s.commands[i]? = some cmd ∧
        ∀ f, (sResponses m)[cmd.request.toNat]? = some (some f) →
        ∀ e, IsInt32 e → ∀ (c : Content), c.Typed m → ∀ responselen, responselen < 2147483648 →
        ∀ r, f.call m (some c) responselen = some r → r.ret = 0 →
          r.written.length + 12 ≤ maxCommandBytes →
          Delivers m f s a i cmd.token e c responselen := by
  obtain ⟨s, l, hrun, hcore⟩ := service_every_run m.toBuild reply labels hlegal
  have hfiled : Filed s := exec_invariant
    (fun t label u ht _ hstep => serviceStep_filed ht hstep)
    (fun a v hv => by simp [Service.start, Requests.empty, Requests.info] at hv) hlegal hrun
  refine ⟨s, hrun, fun a ha => ?_⟩
  have hal := hcore.open_sub a ha
  obtain ⟨v, hv⟩ := Option.isSome_iff_exists.mp (hcore.pending.live a hal)
  obtain ⟨cmd, hcmd⟩ := hcore.record a hal _ (info_of_heap hv)
  obtain ⟨cmd', hcmd', hpCI⟩ := hfiled a _ (info_of_heap hv)
  obtain rfl : cmd = cmd' := Option.some.inj (hcmd.command.symm.trans hcmd')
  have htoken : v.token = cmd.token := hcmd.token
  refine ⟨v.ghost, cmd, hcmd.command, fun f hf e he c hc responselen hlen r hcall hret hfits => ?_⟩
  rw [← htoken]
  refine delivers hm (hcore.awaitsAnswer hal hv) ?_ ?_ he hc hlen hcall hret hfits
  · rw [htoken]
    exact int32At_range _
  · rw [show v.pCI = cmd.request.toNat from hpCI]
    exact hf

theorem someMarshaller_typed : someMarshaller.Typed where
  version := by decide
  maxNumberOfInfoRecs := by decide
  strdup8to16 := fun _ => Nat.le_of_eq (List.length_map _)

/-- Memory with the text "35" in it, and zeros elsewhere. -/
def imeiContent : Content :=
  { zeroContent with text := [51, 53] }

theorem zeros_fit (ints texts : Nat) :
    FieldsFit (List.replicate ints 0) (List.replicate texts none) where
  ints := fun v hv => by
    rw [List.eq_of_mem_replicate hv]
    decide
  texts := fun t ht => by
    rw [List.eq_of_mem_replicate ht]
    decide

theorem imeiContent_typed : imeiContent.Typed someMarshaller where
  ints := fun _ => (zeros_fit 1 0).ints 0 List.mem_cons_self
  text := by decide
  strings := fun _ => (zeros_fit 0 1).texts none List.mem_cons_self
  calls := fun _ => ⟨zeros_fit 10 2, by rintro u ⟨⟩⟩
  sms := zeros_fit 2 1
  dataCallsV4 := fun _ => zeros_fit 2 2
  dataCalls := fun _ => zeros_fit 4 5
  simIo := zeros_fit 2 1
  callForwards := fun _ => zeros_fit 5 1
  cells := fun _ => zeros_fit 1 1
  numberOfInfoRecs := by decide
  infoRec := fun _ => zeros_fit 2 0
  signalStrength := ⟨zeros_fit 14 0, by decide⟩
  cellInfos := fun _ => ⟨zeros_fit 3 0, ⟨show (-9223372036854775808 : Int) ≤ 0 by decide,
    show (0 : Int) < 9223372036854775808 by decide⟩, zeros_fit 6 0, zeros_fit 7 0,
    zeros_fit 10 0, zeros_fit 11 0⟩
  cardStatusV5 := ⟨zeros_fit 6 0, fun _ => zeros_fit 6 2⟩
  cardStatusV6 := ⟨zeros_fit 6 0, fun _ => zeros_fit 6 2⟩
  gsmConfigs := fun _ => zeros_fit 4 0
  cdmaConfigs := fun _ => zeros_fit 2 0
  profiles := fun _ => zeros_fit 2 0

/-- The answer to `RIL_REQUEST_GET_IMEI`. -/
theorem answers_read_back_imei :
    ∃ s : Service Nat, exec (serviceStep someMarshaller.toBuild voidReply) Service.start
        [.command 16 getImei] = some s ∧ 16 ∈ s.calls ∧
      Delivers someMarshaller .string s 16 0 9 0 imeiContent 4 := by
  obtain ⟨s, hrun, h⟩ := answers_read_back someMarshaller_typed voidReply
    [.command 16 getImei] (by decide +kernel)
  have hcalls : s.calls = [16] := by
    have heval : (exec (serviceStep someMarshaller.toBuild voidReply) (Service.start : Service Nat)
      [.command 16 getImei]).map Service.calls = some [16] := by decide +kernel
    rw [hrun] at heval
    exact Option.some.inj heval
  have hcommands : s.commands = [getImei] := by
    have heval : (exec (serviceStep someMarshaller.toBuild voidReply) (Service.start : Service Nat)
      [.command 16 getImei]).map Service.commands = some [getImei] := by decide +kernel
    rw [hrun] at heval
    exact Option.some.inj heval
  have hmem : 16 ∈ s.calls := by
    rw [hcalls]
    exact List.mem_singleton.mpr rfl
  obtain ⟨i, cmd, hcmd, hdelivers⟩ := h 16 hmem
  rw [hcommands] at hcmd
  obtain ⟨hi, hfirst⟩ := List.getElem?_eq_some_iff.mp hcmd
  obtain rfl : i = 0 := by simpa using hi
  obtain rfl : getImei = cmd := hfirst
  have htoken : getImei.token = 9 := by decide +kernel
  rw [htoken] at hdelivers
  exact ⟨s, hrun, hmem, hdelivers .string (by decide +kernel) 0 (by decide) imeiContent
    imeiContent_typed 4 (by omega) _ rfl rfl (by decide)⟩

end Libril
