import JsrD10f.AnswerCodec
import JsrD10f.ResponseReads

/-!
# Response functions of unsolicited responses

`responseSsn`, `responseCallRing` with `responseCdmaSignalInfoRecord`, and
`responseSSData` are only named by `s_unsolResponses`.  They check the length first,
and `responseSSData` also bounds the number of records by that of the array, in the
vendor's own structure.  So all of their accesses lie in the buffer, whatever it
holds; `responseCdmaCallWaiting` and `responseSimRefresh` of the same table have no
such checks.

What the five of them write is read back by the client.  A structure of bytes holds
numbers of 32 bits and no others, so that only the length of a text can be too much.
-/

namespace Libril.UnsolReads

open Parcel Responses VendorMemory ResponseReads Reading

/-! ## Layouts -/

/-- `RIL_SuppSvcNotification`. -/
structure SsnLayout where
  size : Nat
  notificationType : Nat
  code : Nat
  index : Nat
  type : Nat
  number : Nat
  fields_inside : ∀ off ∈ [notificationType, code, index, type, number], off + 4 ≤ size

/-- `RIL_CDMA_SignalInfoRecord`. -/
structure SignalInfoLayout where
  size : Nat
  isPresent : Nat
  signalType : Nat
  alertPitch : Nat
  signal : Nat
  chars_inside : ∀ off ∈ [isPresent, signalType, alertPitch, signal], off + 1 ≤ size

/-- `RIL_CallForwardInfo`. -/
structure ForwardLayout where
  size : Nat
  status : Nat
  reason : Nat
  serviceClass : Nat
  toa : Nat
  number : Nat
  timeSeconds : Nat
  fields_inside : ∀ off ∈ [status, reason, serviceClass, toa, number, timeSeconds],
    off + 4 ≤ size

/-- `RIL_StkCcUnsolSsResponse`.  The two arrays are in a union, the one of forwardings
behind the number of those that are valid. -/
structure SsDataLayout (forward : ForwardLayout) (numServiceClasses ssInfoMax : Nat) where
  size : Nat
  serviceType : Nat
  requestType : Nat
  teleserviceType : Nat
  serviceClass : Nat
  result : Nat
  numValidIndexes : Nat
  cfInfo : Nat
  ssInfo : Nat
  fields_inside : ∀ off ∈ [serviceType, requestType, teleserviceType, serviceClass, result,
    numValidIndexes], off + 4 ≤ size
  cfInfo_behind : numValidIndexes + 4 ≤ cfInfo
  cfInfo_inside : cfInfo + numServiceClasses * forward.size ≤ size
  ssInfo_inside : ssInfo + ssInfoMax * 4 ≤ size

/-- The structures, the limits and the enumerations of `ril.h`. -/
structure UnsolLayouts extends Layouts where
  ssn : SsnLayout
  signalInfo : SignalInfoLayout
  forward : ForwardLayout
  numServiceClasses : Nat
  ssInfoMax : Nat
  ssInfoMax_int : ssInfoMax < 2147483648
  ssData : SsDataLayout forward numServiceClasses ssInfoMax
  interrogation : Int
  cfu : Int
  cfBusy : Int
  cfNoReply : Int
  cfNotReachable : Int
  cfAll : Int
  cfAllConditional : Int

/-! ## The functions -/

variable (l : UnsolLayouts) (strings : Int → List UInt16)

def responseSsn (response : Option Memory) (responselen : Nat) : Option Encoded :=
  match response with
  | none => some rejected
  | some mem =>
      if responselen ≠ l.ssn.size then some rejected
      else some (encoded (.int mem l.ssn.notificationType ++ .int mem l.ssn.code ++
        .int mem l.ssn.index ++ .int mem l.ssn.type ++ .string strings mem l.ssn.number))

def responseCdmaSignalInfoRecord (response : Option Memory) (responselen : Nat) :
    Option Encoded :=
  match response with
  | none => some rejected
  | some mem =>
      if responselen = 0 then some rejected
      else if responselen ≠ l.signalInfo.size then some rejected
      else some (encoded (.char mem l.signalInfo.isPresent ++ .char mem l.signalInfo.signalType ++
        .char mem l.signalInfo.alertPitch ++ .char mem l.signalInfo.signal))

/-- `responseCallRing`, which is `responseVoid` for a GSM call. -/
def responseCallRing (response : Option Memory) (responselen : Nat) : Option Encoded :=
  if response.isNone || responselen == 0 then some (encoded ⟨[], []⟩)
  else responseCdmaSignalInfoRecord l response responselen

def isServiceTypeCfQuery (serType reqType : Int) : Bool :=
  reqType == l.interrogation &&
    (serType == l.cfu || serType == l.cfBusy || serType == l.cfNoReply ||
      serType == l.cfNotReachable || serType == l.cfAll || serType == l.cfAllConditional)

/-- `numValidIndexes` when the records are written, and the memory by then. -/
def truncate (mem : Memory) : Int × Memory :=
  if l.numServiceClasses < word mem l.ssData.numValidIndexes then
    (l.numServiceClasses, store mem l.ssData.numValidIndexes l.numServiceClasses)
  else (word mem l.ssData.numValidIndexes, mem)

def writeForward (mem : Memory) (cf : Nat) : Pass :=
  .int mem (cf + l.forward.status) ++ .int mem (cf + l.forward.reason) ++
    .int mem (cf + l.forward.serviceClass) ++ .int mem (cf + l.forward.toa) ++
    .string strings mem (cf + l.forward.number) ++ .int mem (cf + l.forward.timeSeconds)

/-- The records of a query for call forwarding, else the numbers. -/
def ssInfo (mem : Memory) : Pass :=
  if isServiceTypeCfQuery l (word mem l.ssData.serviceType) (word mem l.ssData.requestType) then
    let valid := truncate l mem
    .peek l.ssData.numValidIndexes ++ .const valid.1 ++
      .records (fun i => writeForward l strings valid.2 (l.ssData.cfInfo + i * l.forward.size))
        valid.1.toNat
  else
    .const l.ssInfoMax ++ .records (fun i => .int mem (l.ssData.ssInfo + i * 4)) l.ssInfoMax

def responseSSData (response : Option Memory) (responselen : Nat) : Option Encoded :=
  if response.isNone && responselen != 0 then some rejected
  else if responselen ≠ l.ssData.size then some rejected
  else do
    let mem ← response
    some (encoded (.int mem l.ssData.serviceType ++ .int mem l.ssData.requestType ++
      .int mem l.ssData.teleserviceType ++ .int mem l.ssData.serviceClass ++
      .int mem l.ssData.result ++ ssInfo l strings mem))

/-! ## All accesses lie in the buffer -/

variable {l} {strings}

theorem responseSsn_inside (response : Option Memory) (responselen : Nat) :
    StaysInside responselen (responseSsn l strings response responselen) := by
  have hfields := l.ssn.fields_inside
  simp only [List.mem_cons, List.not_mem_nil, or_false, forall_eq_or_imp, forall_eq] at hfields
  unfold responseSsn
  cases response with
  | none => exact staysInside_rejected responselen
  | some mem =>
      by_cases hsize : responselen = l.ssn.size
      · subst hsize
        simp only [ne_eq, not_true_eq_false, if_false, staysInside_encoded, Pass.inside_append,
          Pass.inside_int, Pass.inside_string]
        omega
      · simp [hsize]

theorem responseCdmaSignalInfoRecord_inside (response : Option Memory) (responselen : Nat) :
    StaysInside responselen (responseCdmaSignalInfoRecord l response responselen) := by
  have hchars := l.signalInfo.chars_inside
  simp only [List.mem_cons, List.not_mem_nil, or_false, forall_eq_or_imp, forall_eq] at hchars
  unfold responseCdmaSignalInfoRecord
  cases response with
  | none => exact staysInside_rejected responselen
  | some mem =>
      by_cases hsize : responselen = l.signalInfo.size
      · subst hsize
        have hne : l.signalInfo.size ≠ 0 := by omega
        simp only [hne, ne_eq, not_true_eq_false, if_false, staysInside_encoded,
          Pass.inside_append, Pass.inside_char]
        omega
      · simp [hsize]

theorem responseCallRing_inside (response : Option Memory) (responselen : Nat) :
    StaysInside responselen (responseCallRing l response responselen) := by
  unfold responseCallRing
  split
  · rw [staysInside_encoded]
    simp [Pass.Inside]
  · exact responseCdmaSignalInfoRecord_inside response responselen

/-- The number of records is bounded by the array. -/
theorem truncate_le (mem : Memory) : (truncate l mem).1.toNat ≤ l.numServiceClasses := by
  unfold truncate
  generalize word mem l.ssData.numValidIndexes = num
  by_cases hnum : l.numServiceClasses < num
  · rw [if_pos hnum]
    exact Nat.le_of_eq (Int.toNat_natCast _)
  · rw [if_neg hnum]
    dsimp only
    omega

/-- A forwarding of the array lies in the structure. -/
theorem writeForward_inside (mem : Memory) {i : Nat} (hi : i < l.numServiceClasses) :
    (writeForward l strings mem (l.ssData.cfInfo + i * l.forward.size)).Inside l.ssData.size := by
  have hfields := l.forward.fields_inside
  have hend := l.ssData.cfInfo_inside
  have hrecord := Nat.mul_le_mul_right l.forward.size (Nat.succ_le_of_lt hi)
  rw [Nat.succ_mul] at hrecord
  simp only [List.mem_cons, List.not_mem_nil, or_false, forall_eq_or_imp, forall_eq] at hfields
  simp only [writeForward, Pass.inside_append, Pass.inside_int, Pass.inside_string]
  omega

theorem ssInfo_inside (mem : Memory) : (ssInfo l strings mem).Inside l.ssData.size := by
  have hnum := l.ssData.fields_inside l.ssData.numValidIndexes (by simp)
  have hend := l.ssData.ssInfo_inside
  unfold ssInfo
  split
  · have hvalid := truncate_le (l := l) mem
    generalize truncate l mem = valid at hvalid
    simp only [Pass.inside_append, Pass.inside_peek, Pass.inside_const, Pass.inside_records,
      and_true]
    exact ⟨hnum, fun i hi => writeForward_inside _ (Nat.lt_of_lt_of_le hi hvalid)⟩
  · simp only [Pass.inside_append, Pass.inside_const, Pass.inside_records, Pass.inside_int,
      true_and]
    intro i hi
    omega

theorem responseSSData_inside (response : Option Memory) (responselen : Nat) :
    StaysInside responselen (responseSSData l strings response responselen) := by
  have hfields := l.ssData.fields_inside
  simp only [List.mem_cons, List.not_mem_nil, or_false, forall_eq_or_imp, forall_eq] at hfields
  unfold responseSSData
  split
  · exact staysInside_rejected responselen
  · rename_i hnull
    split
    · exact staysInside_rejected responselen
    · rename_i hsize
      obtain rfl := not_ne_iff.mp hsize
      cases response with
      | none =>
          have hlen : l.ssData.size ≠ 0 := by omega
          simp [hlen] at hnull
      | some mem =>
          simp only [Option.bind_eq_bind, Option.bind_some, staysInside_encoded,
            Pass.inside_append, Pass.inside_int]
          exact ⟨⟨⟨⟨⟨hfields.1, hfields.2.1⟩, hfields.2.2.1⟩, hfields.2.2.2.1⟩,
            hfields.2.2.2.2.1⟩, ssInfo_inside mem⟩

/-- **Bounded reads.**  Of the functions that only unsolicited responses use, these
never look outside the buffer: for every pointer, every length and every content they
reject the response or stay inside. -/
theorem unsol_responses_inside (l : UnsolLayouts) (strings : Int → List UInt16)
    (response : Option Memory) (responselen : Nat) :
    StaysInside responselen (responseSsn l strings response responselen) ∧
      StaysInside responselen (responseCallRing l response responselen) ∧
      StaysInside responselen (responseSSData l strings response responselen) :=
  ⟨responseSsn_inside response responselen, responseCallRing_inside response responselen,
    responseSSData_inside response responselen⟩

/-! ## What the client reads -/

structure SsnReport where
  notificationType : Int
  code : Int
  index : Int
  type : Int
  number : Text

structure SignalReport where
  isPresent : UInt8
  signalType : UInt8
  alertPitch : UInt8
  signal : UInt8

structure CallWaitingReport where
  number : Text
  numberPresentation : Int
  name : Text
  signalInfoRecord : SignalReport
  numberType : Int
  numberPlan : Int

structure SimRefreshReport where
  result : Int
  efId : Int
  aid : Text

/-- The forwardings of a query, or the numbers of another request. -/
inductive SsInfo where
  | forwards (cfInfo : List CallForwardInfo)
  | values (ssInfo : List Int)

structure SsDataReport where
  serviceType : Int
  requestType : Int
  teleserviceType : Int
  serviceClass : Int
  result : Int
  info : SsInfo

def readSsn : Reader UInt8 SsnReport :=
  SsnReport.mk <$> readInt <*> readInt <*> readInt <*> readInt <*> Responses.readText

def readSignalInfo : Reader UInt8 SignalReport :=
  SignalReport.mk <$> readChar <*> readChar <*> readChar <*> readChar

def readCallWaiting : Reader UInt8 CallWaitingReport :=
  CallWaitingReport.mk <$> Responses.readText <*> readInt <*> Responses.readText <*>
    readSignalInfo <*> readInt <*> readInt

def readSimRefresh : Reader UInt8 SimRefreshReport :=
  SimRefreshReport.mk <$> readInt <*> readInt <*> Responses.readText

def readSsInfo (l : UnsolLayouts) (serviceType requestType : Int) : Reader UInt8 SsInfo :=
  if isServiceTypeCfQuery l serviceType requestType then
    SsInfo.forwards <$> readList readCallForward
  else SsInfo.values <$> readList readInt

def readSsData (l : UnsolLayouts) : Reader UInt8 SsDataReport := do
  let serviceType ← readInt
  let requestType ← readInt
  SsDataReport.mk serviceType requestType <$> readInt <*> readInt <*> readInt <*>
    readSsInfo l serviceType requestType

/-- The text that a pointer in the buffer leads to. -/
def textIn (strings : Int → List UInt16) (mem : Memory) (off : Nat) : Text :=
  Pass.textAt strings (word mem off)

def ssnIn (l : UnsolLayouts) (strings : Int → List UInt16) (mem : Memory) : SsnReport :=
  ⟨word mem l.ssn.notificationType, word mem l.ssn.code, word mem l.ssn.index,
    word mem l.ssn.type, textIn strings mem l.ssn.number⟩

def signalInfoIn (l : UnsolLayouts) (mem : Memory) : SignalReport :=
  ⟨mem l.signalInfo.isPresent, mem l.signalInfo.signalType, mem l.signalInfo.alertPitch,
    mem l.signalInfo.signal⟩

/-- The two fields of the newer version are 0 in the older one. -/
def callWaitingIn (l : UnsolLayouts) (strings : Int → List UInt16) (mem : Memory)
    (responselen : Nat) : CallWaitingReport :=
  ⟨textIn strings mem l.callWaiting.number, word mem l.callWaiting.numberPresentation,
    textIn strings mem l.callWaiting.name,
    ⟨mem l.callWaiting.isPresent, mem l.callWaiting.signalType, mem l.callWaiting.alertPitch,
      mem l.callWaiting.signal⟩,
    if l.callWaiting.sizeV6 ≤ responselen then word mem l.callWaiting.numberType else 0,
    if l.callWaiting.sizeV6 ≤ responselen then word mem l.callWaiting.numberPlan else 0⟩

def simRefreshIn (l : UnsolLayouts) (strings : Int → List UInt16) (version : Int)
    (mem : Memory) : SimRefreshReport :=
  if 7 ≤ version then
    ⟨word mem l.simRefresh.result, word mem l.simRefresh.efId,
      textIn strings mem l.simRefresh.aid⟩
  else ⟨word mem 0, word mem 4, none⟩

def forwardIn (l : UnsolLayouts) (strings : Int → List UInt16) (mem : Memory) (cf : Nat) :
    CallForwardInfo :=
  ⟨word mem (cf + l.forward.status), word mem (cf + l.forward.reason),
    word mem (cf + l.forward.serviceClass), word mem (cf + l.forward.toa),
    textIn strings mem (cf + l.forward.number), word mem (cf + l.forward.timeSeconds)⟩

/-- As many forwardings as are valid, but no more than the array has. -/
def ssInfoIn (l : UnsolLayouts) (strings : Int → List UInt16) (mem : Memory) : SsInfo :=
  if isServiceTypeCfQuery l (word mem l.ssData.serviceType) (word mem l.ssData.requestType) then
    .forwards ((List.range (min (word mem l.ssData.numValidIndexes) l.numServiceClasses).toNat).map
      fun i => forwardIn l strings mem (l.ssData.cfInfo + i * l.forward.size))
  else .values ((List.range l.ssInfoMax).map fun i => word mem (l.ssData.ssInfo + i * 4))

def ssDataIn (l : UnsolLayouts) (strings : Int → List UInt16) (mem : Memory) : SsDataReport :=
  ⟨word mem l.ssData.serviceType, word mem l.ssData.requestType,
    word mem l.ssData.teleserviceType, word mem l.ssData.serviceClass,
    word mem l.ssData.result, ssInfoIn l strings mem⟩

/-! ## Reading back -/

/-- The texts behind the pointers are shorter than the largest length. -/
def StringsShort (strings : Int → List UInt16) : Prop :=
  ∀ pointer, (strings pointer).length < 2147483647

theorem takes_word (mem : Memory) (off : Nat) :
    Takes readInt (Pass.int mem off).written (word mem off) :=
  takes_int (word_isInt32 mem off)

theorem takes_textIn (h : StringsShort strings) (mem : Memory) (off : Nat) :
    Takes Responses.readText (Pass.string strings mem off).written (textIn strings mem off) := by
  rw [Pass.written_string]
  refine takes_text (t := textIn strings mem off) ?_
  unfold textIn Pass.textAt
  split
  · intro text htext
    cases htext
  · intro text htext
    cases htext
    exact h _

theorem takes_ssn (h : StringsShort strings) {mem : Memory} {responselen : Nat} {e : Encoded}
    (hcall : responseSsn l strings (some mem) responselen = some e) (hret : e.ret = 0) :
    Takes readSsn e.pass.written (ssnIn l strings mem) := by
  unfold responseSsn at hcall
  dsimp only at hcall
  split at hcall
  · cases hcall
    cases hret
  · cases hcall
    exact (((((takes_word mem _).map SsnReport.mk).seq (takes_word mem _)).seq
      (takes_word mem _)).seq (takes_word mem _)).seq (takes_textIn h mem _)

theorem takes_signalInfo {mem : Memory} {responselen : Nat} {e : Encoded}
    (hcall : responseCdmaSignalInfoRecord l (some mem) responselen = some e)
    (hret : e.ret = 0) : Takes readSignalInfo e.pass.written (signalInfoIn l mem) := by
  unfold responseCdmaSignalInfoRecord at hcall
  dsimp only at hcall
  split at hcall
  · cases hcall
    cases hret
  · split at hcall
    · cases hcall
      cases hret
    · cases hcall
      exact ((((takes_char _).map SignalReport.mk).seq (takes_char _)).seq (takes_char _)).seq
        (takes_char _)

/-- A ring of a GSM call has no signal. -/
def signalled (response : Option Memory) (responselen : Nat) : Bool :=
  response.isSome && responselen != 0

/-- The client knows by the kind of its phone whether there is a signal. -/
def readRing (signalled : Bool) : Reader UInt8 (Option SignalReport) :=
  if signalled then some <$> readSignalInfo else pure none

def ringIn (l : UnsolLayouts) (response : Option Memory) (responselen : Nat) :
    Option SignalReport :=
  if responselen = 0 then none else response.map (signalInfoIn l)

theorem takes_callRing {response : Option Memory} {responselen : Nat} {e : Encoded}
    (hcall : responseCallRing l response responselen = some e) (hret : e.ret = 0) :
    Takes (readRing (signalled response responselen)) e.pass.written
      (ringIn l response responselen) := by
  unfold responseCallRing at hcall
  unfold readRing signalled ringIn
  cases response with
  | none =>
      cases hcall
      rw [Option.map_none, ite_self]
      exact Takes.pure none
  | some mem =>
      by_cases hlen : responselen = 0
      · subst hlen
        cases hcall
        exact Takes.pure none
      · have hne : (responselen == 0) = false := beq_eq_false_iff_ne.mpr hlen
        rw [Option.isNone_some, hne, Bool.or_self, if_neg Bool.false_ne_true] at hcall
        rw [Option.isSome_some, Bool.true_and, bne, hne, if_neg hlen, Bool.not_false, if_pos rfl]
        exact (takes_signalInfo hcall hret).map some

theorem takes_callWaiting (h : StringsShort strings) {mem : Memory} {responselen : Nat}
    {e : Encoded}
    (hcall : responseCdmaCallWaiting l.toLayouts strings (some mem) responselen = some e) :
    Takes readCallWaiting e.pass.written (callWaitingIn l strings mem responselen) := by
  have hsignal := ((((takes_char (mem l.callWaiting.isPresent)).map SignalReport.mk).seq
    (takes_char (mem l.callWaiting.signalType))).seq
    (takes_char (mem l.callWaiting.alertPitch))).seq (takes_char (mem l.callWaiting.signal))
  have hfront := ((((takes_textIn h mem l.callWaiting.number).map CallWaitingReport.mk).seq
    (takes_word mem l.callWaiting.numberPresentation)).seq
    (takes_textIn h mem l.callWaiting.name)).seq hsignal
  cases hcall
  unfold callWaitingIn
  by_cases hsize : l.callWaiting.sizeV6 ≤ responselen
  · have hlast := (hfront.seq (takes_word mem l.callWaiting.numberType)).seq
      (takes_word mem l.callWaiting.numberPlan)
    rw [if_pos hsize, if_pos hsize, if_pos hsize]
    rw [List.append_assoc] at hlast
    exact hlast
  · have hzero : Takes readInt (Pass.const 0).written 0 := takes_int (by decide)
    have hlast := (hfront.seq hzero).seq hzero
    rw [if_neg hsize, if_neg hsize, if_neg hsize]
    rw [List.append_assoc] at hlast
    exact hlast

theorem takes_simRefresh (h : StringsShort strings) {version : Int} {mem : Memory}
    {responselen : Nat} {e : Encoded}
    (hcall : responseSimRefresh l.toLayouts strings version (some mem) responselen = some e) :
    Takes readSimRefresh e.pass.written (simRefreshIn l strings version mem) := by
  unfold responseSimRefresh at hcall
  unfold simRefreshIn
  rw [Option.isNone_some, Bool.false_and, if_neg Bool.false_ne_true] at hcall
  by_cases hversion : 7 ≤ version
  · rw [if_pos hversion] at hcall
    rw [if_pos hversion]
    cases hcall
    exact (((takes_word mem _).map SimRefreshReport.mk).seq (takes_word mem _)).seq
      (takes_textIn h mem _)
  · rw [if_neg hversion] at hcall
    rw [if_neg hversion]
    cases hcall
    have hmissing := takes_text (t := none) fun text htext => by cases htext
    exact (((takes_word mem 0).map SimRefreshReport.mk).seq (takes_word mem 4)).seq hmissing

/-- The truncation changes no forwarding. -/
theorem forwardIn_truncate (mem : Memory) {cf : Nat} (hcf : l.ssData.cfInfo ≤ cf) :
    forwardIn l strings (truncate l mem).2 cf = forwardIn l strings mem cf := by
  have hbehind := l.ssData.cfInfo_behind
  have hword (off : Nat) : word (truncate l mem).2 (cf + off) = word mem (cf + off) := by
    unfold truncate
    split
    · exact word_store_of_apart mem _ (Or.inl (by omega))
    · rfl
  simp only [forwardIn, textIn, hword]

theorem truncate_fst (mem : Memory) :
    (truncate l mem).1 = min (word mem l.ssData.numValidIndexes) l.numServiceClasses := by
  unfold truncate
  generalize word mem l.ssData.numValidIndexes = num
  by_cases hnum : l.numServiceClasses < num
  · rw [if_pos hnum, Int.min_eq_right (Int.le_of_lt hnum)]
  · rw [if_neg hnum, Int.min_eq_left (Int.not_lt.mp hnum)]

theorem takes_forward (h : StringsShort strings) (mem : Memory) (cf : Nat) :
    Takes readCallForward (writeForward l strings mem cf).written (forwardIn l strings mem cf) :=
  ((((((takes_word mem _).map CallForwardInfo.mk).seq (takes_word mem _)).seq
    (takes_word mem _)).seq (takes_word mem _)).seq (takes_textIn h mem _)).seq (takes_word mem _)

theorem takes_ssInfo (h : StringsShort strings) (mem : Memory) :
    Takes (readSsInfo l (word mem l.ssData.serviceType) (word mem l.ssData.requestType))
      (ssInfo l strings mem).written (ssInfoIn l strings mem) := by
  unfold readSsInfo ssInfo ssInfoIn
  split
  · have hnum : IsInt32 (truncate l mem).1 := by
      have hword := word_isInt32 mem l.ssData.numValidIndexes
      rw [truncate_fst]
      unfold IsInt32 at *
      omega
    have hlist := takes_list hnum fun i =>
      takes_forward (l := l) h (truncate l mem).2 (l.ssData.cfInfo + i * l.forward.size)
    have hforwards (i : Nat) :
        forwardIn l strings (truncate l mem).2 (l.ssData.cfInfo + i * l.forward.size) =
          forwardIn l strings mem (l.ssData.cfInfo + i * l.forward.size) :=
      forwardIn_truncate mem (Nat.le_add_right _ _)
    simp only [hforwards] at hlist
    rw [← truncate_fst]
    simp only [Pass.written_append, Pass.written_peek, Pass.written_const, Pass.written_records,
      List.nil_append]
    exact hlist.map SsInfo.forwards
  · have hmax := l.ssInfoMax_int
    have hint : IsInt32 (l.ssInfoMax : Int) := ⟨by omega, by omega⟩
    have hlist := takes_list hint fun i => takes_word mem (l.ssData.ssInfo + i * 4)
    rw [Int.toNat_natCast] at hlist
    rw [Pass.written_append, Pass.written_const, Pass.written_records]
    exact hlist.map SsInfo.values

theorem takes_ssData (h : StringsShort strings) {mem : Memory} {responselen : Nat} {e : Encoded}
    (hcall : responseSSData l strings (some mem) responselen = some e) (hret : e.ret = 0) :
    Takes (readSsData l) e.pass.written (ssDataIn l strings mem) := by
  unfold responseSSData at hcall
  rw [Option.isNone_some, Bool.false_and, if_neg Bool.false_ne_true] at hcall
  split at hcall
  · cases hcall
    cases hret
  · cases hcall
    have hrest := ((((takes_word mem l.ssData.teleserviceType).map
      (SsDataReport.mk (word mem l.ssData.serviceType) (word mem l.ssData.requestType))).seq
      (takes_word mem l.ssData.serviceClass)).seq (takes_word mem l.ssData.result)).seq
      (takes_ssInfo (l := l) h mem)
    have hwhole := (takes_word mem l.ssData.serviceType).bind (f := fun serviceType => do
        let requestType ← readInt
        SsDataReport.mk serviceType requestType <$> readInt <*> readInt <*> readInt <*>
          readSsInfo l serviceType requestType)
      ((takes_word mem l.ssData.requestType).bind hrest)
    simp only [Pass.written_append, encoded, List.append_assoc] at hwhole ⊢
    exact hwhole

end Libril.UnsolReads
