import JsrD10f.CommandService
import JsrD10f.ResponseFunctions

/-!
# Rejected responses

When the response function of a request returns an error,
`RIL_onRequestComplete` moves the parcel back to the error code and writes the
returned value there.  The parcel stays as long as it was, so what the function has
written by then is sent as the payload of the error.

The frame of a rejected response is the three numbers at its front if and only if
the function checks before it writes.  In `s_commands` that leaves out
`RIL_REQUEST_SETUP_DATA_CALL` and `RIL_REQUEST_DATA_CALL_LIST`, whose functions
start with the version of the vendor RIL.
-/

namespace Libril

open Parcel Runs Responses

/-! ## The parcel of a response -/

/-- A parcel that is being written: its data and the position in it. -/
structure OutParcel where
  data : List UInt8
  pos : Nat
deriving DecidableEq, Repr

def OutParcel.empty : OutParcel :=
  ⟨[], 0⟩

/-- A write goes to the position, over what is there, and makes the parcel longer if
it has to. -/
def OutParcel.write (p : OutParcel) (bytes : List UInt8) : OutParcel :=
  ⟨p.data.take p.pos ++ bytes ++ p.data.drop (p.pos + bytes.length), p.pos + bytes.length⟩

/-- `setDataPosition`.  The data stay. -/
def OutParcel.setDataPosition (p : OutParcel) (pos : Nat) : OutParcel :=
  { p with pos := pos }

/-- The middle of `RIL_onRequestComplete`, up to `sendResponse`. -/
def completeParcel (token : Int) (r : Reply) : OutParcel :=
  let p := (OutParcel.empty.write (encodeInt32 0)).write (encodeInt32 token)
  let errorOffset := p.pos
  let p := p.write (encodeInt32 r.error)
  match r.response with
  | none => p
  | some m =>
      let p := p.write m.written
      if m.ret ≠ 0 then (p.setDataPosition errorOffset).write (encodeInt32 m.ret) else p

/-- A write at the end. -/
theorem OutParcel.write_end (data bytes : List UInt8) :
    (OutParcel.mk data data.length).write bytes = ⟨data ++ bytes, (data ++ bytes).length⟩ := by
  simp [OutParcel.write]

/-- A write over a part of the same length. -/
theorem OutParcel.write_over (before old new behind : List UInt8)
    (hlength : new.length = old.length) :
    ((OutParcel.mk (before ++ old ++ behind) before.length).write new).data =
      before ++ new ++ behind := by
  simp [OutParcel.write, hlength]

/-- **Going back keeps the bytes behind.**  What `replyData` says is what the writes and
the move back leave in the parcel. -/
theorem completeParcel_data (token : Int) (r : Reply) :
    (completeParcel token r).data = replyData token r := by
  have hempty : OutParcel.empty = ⟨[], ([] : List UInt8).length⟩ := rfl
  unfold completeParcel replyData
  rw [hempty]
  cases hresponse : r.response with
  | none =>
      simp only [OutParcel.write_end, List.nil_append]
      rw [solicited, List.append_nil]
  | some m =>
      simp only [OutParcel.write_end, List.nil_append]
      by_cases hret : m.ret ≠ 0
      · rw [if_pos hret, if_pos hret]
        exact OutParcel.write_over (encodeInt32 0 ++ encodeInt32 token) (encodeInt32 r.error)
          (encodeInt32 m.ret) m.written rfl
      · rw [if_neg hret, if_neg hret]
        rfl

/-! ## The call of the response function -/

variable {α : Type} [DecidableEq α]

/-- `RIL_onRequestComplete` with the vendor's pointer and length.  The response
function is only called if there is a response. -/
def rilOnRequestComplete (m : Marshaller) (a : α) (e : Int) (response : Option Content)
    (responselen : Nat) (s : Service α) : Option (Service α) := do
  let v ← s.requests.heap a
  let f ← ((sResponses m)[v.pCI]?).join
  match response with
  | none => onRequestComplete a ⟨e, none⟩ s
  | some c => do
      let r ← f.call m (some c) responselen
      onRequestComplete a ⟨e, some r⟩ s

/-- The request is on the pending list, and its client waits for the answer. -/
structure AwaitsAnswer (s : Service α) (a : α) (v : RequestInfo α Nat) : Prop where
  listed : ∃ l, Pending s.requests l ∧ a ∈ l ∧ l.length ≤ s.commands.length
  record : s.requests.heap a = some v
  remote : v.isLocal = false
  active : v.cancelled = false

omit [DecidableEq α] in
theorem ServiceCore.awaitsAnswer {b : Build} {reply : Nat → Reply} {s : Service α}
    {l openCalls : List α} (h : ServiceCore b reply s l openCalls) {a : α} (ha : a ∈ l)
    {v : RequestInfo α Nat} (hv : s.requests.heap a = some v) : AwaitsAnswer s a v := by
  obtain ⟨cmd, hcmd⟩ := h.record a ha _ (info_of_heap hv)
  exact ⟨⟨l, h.pending, ha, h.length_le⟩, hv, hcmd.remote, hcmd.active⟩

/-- The answer is sent and the request is gone. -/
theorem onRequestComplete_sends {s : Service α} {a : α} {v : RequestInfo α Nat}
    (h : AwaitsAnswer s a v) (r : Reply) :
    ∃ s', onRequestComplete a r s = some s' ∧
      s'.written = (s.sendResponse v.ghost (replyData v.token r)).written := by
  obtain ⟨l, hpending, ha, hlength⟩ := h.listed
  obtain ⟨q, -, -, heq⟩ := onRequestComplete_eq hpending hlength ha (info_of_heap h.record)
    h.remote h.active r
  refine ⟨_, heq, ?_⟩
  simp only [Service.sendResponse]
  split <;> rfl

omit [DecidableEq α] in
/-- A frame is written as it is, or not at all. -/
theorem sendResponse_written_eq (s : Service α) (i : Nat) (data frame : List UInt8)
    (hframe : frame.length ≤ maxCommandBytes) :
    (s.sendResponse i data).written = s.written ++ [(i, frame)] ↔ data = frame := by
  unfold Service.sendResponse
  split
  · rename_i hlong
    constructor
    · intro h
      simp at h
    · rintro rfl
      omega
  · simp

/-- An entry of `s_commands` and its index: the functions for data calls are those of
`RIL_REQUEST_SETUP_DATA_CALL` and `RIL_REQUEST_DATA_CALL_LIST`. -/
def DataCallEntry (k : Nat) (f : ResponseFunction) : Prop :=
  f ≠ .cdmaInformationRecords ∧
    (f = .dataCallList ∨ f = .setupDataCall ↔ k = 27 ∨ k = 57)

instance (k : Nat) (f : ResponseFunction) : Decidable (DataCallEntry k f) :=
  inferInstanceAs (Decidable (_ ∧ _))

theorem sResponses_dataCalls (m : Marshaller) :
    ∀ x ∈ (sResponses m).zipIdx, ∀ f ∈ x.1, DataCallEntry x.2 f := by
  unfold sResponses responseEntries
  cases m.variantLegacy <;> cases m.noCellInfoList <;> decide +kernel

theorem checksFirst_iff {m : Marshaller} {response : Option Content} {responselen : Nat}
    {f : ResponseFunction} (h : f ≠ .cdmaInformationRecords) :
    f.ChecksFirst m response responselen ↔ ¬(f = .dataCallList ∨ f = .setupDataCall) := by
  cases f <;> simp [ResponseFunction.ChecksFirst] at h ⊢

theorem sResponses_checksFirst {m : Marshaller} {k : Nat} {f : ResponseFunction}
    (h : (sResponses m)[k]? = some (some f)) (response : Option Content) (responselen : Nat) :
    f.ChecksFirst m response responselen ↔ k ≠ 27 ∧ k ≠ 57 := by
  obtain ⟨hother, hentry⟩ := sResponses_dataCalls m (some f, k)
    (List.mem_zipIdx_iff_getElem?.mpr h) f rfl
  rw [checksFirst_iff hother, hentry, not_or]

/-- The answer to the request is the error alone: three numbers and nothing behind
them. -/
def SendsBareError (m : Marshaller) (s : Service α) (a : α) (v : RequestInfo α Nat) (e : Int)
    (response : Content) (responselen : Nat) (ret : Int) : Prop :=
  ∃ s', rilOnRequestComplete m a e (some response) responselen s = some s' ∧
    s'.written = s.written ++ [(v.ghost, solicited v.token ret [])]

/-- The bare error is sent if nothing was written before. -/
theorem sendsBareError_iff {m : Marshaller} {s : Service α} {a : α} {v : RequestInfo α Nat}
    (h : AwaitsAnswer s a v) {f : ResponseFunction} (hf : (sResponses m)[v.pCI]? = some (some f))
    (e : Int) {response : Content} {responselen : Nat} {r : Marshalled}
    (hcall : f.call m (some response) responselen = some r) (hret : r.ret ≠ 0) :
    SendsBareError m s a v e response responselen r.ret ↔ r.written = [] := by
  obtain ⟨s', hs', hwritten⟩ := onRequestComplete_sends h ⟨e, some r⟩
  have hrun : rilOnRequestComplete m a e (some response) responselen s = some s' := by
    simp only [rilOnRequestComplete, h.record, hf, Option.join_some, Option.bind_eq_bind,
      Option.bind_some, hcall]
    exact hs'
  have hdata : replyData v.token ⟨e, some r⟩ = solicited v.token r.ret r.written := by
    simp only [replyData, if_pos hret]
  have hframe : (solicited v.token r.ret []).length ≤ maxCommandBytes := by
    rw [solicited_length]
    decide
  have hsent : SendsBareError m s a v e response responselen r.ret ↔
      (s.sendResponse v.ghost (solicited v.token r.ret r.written)).written =
        s.written ++ [(v.ghost, solicited v.token r.ret [])] := by
    rw [← hdata, ← hwritten]
    constructor
    · rintro ⟨t, ht, hsame⟩
      obtain rfl : s' = t := Option.some.inj (hrun.symm.trans ht)
      exact hsame
    · intro hsame
      exact ⟨s', hrun, hsame⟩
  rw [hsent, sendResponse_written_eq s v.ghost _ _ hframe]
  simp [solicited]

/-- **The frame of a rejected response.**  For every request that waits for an answer,
every error and every response that is rejected, the frame is the three numbers alone
exactly if the request is none of the two for data calls. -/
theorem rejected_frame_iff {m : Marshaller} {s : Service α} {a : α} {v : RequestInfo α Nat}
    (h : AwaitsAnswer s a v) {f : ResponseFunction} (hf : (sResponses m)[v.pCI]? = some (some f))
    (e : Int) {response : Content} {responselen : Nat} {r : Marshalled}
    (hcall : f.call m (some response) responselen = some r) (hret : r.ret ≠ 0) :
    SendsBareError m s a v e response responselen r.ret ↔ v.pCI ≠ 27 ∧ v.pCI ≠ 57 := by
  rw [sendsBareError_iff h hf e hcall hret, rejected_written_iff hcall hret]
  exact sResponses_checksFirst hf (some response) responselen

/-- The header of Android 4.4, with pointers of four bytes. -/
def someHeader : RilHeader where
  sizeofSmsResponse := 12
  sizeofDataCallV4 := 20
  sizeofDataCallV6 := 36
  sizeofSimIoResponse := 12
  sizeofInformationRecords := 964
  sizeofSignalStrengthV5 := 28
  sizeofSignalStrengthV6 := 48
  sizeofSignalStrengthV8 := 52
  sizeofSignalStrengthV9Caf := 56
  sizeofCellInfo := 72
  sizeofCardStatusV5 := 276
  sizeofCardStatusV6 := 280
  sizeofDataCallProfileInfo := 8
  maxNumberOfInfoRecs := 10
  alphaInfoBufferLength := 64
  numberInfoBufferLength := 81
  infoName
    | 0 => some .display
    | 1 => some .calledPartyNumber
    | 2 => some .callingPartyNumber
    | 3 => some .connectedNumber
    | 4 => some .signal
    | 5 => some .redirectingNumber
    | 6 => some .lineControl
    | 7 => some .extendedDisplay
    | 8 => some .t53Clir
    | 9 => some .t53Release
    | 10 => some .t53AudioControl
    | _ => none
  cellKind
    | 1 => some .gsm
    | 2 => some .cdma
    | 3 => some .lte
    | 4 => some .wcdma
    | _ => none

def someMarshaller : Marshaller where
  toBuild := someBuild
  newLibrilHtc := false
  hcRadio := false
  header := someHeader
  strdup8to16 := List.map fun c => .ofNat c.toNat

/-- Memory that is all zero. -/
def zeroContent : Content where
  ints := fun _ => 0
  text := []
  strings := fun _ => none
  bytes := fun _ => 0
  calls := fun _ => default
  sms := default
  dataCallsV4 := fun _ => default
  dataCalls := fun _ => default
  simIo := default
  callForwards := fun _ => ⟨0, 0, 0, 0, none, 0⟩
  cells := fun _ => default
  informationRecords := default
  signalStrength := default
  cellInfos := fun _ => default
  cardStatusV5 := default
  cardStatusV6 := default
  gsmConfigs := fun _ => ⟨0, 0, 0, 0, 0⟩
  cdmaConfigs := fun _ => ⟨0, 0, 0⟩
  profileCount := 0
  profiles := fun _ => default

/-- A request with token 7, the first command of its client. -/
def onlyRequest (pCI : Nat) : RequestInfo Nat Nat :=
  ⟨7, pCI, none, false, false, 0⟩

/-- It is at address 16 and the only one on the list. -/
def waitingService (pCI : Nat) : Service Nat :=
  { (Service.start : Service Nat) with
    requests := ⟨fun a => if a = 16 then some (onlyRequest pCI) else none, some 16⟩
    calls := [16]
    commands := [⟨encodeInt32 pCI ++ encodeInt32 7, .on⟩] }

theorem waitingService_awaits (pCI : Nat) :
    AwaitsAnswer (waitingService pCI) 16 (onlyRequest pCI) := by
  refine ⟨⟨[16], ⟨⟨rfl, rfl⟩, ?_⟩, List.mem_singleton.mpr rfl, Nat.le_refl 1⟩, rfl, rfl, rfl⟩
  intro a ha
  rw [List.mem_singleton.mp ha]
  rfl

/-- A response to `RIL_REQUEST_SIM_IO` with a wrong length. -/
theorem rejected_frame_iff_sim_io :
    SendsBareError someMarshaller (waitingService 28) 16 (onlyRequest 28) 0 zeroContent 1 (-1) ↔
      (28 : Nat) ≠ 27 ∧ (28 : Nat) ≠ 57 :=
  @rejected_frame_iff _ _ someMarshaller (waitingService 28) 16 (onlyRequest 28)
    (waitingService_awaits 28) .simIo rfl 0 zeroContent 1 (invalidResponse []) rfl (by decide)

/-- **The version stays behind the error.**  A response to `RIL_REQUEST_SETUP_DATA_CALL`
with a wrong length is answered with four numbers. -/
theorem setup_data_call_keeps_version :
    ¬∀ (m : Marshaller) (s : Service Nat) (a : Nat) (v : RequestInfo Nat Nat)
      (f : ResponseFunction) (e : Int) (response : Content) (responselen : Nat) (r : Marshalled),
      AwaitsAnswer s a v → (sResponses m)[v.pCI]? = some (some f) →
      f.call m (some response) responselen = some r → r.ret ≠ 0 →
      SendsBareError m s a v e response responselen r.ret := by
  intro hall
  have hcall : ResponseFunction.setupDataCall.call someMarshaller (some zeroContent) 1 =
      some (invalidResponse (encodeInt32 9)) := rfl
  have hbare := hall someMarshaller (waitingService 27) 16 (onlyRequest 27) .setupDataCall 0
    zeroContent 1 _ (waitingService_awaits 27) rfl hcall (by decide)
  have hempty := (sendsBareError_iff (waitingService_awaits 27) rfl 0 hcall (by decide)).mp hbare
  exact absurd hempty (by decide)

end Libril
