import Mathlib.Data.List.Infix
import JsrD10f.CountWords
import JsrD10f.RejectedResponses

/-!
# Messages and configurations over a parcel

A CDMA message and a list of broadcast configurations are structures that the code
both writes into a parcel and reads from one.  The writers and the readers are
separate sequences of calls.  A reader keeps only the status of its last call, and
goes on with old values when a number is missing.

Here the two sides are compared.  What was written is read back with any bytes
behind it, and nothing else is consumed.  A parcel that is cut anywhere is rejected:
the values in front of the cut are those of the whole parcel, so the reader asks for
as many bytes as were written.
-/

namespace Libril.Responses

open Parcel

/-! ## Writing a CDMA message -/

/-- The element `i` of an array of bytes. -/
def arrayAt (a : List UInt8) (i : Nat) : UInt8 :=
  a.getD i 0

/-- The first `n` elements of an array, each with a `write` of its own. -/
def writeArray (a : List UInt8) (n : Nat) : List UInt8 :=
  writeRecords (fun i => writeBytes [arrayAt a i]) n

/-- The digits of the address that go over the parcel. -/
def addressLimit (numberOfDigits : UInt8) : Nat :=
  min numberOfDigits.toNat cdmaSmsAddressMax

def subaddressLimit (numberOfDigits : UInt8) : Nat :=
  min numberOfDigits.toNat cdmaSmsSubaddressMax

/-- There are no bearer data when their length is negative. -/
def bearerLimit (uBearerDataLen : Int) : Nat :=
  (min uBearerDataLen cdmaSmsBearerDataMax).toNat

/-- `responseCdmaSms` up to the digits of the address. -/
def writeAddress (m : CdmaSmsMessage) : List UInt8 :=
  encodeInt32 m.uTeleserviceID ++ (writeBytes [m.bIsServicePresent] ++
    (encodeInt32 m.uServicecategory ++ (encodeInt32 m.digitMode ++ (encodeInt32 m.numberMode ++
      (encodeInt32 m.numberType ++ (encodeInt32 m.numberPlan ++ (writeBytes [m.numberOfDigits] ++
        writeArray m.digits (addressLimit m.numberOfDigits))))))))

def writeSubaddress (m : CdmaSmsMessage) : List UInt8 :=
  encodeInt32 m.subaddressType ++ (writeBytes [m.subOdd] ++ (writeBytes [m.subNumberOfDigits] ++
    writeArray m.subDigits (subaddressLimit m.subNumberOfDigits)))

/-- The length is written as it is, also when it is out of range. -/
def writeBearerData (m : CdmaSmsMessage) : List UInt8 :=
  encodeInt32 m.uBearerDataLen ++ writeArray m.aBearerData (bearerLimit m.uBearerDataLen)

/-- `responseCdmaSms`; `size` is `sizeof(RIL_CDMA_SMS_Message)`. -/
def responseCdmaSms (size : Nat) (response : Option CdmaSmsMessage) (responselen : Nat) :
    Marshalled :=
  match response with
  | none => invalidResponse []
  | some m =>
      if responselen ≠ size then invalidResponse []
      else success (writeAddress m ++ (writeSubaddress m ++ writeBearerData m))

/-- The position of the parcel after `constructCdmaSms`. -/
def afterCdmaSms (b : Build) (c : Cursor) : List UInt8 :=
  (readCdmaMessage b addressLimit subaddressLimit bearerLimit b.junk c).2.rest

/-- The integers and enumerations of a `RIL_CDMA_SMS_Message` have 32 bits. -/
structure IsCdmaSms (m : CdmaSmsMessage) : Prop where
  teleservice : IsInt32 m.uTeleserviceID
  category : IsInt32 m.uServicecategory
  digitMode : IsInt32 m.digitMode
  numberMode : IsInt32 m.numberMode
  numberType : IsInt32 m.numberType
  numberPlan : IsInt32 m.numberPlan
  subaddressType : IsInt32 m.subaddressType
  bearerDataLen : IsInt32 m.uBearerDataLen

/-- The array `a'` is `a` up to `n`, and zero from there on. -/
def FirstOf (n : Nat) (a a' : List UInt8) : Prop :=
  ∀ i, arrayAt a' i = if i < n then arrayAt a i else 0

/-- `m'` is `m` with its arrays cleared behind the digits and data that count. -/
structure Carries (m m' : CdmaSmsMessage) : Prop where
  scalars : m' = { m with
    digits := m'.digits, subDigits := m'.subDigits, aBearerData := m'.aBearerData }
  digits : FirstOf (addressLimit m.numberOfDigits) m.digits m'.digits
  subDigits : FirstOf (subaddressLimit m.subNumberOfDigits) m.subDigits m'.subDigits
  bearerData : FirstOf (bearerLimit m.uBearerDataLen) m.aBearerData m'.aBearerData

/-! ## Reading back what was written -/

theorem writeBytes_singleton (v : UInt8) : writeBytes [v] = [v, 0, 0, 0] := by
  simp [writeBytes, padSize, List.replicate]

theorem readByte_writeBytes (old v : UInt8) (rest : List UInt8) (ok : Bool) :
    readByte old ⟨writeBytes [v] ++ rest, ok⟩ = (v, ⟨rest, true⟩) := by
  have hlen : 4 ≤ ([v, 0, 0, 0] ++ rest).length := by
    simp
  rw [writeBytes_singleton, readByte, takePadded_one, if_pos hlen]
  rfl

theorem bytesLoop_writeBytes (l : List UInt8) (ut : UInt8) (rest : List UInt8) :
    bytesLoop l.length ut ⟨l.flatMap (fun v => writeBytes [v]) ++ rest, true⟩ =
      (l, l.getLastD ut, ⟨rest, true⟩) := by
  induction l generalizing ut with
  | nil => rfl
  | cons v l ih =>
      rw [List.flatMap_cons, List.append_assoc, List.length_cons, bytesLoop]
      simp only [readByte_writeBytes, ih, List.getLastD_cons]

/-- The elements of an array come back in order. -/
theorem bytesLoop_writeArray (a : List UInt8) (n : Nat) (ut : UInt8) (rest : List UInt8) :
    bytesLoop n ut ⟨writeArray a n ++ rest, true⟩ =
      ((List.range n).map (arrayAt a), ((List.range n).map (arrayAt a)).getLastD ut,
        ⟨rest, true⟩) := by
  have h := bytesLoop_writeBytes ((List.range n).map (arrayAt a)) ut rest
  rw [List.length_map, List.length_range, List.flatMap_map] at h
  exact h

theorem firstOf_range (a : List UInt8) (n : Nat) :
    FirstOf n a ((List.range n).map (arrayAt a)) := by
  intro i
  by_cases hi : i < n
  · simp [arrayAt, hi]
  · simp [arrayAt, hi]

/-- The message that comes out at the other end. -/
def carried (m : CdmaSmsMessage) : CdmaSmsMessage :=
  { m with
    digits := (List.range (addressLimit m.numberOfDigits)).map (arrayAt m.digits)
    subDigits := (List.range (subaddressLimit m.subNumberOfDigits)).map (arrayAt m.subDigits)
    aBearerData := (List.range (bearerLimit m.uBearerDataLen)).map (arrayAt m.aBearerData) }

theorem carries_carried (m : CdmaSmsMessage) : Carries m (carried m) where
  scalars := rfl
  digits := firstOf_range _ _
  subDigits := firstOf_range _ _
  bearerData := firstOf_range _ _

/-- The fields come back one after the other. -/
theorem readCdmaMessage_written (b : Build) {m : CdmaSmsMessage} (hm : IsCdmaSms m) (t : Int)
    (rest : List UInt8) (ok : Bool) :
    readCdmaMessage b addressLimit subaddressLimit bearerLimit t
        ⟨writeAddress m ++ (writeSubaddress m ++ (writeBearerData m ++ rest)), ok⟩ =
      (carried m, ⟨rest, true⟩) := by
  simp only [readCdmaMessage, writeAddress, writeSubaddress, writeBearerData, List.append_assoc,
    readInt32_encodeInt32 hm.teleservice, readInt32_encodeInt32 hm.category,
    readInt32_encodeInt32 hm.digitMode, readInt32_encodeInt32 hm.numberMode,
    readInt32_encodeInt32 hm.numberType, readInt32_encodeInt32 hm.numberPlan,
    readInt32_encodeInt32 hm.subaddressType, readInt32_encodeInt32 hm.bearerDataLen,
    readByte_writeBytes, bytesLoop_writeArray]
  rfl

/-! ## A parcel that is cut -/

/-- `front` is a part of `whole` that ends too early. -/
def CutFrom (whole front : List UInt8) : Prop :=
  front <+: whole ∧ front.length < whole.length

theorem CutFrom.headD_eq {whole front : List UInt8} (h : CutFrom whole front)
    (hne : 0 < front.length) : front.headD 0 = whole.headD 0 := by
  obtain ⟨⟨rest, rfl⟩, _⟩ := h
  match front with
  | _ :: _ => rfl

theorem CutFrom.int32At_eq {whole front : List UInt8} (h : CutFrom whole front)
    (hlen : 4 ≤ front.length) : int32At front = int32At whole := by
  obtain ⟨⟨rest, rfl⟩, _⟩ := h
  exact (int32At_append hlen rest).symm

theorem CutFrom.drop {whole front : List UInt8} (h : CutFrom whole front) {n : Nat}
    (hn : n < front.length) : CutFrom (whole.drop n) (front.drop n) := by
  refine ⟨h.1.drop n, ?_⟩
  have hlt := h.2
  rw [List.length_drop, List.length_drop]
  omega

/-- A section of the parcel whose length stands at `pos` inside of it.  If anything
is left behind the section, its length was there and is that of the whole parcel. -/
theorem CutFrom.skip {whole front : List UInt8} (h : CutFrom whole front) {pos base : Nat}
    (hpos : pos < base) {count : UInt8 → Nat}
    (hleft : 0 < (front.drop (base + 4 * count ((front.drop pos).headD 0))).length) :
    CutFrom (whole.drop (base + 4 * count ((whole.drop pos).headD 0)))
      (front.drop (base + 4 * count ((front.drop pos).headD 0))) := by
  rw [List.length_drop] at hleft
  have hcount : (front.drop pos).headD 0 = (whole.drop pos).headD 0 := by
    apply (h.drop (by omega)).headD_eq
    rw [List.length_drop]
    omega
  rw [← hcount]
  exact h.drop (by omega)

/-- A reader of the cut parcel runs out of bytes. -/
theorem CutFrom.incomplete {whole front : List UInt8} (h : CutFrom whole front)
    (hwhole : (afterSubaddress subaddressLimit (afterAddress addressLimit whole)).length =
      4 + 4 * bearerLimit (int32At
        (afterSubaddress subaddressLimit (afterAddress addressLimit whole)))) :
    ¬CdmaSmsComplete front := by
  intro hcomplete
  have hbearer : 4 + 4 * bearerLimit (int32At
      (afterSubaddress subaddressLimit (afterAddress addressLimit front))) ≤
      (afterSubaddress subaddressLimit (afterAddress addressLimit front)).length := hcomplete
  have hsub : 0 < (afterAddress addressLimit front).length := by
    rw [afterSubaddress, List.length_drop] at hbearer
    omega
  have hcut : CutFrom (afterSubaddress subaddressLimit (afterAddress addressLimit whole))
      (afterSubaddress subaddressLimit (afterAddress addressLimit front)) :=
    (h.skip (by decide) hsub).skip (by decide) (by
      rw [afterSubaddress] at hbearer
      exact Nat.lt_of_lt_of_le (by omega) hbearer)
  have hnumber := hcut.int32At_eq (by omega)
  have hlt := hcut.2
  rw [hnumber] at hbearer
  omega

theorem writeArray_length (a : List UInt8) (n : Nat) : (writeArray a n).length = 4 * n := by
  simp [writeArray, writeRecords, writeBytes_singleton, List.length_flatMap, Nat.mul_comm]

theorem afterAddress_written (m : CdmaSmsMessage) (rest : List UInt8) :
    afterAddress addressLimit (writeAddress m ++ rest) = rest := by
  have hcount : ((writeAddress m ++ rest).drop 28).headD 0 = m.numberOfDigits := by
    simp only [writeAddress, encodeInt32, writeBytes_singleton, List.cons_append,
      List.nil_append]
    rfl
  have hlen : (writeAddress m).length = 32 + 4 * addressLimit m.numberOfDigits := by
    simp only [writeAddress, encodeInt32, writeBytes_singleton, List.length_append,
      List.length_cons, List.length_nil, writeArray_length]
    omega
  rw [afterAddress, hcount, ← hlen, List.drop_left]

theorem afterSubaddress_written (m : CdmaSmsMessage) (rest : List UInt8) :
    afterSubaddress subaddressLimit (writeSubaddress m ++ rest) = rest := by
  have hcount : ((writeSubaddress m ++ rest).drop 8).headD 0 = m.subNumberOfDigits := by
    simp only [writeSubaddress, encodeInt32, writeBytes_singleton, List.cons_append,
      List.nil_append]
    rfl
  have hlen : (writeSubaddress m).length = 12 + 4 * subaddressLimit m.subNumberOfDigits := by
    simp only [writeSubaddress, encodeInt32, writeBytes_singleton, List.length_append,
      List.length_cons, List.length_nil, writeArray_length]
    omega
  rw [afterSubaddress, hcount, ← hlen, List.drop_left]

theorem writeBearerData_length (m : CdmaSmsMessage) :
    (writeBearerData m).length = 4 + 4 * bearerLimit m.uBearerDataLen := by
  rw [writeBearerData, List.length_append, writeArray_length]
  rfl

/-- **The CDMA message codec.**  Every message comes back with its arrays cleared
behind the part that counts, and no cut of it is accepted. -/
theorem cdmaSms_codec (b : Build) (size : Nat) (m : CdmaSmsMessage) (hm : IsCdmaSms m)
    (ok : Bool) :
    (responseCdmaSms size (some m) size).ret = 0 ∧
      (∀ rest, ∃ m', Carries m m' ∧
        constructCdmaSms b ⟨(responseCdmaSms size (some m) size).written ++ rest, ok⟩ = some m' ∧
        afterCdmaSms b ⟨(responseCdmaSms size (some m) size).written ++ rest, ok⟩ = rest) ∧
      ∀ front, CutFrom (responseCdmaSms size (some m) size).written front →
        constructCdmaSms b ⟨front, ok⟩ = none := by
  have hwritten : (responseCdmaSms size (some m) size).written =
      writeAddress m ++ (writeSubaddress m ++ writeBearerData m) := by
    simp [responseCdmaSms, success]
  refine ⟨by simp [responseCdmaSms, success], fun rest => ?_, fun front hcut => ?_⟩
  · have hread := readCdmaMessage_written b hm b.junk rest ok
    refine ⟨carried m, carries_carried m, ?_, ?_⟩
    · rw [hwritten, List.append_assoc, List.append_assoc]
      unfold constructCdmaSms
      unfold addressLimit subaddressLimit bearerLimit at hread
      simp [hread]
    · rw [hwritten, List.append_assoc, List.append_assoc, afterCdmaSms, hread]
  · rw [hwritten] at hcut
    have hincomplete : ¬CdmaSmsComplete front := by
      apply hcut.incomplete
      rw [afterAddress_written, afterSubaddress_written, writeBearerData_length,
        writeBearerData, int32At_encodeInt32 hm.bearerDataLen]
    rw [← constructCdmaSms_isSome (b := b) (c := ⟨front, ok⟩) (Alike.refl front)] at hincomplete
    simpa using hincomplete

/-- A message that claims more digits than there is room for, and a negative length
of its bearer data. -/
def overlongSms : CdmaSmsMessage where
  uTeleserviceID := 4098
  bIsServicePresent := 1
  uServicecategory := -1
  digitMode := 0
  numberMode := 1
  numberType := 2
  numberPlan := 3
  numberOfDigits := 255
  digits := [5, 5, 5]
  subaddressType := 1
  subOdd := 0
  subNumberOfDigits := 2
  subDigits := [7, 8, 9]
  uBearerDataLen := -5
  aBearerData := [1, 2]

theorem cdmaSms_codec_overlong :
    (responseCdmaSms 400 (some overlongSms) 400).ret = 0 ∧
      (∀ rest, ∃ m', Carries overlongSms m' ∧
        constructCdmaSms someBuild
          ⟨(responseCdmaSms 400 (some overlongSms) 400).written ++ rest, true⟩ = some m' ∧
        afterCdmaSms someBuild
          ⟨(responseCdmaSms 400 (some overlongSms) 400).written ++ rest, true⟩ = rest) ∧
      ∀ front, CutFrom (responseCdmaSms 400 (some overlongSms) 400).written front →
        constructCdmaSms someBuild ⟨front, true⟩ = none :=
  cdmaSms_codec someBuild 400 overlongSms
    ⟨by decide, by decide, by decide, by decide, by decide, by decide, by decide, by decide⟩ true

/-! ## Broadcast configurations -/

/-- The numbers of a configuration have 32 bits. -/
structure IsGsmConfig (e : GsmBroadcastSmsConfigInfo) : Prop where
  fromServiceId : IsInt32 e.fromServiceId
  toServiceId : IsInt32 e.toServiceId
  fromCodeScheme : IsInt32 e.fromCodeScheme
  toCodeScheme : IsInt32 e.toCodeScheme

structure IsCdmaConfig (e : CdmaBroadcastSmsConfigInfo) : Prop where
  serviceCategory : IsInt32 e.serviceCategory
  language : IsInt32 e.language

/-- The array of pointers leads to the entries of `l`; without entries it may be a
null pointer. -/
def PointsTo {α : Type} (config : Content → Nat → α) (response : Option Content)
    (l : List α) : Prop :=
  l = (response.map fun c => (List.range l.length).map (config c)).getD []

/-- The bytes that the two response functions write for a list. -/
def writeConfigs {α : Type} (write : α → List UInt8) (l : List α) : List UInt8 :=
  encodeInt32 l.length ++ l.flatMap write

theorem responseConfigs_written {α : Type} {config : Content → Nat → α}
    {write : α → List UInt8} {response : Option Content} {l : List α}
    (h : PointsTo config response l) :
    responseConfigs (fun c i => write (config c i)) response (4 * l.length) =
      some (success (writeConfigs write l)) := by
  have hnum : 4 * l.length / 4 = l.length := by omega
  cases response with
  | none =>
      have hnil : l = [] := h
      simp [responseConfigs, writeConfigs, hnil]
  | some c =>
      have hlist : l = (List.range l.length).map (config c) := h
      have hflat : l.flatMap write =
          (List.range l.length).flatMap fun i => write (config c i) := by
        conv_lhs => rw [hlist]
        rw [List.flatMap_map]
      simp only [responseConfigs, hnum, writeRecords, writeConfigs, hflat]

theorem isInt32_byte (v : UInt8) : IsInt32 v.toNat := by
  have hlt := v.toNat_lt
  constructor <;> omega

/-- The flag goes over the parcel as a number. -/
theorem ofNat_selected (v : UInt8) : UInt8.ofNat (((v.toNat : Int) % 256).toNat) = v := by
  have hlt := v.toNat_lt
  have hmod : ((v.toNat : Int) % 256).toNat = v.toNat := by omega
  rw [hmod, UInt8.ofNat_toNat]

theorem gsmBrLoop_written {l : List GsmBroadcastSmsConfigInfo} (hl : ∀ e ∈ l, IsGsmConfig e)
    (t : Int) (rest : List UInt8) :
    gsmBrLoop l.length t ⟨l.flatMap writeGsmConfig ++ rest, true⟩ = (l, ⟨rest, true⟩) := by
  induction l generalizing t with
  | nil => rfl
  | cons e l ih =>
      have he : IsGsmConfig e := hl e List.mem_cons_self
      have htail := ih fun e' he' => hl e' (List.mem_cons_of_mem e he')
      simp only [List.flatMap_cons, List.length_cons, gsmBrLoop, writeGsmConfig, writeChar,
        List.append_assoc, readInt32_encodeInt32 he.fromServiceId,
        readInt32_encodeInt32 he.toServiceId, readInt32_encodeInt32 he.fromCodeScheme,
        readInt32_encodeInt32 he.toCodeScheme, readInt32_encodeInt32 (isInt32_byte _), htail,
        ofNat_selected]

theorem cdmaBrLoop_written {l : List CdmaBroadcastSmsConfigInfo}
    (hl : ∀ e ∈ l, IsCdmaConfig e) (t : Int) (rest : List UInt8) :
    cdmaBrLoop l.length t ⟨l.flatMap writeCdmaConfig ++ rest, true⟩ = (l, ⟨rest, true⟩) := by
  induction l generalizing t with
  | nil => rfl
  | cons e l ih =>
      have he : IsCdmaConfig e := hl e List.mem_cons_self
      have htail := ih fun e' he' => hl e' (List.mem_cons_of_mem e he')
      simp only [List.flatMap_cons, List.length_cons, cdmaBrLoop, writeCdmaConfig, writeChar,
        List.append_assoc, readInt32_encodeInt32 he.serviceCategory,
        readInt32_encodeInt32 he.language, readInt32_encodeInt32 (isInt32_byte _), htail,
        ofNat_selected]

theorem writeConfigs_length {α : Type} {write : α → List UInt8} {size : Nat}
    (hwrite : ∀ e, (write e).length = size) (l : List α) :
    (writeConfigs write l).length = 4 + size * l.length := by
  have hflat : (l.flatMap write).length = size * l.length := by
    simp [List.length_flatMap, hwrite, Nat.mul_comm]
  rw [writeConfigs, List.length_append, hflat]
  rfl

/-- A cut of a list of records has fewer bytes than its count asks for. -/
theorem CutFrom.not_accepted {α : Type} {write : α → List UInt8} {size : Nat}
    (hwrite : ∀ e, (write e).length = size) {l : List α} (hlen : IsInt32 l.length)
    {front : List UInt8} (hcut : CutFrom (writeConfigs write l) front) (b : Build) :
    ¬BroadcastAccepts b size front := by
  rintro ⟨hfour, -, hbytes⟩
  have hcount : int32At front = l.length := by
    rw [hcut.int32At_eq hfour, writeConfigs, int32At_encodeInt32 hlen]
  have hlt := hcut.2
  rw [writeConfigs_length hwrite] at hlt
  rw [hcount, ← Int.natCast_mul] at hbytes
  omega

/-- What a dispatch function makes of bytes that stand for `data`.  `fits` tells
that the arrays on the stack have room; a thread without that room is killed before
it calls the vendor. -/
structure GoesThrough (dispatch : Cursor → DispatchResult) (fits : Bool) (ok : Bool)
    (bytes : List UInt8) (data : RequestData) : Prop where
  passed : fits = true → dispatch ⟨bytes, ok⟩ = .onRequest data
  nothingElse : ∀ d, dispatch ⟨bytes, ok⟩ = .onRequest d → d = data
  cutRejected : ∀ front, CutFrom bytes front → (dispatch ⟨front, ok⟩).isRequest = false

/-- The part that the two functions share: a loop that reads back what was written, and
a function that calls the vendor with what its loop has read. -/
theorem configs_goThrough {α : Type} {dispatch : Cursor → DispatchResult} {b : Build} {size : Nat}
    (hsize : size = 20 ∨ size = 12) {write : α → List UInt8}
    (hwrite : ∀ e, (write e).length = size) {loop : Nat → Int → Cursor → List α × Cursor}
    {l : List α} (hlen : IsInt32 l.length)
    (hloop : loop l.length b.junk ⟨l.flatMap write ++ [], true⟩ = (l, ⟨[], true⟩))
    (data : Nat → RequestData)
    (hdispatch : ∀ {c c' c'' : Cursor} {num : Int}, readInt32 b.junk c = (num, c') →
      c'.ok = true → loop num.toNat b.junk c' = (l, c'') → c''.ok = true →
      dispatch c =
        if !arraysFit b size num then .overrun else .onRequest (data (sizeTimes 4 num)))
    (haccepts : ∀ c : Cursor, (dispatch c).isRequest = true ↔ BroadcastAccepts b size c.rest)
    (ok : Bool) :
    GoesThrough dispatch (arraysFit b size l.length) ok (writeConfigs write l)
      (data (4 * l.length)) := by
  have hwhole : dispatch ⟨writeConfigs write l, ok⟩ =
      if !arraysFit b size l.length then .overrun
      else .onRequest (data (sizeTimes 4 l.length)) := by
    rw [List.append_nil, ← Int.toNat_natCast l.length] at hloop
    exact hdispatch (readInt32_encodeInt32 hlen _ _ _) rfl hloop rfl
  have hdatalen : arraysFit b size l.length = true → sizeTimes 4 l.length = 4 * l.length := by
    intro hfits
    obtain ⟨hsmall, -⟩ := (broadcast_fits_iff hsize (by omega)).mp hfits
    rw [sizeTimes_four]
    rcases hsize with rfl | rfl <;> omega
  refine ⟨fun hfits => ?_, fun d hd => ?_, fun front hcut => ?_⟩
  · simp [hwhole, hfits, hdatalen hfits]
  · cases hfits : arraysFit b size l.length with
    | true =>
        rw [hwhole, hfits] at hd
        simp only [Bool.not_true, Bool.false_eq_true, if_false, DispatchResult.onRequest.injEq]
          at hd
        rw [← hd, hdatalen hfits]
    | false =>
        rw [hwhole, hfits] at hd
        cases hd
  · exact Bool.eq_false_iff.mpr ((haccepts ⟨front, ok⟩).not.mpr (hcut.not_accepted hwrite hlen b))

theorem gsm_goesThrough (b : Build) (ok : Bool) {l : List GsmBroadcastSmsConfigInfo}
    (hl : ∀ e ∈ l, IsGsmConfig e) (hlen : IsInt32 l.length) :
    GoesThrough (dispatchGsmBrSmsCnf b) (arraysFit b gsmBroadcastSize l.length) ok
      (writeConfigs writeGsmConfig l) (.gsmBrSmsCnf l (4 * l.length)) := by
  have hsize : gsmBroadcastSize = 20 ∨ gsmBroadcastSize = 12 := Or.inl rfl
  have hwrite : ∀ e, (writeGsmConfig e).length = gsmBroadcastSize := by
    intro e
    simp [writeGsmConfig, writeChar, encodeInt32, gsmBroadcastSize]
  apply configs_goThrough hsize hwrite hlen (gsmBrLoop_written hl b.junk []) (.gsmBrSmsCnf l)
  · intro c c' c'' num hnum hok hloop hok'
    simp only [dispatchGsmBrSmsCnf, hnum, hok, hloop, hok', Bool.not_true, Bool.false_eq_true,
      if_false]
  · exact fun c => dispatchGsmBrSmsCnf_isRequest (Alike.refl c.rest)

theorem cdma_goesThrough (b : Build) (ok : Bool) {l : List CdmaBroadcastSmsConfigInfo}
    (hl : ∀ e ∈ l, IsCdmaConfig e) (hlen : IsInt32 l.length) :
    GoesThrough (dispatchCdmaBrSmsCnf b) (arraysFit b cdmaBroadcastSize l.length) ok
      (writeConfigs writeCdmaConfig l) (.cdmaBrSmsCnf l (4 * l.length)) := by
  have hsize : cdmaBroadcastSize = 20 ∨ cdmaBroadcastSize = 12 := Or.inr rfl
  have hwrite : ∀ e, (writeCdmaConfig e).length = cdmaBroadcastSize := by
    intro e
    simp [writeCdmaConfig, writeChar, encodeInt32, cdmaBroadcastSize]
  apply configs_goThrough hsize hwrite hlen (cdmaBrLoop_written hl b.junk []) (.cdmaBrSmsCnf l)
  · intro c c' c'' num hnum hok hloop hok'
    simp only [dispatchCdmaBrSmsCnf, hnum, hok, hloop, hok', Bool.not_true, Bool.false_eq_true,
      if_false]
  · exact fun c => dispatchCdmaBrSmsCnf_isRequest (Alike.refl c.rest)

/-- **The broadcast configuration codec.**  A list of any length that a `size_t` can
describe reaches the vendor as it was, and no cut of it is passed on. -/
theorem broadcast_codec (b : Build) (ok : Bool) (response : Option Content) :
    (∀ l : List GsmBroadcastSmsConfigInfo, (∀ e ∈ l, IsGsmConfig e) →
      4 * l.length < 4294967296 → PointsTo Content.gsmConfigs response l →
      ∃ r, responseGsmBrSmsCnf response (4 * l.length) = some r ∧ r.ret = 0 ∧
        GoesThrough (dispatchGsmBrSmsCnf b) (arraysFit b gsmBroadcastSize l.length) ok
          r.written (.gsmBrSmsCnf l (4 * l.length))) ∧
    (∀ l : List CdmaBroadcastSmsConfigInfo, (∀ e ∈ l, IsCdmaConfig e) →
      4 * l.length < 4294967296 → PointsTo Content.cdmaConfigs response l →
      ∃ r, responseCdmaBrSmsCnf response (4 * l.length) = some r ∧ r.ret = 0 ∧
        GoesThrough (dispatchCdmaBrSmsCnf b) (arraysFit b cdmaBroadcastSize l.length) ok
          r.written (.cdmaBrSmsCnf l (4 * l.length))) := by
  refine ⟨fun l hl hlen hpoints => ?_, fun l hl hlen hpoints => ?_⟩
  · have hint : IsInt32 l.length := ⟨by omega, by omega⟩
    exact ⟨_, responseConfigs_written hpoints, rfl, gsm_goesThrough b ok hl hint⟩
  · have hint : IsInt32 l.length := ⟨by omega, by omega⟩
    exact ⟨_, responseConfigs_written hpoints, rfl, cdma_goesThrough b ok hl hint⟩

/-- Memory with two configurations of each kind. -/
def twoConfigs : Content :=
  { zeroContent with
    gsmConfigs := fun i => if i = 0 then ⟨0, 999, 0, 255, 1⟩ else ⟨4352, 4356, -1, 15, 200⟩
    cdmaConfigs := fun i => if i = 0 then ⟨4096, 1, 1⟩ else ⟨4097, -7, 0⟩ }

theorem broadcast_codec_two :
    (∃ r, responseGsmBrSmsCnf (some twoConfigs) 8 = some r ∧
      dispatchGsmBrSmsCnf someBuild ⟨r.written, true⟩ =
        .onRequest (.gsmBrSmsCnf [⟨0, 999, 0, 255, 1⟩, ⟨4352, 4356, -1, 15, 200⟩] 8)) ∧
    (∃ r, responseCdmaBrSmsCnf (some twoConfigs) 8 = some r ∧
      dispatchCdmaBrSmsCnf someBuild ⟨r.written, true⟩ =
        .onRequest (.cdmaBrSmsCnf [⟨4096, 1, 1⟩, ⟨4097, -7, 0⟩] 8)) := by
  have hcodec := broadcast_codec someBuild true (some twoConfigs)
  constructor
  · have hl : ∀ e ∈ [(⟨0, 999, 0, 255, 1⟩ : GsmBroadcastSmsConfigInfo),
        ⟨4352, 4356, -1, 15, 200⟩], IsGsmConfig e := by
      intro e he
      simp only [List.mem_cons, List.not_mem_nil, or_false] at he
      rcases he with rfl | rfl <;> constructor <;> decide
    obtain ⟨r, hr, -, hthrough⟩ := hcodec.1 _ hl (by decide) rfl
    exact ⟨r, hr, hthrough.passed (by decide)⟩
  · have hl : ∀ e ∈ [(⟨4096, 1, 1⟩ : CdmaBroadcastSmsConfigInfo), ⟨4097, -7, 0⟩],
        IsCdmaConfig e := by
      intro e he
      simp only [List.mem_cons, List.not_mem_nil, or_false] at he
      rcases he with rfl | rfl <;> constructor <;> decide
    obtain ⟨r, hr, -, hthrough⟩ := hcodec.2 _ hl (by decide) rfl
    exact ⟨r, hr, hthrough.passed (by decide)⟩

end Libril.Responses
