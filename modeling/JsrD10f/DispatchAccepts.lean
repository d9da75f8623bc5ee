import JsrD10f.Dispatch

/-!
# Which payloads reach the vendor

For every dispatch function, the condition on the payload under which it calls
`onRequest`.  All of them ask for enough bytes; none looks at a value except
for the counts and the format of an IMS message.  `Accepts` is stated on the
bytes alone, and `call_isRequest` says that it is exact.
-/

namespace Libril

open Parcel

def DispatchResult.isRequest : DispatchResult → Bool
  | .onRequest _ => true
  | _ => false

@[simp] theorem isRequest_onRequest (data : RequestData) :
    (DispatchResult.onRequest data).isRequest = true := rfl

@[simp] theorem isRequest_invalid : DispatchResult.invalidCommandBlock.isRequest = false := rfl

@[simp] theorem isRequest_unknownFormat : DispatchResult.unknownFormat.isRequest = false := rfl

@[simp] theorem isRequest_overrun : DispatchResult.overrun.isRequest = false := rfl

/-- The check of a status. -/
@[simp] theorem isRequest_unless (ok : Bool) (r : DispatchResult) :
    (if !ok then DispatchResult.invalidCommandBlock else r).isRequest = (ok && r.isRequest) := by
  cases ok <;> rfl

/-- The array of string pointers is null, empty, or within its memory. -/
def StringsFit (b : Build) (countStrings : Int) : Prop :=
  countStrings = 0 ∨ countStrings = -1 ∨
    (sizeTimes 4 countStrings ≤ b.stack ∧ 4 * countStrings ≤ sizeTimes 4 countStrings)

def StringsAccept (b : Build) (l : List UInt8) : Prop :=
  4 ≤ l.length ∧ StringsFit b (int32At l)

/-- Behind the address digits of a CDMA message. -/
def afterAddress (address : UInt8 → Nat) (l : List UInt8) : List UInt8 :=
  l.drop (32 + 4 * address ((l.drop 28).headD 0))

/-- Behind the digits of the sub-address, which follow three words. -/
def afterSubaddress (subaddress : UInt8 → Nat) (l : List UInt8) : List UInt8 :=
  l.drop (12 + 4 * subaddress ((l.drop 8).headD 0))

/-- The length of the bearer data and the data itself are there. -/
def BearerComplete (bearer : Int → Nat) (l : List UInt8) : Prop :=
  4 + 4 * bearer (int32At l) ≤ l.length

def CdmaSmsComplete (l : List UInt8) : Prop :=
  BearerComplete (fun n => (min n cdmaSmsBearerDataMax).toNat)
    (afterSubaddress (fun n => min n.toNat cdmaSmsSubaddressMax)
      (afterAddress (fun n => min n.toNat cdmaSmsAddressMax) l))

/-- A broadcast configuration has its arrays and all its entries. -/
def BroadcastAccepts (b : Build) (size : Nat) (l : List UInt8) : Prop :=
  4 ≤ l.length ∧ arraysFit b size (int32At l) = true ∧ 4 + size * int32At l ≤ l.length

/-- The payloads `l` that a dispatch function passes on. -/
def Dispatch.Accepts (b : Build) (state : RadioState) (l : List UInt8) : Dispatch → Prop
  | .void => True
  | .string => True
  | .strings => StringsAccept b l
  | .ints =>
      4 ≤ l.length ∧ int32At l ≠ 0 ∧ sizeTimes 4 (int32At l) ≤ b.stack ∧
        4 * int32At l ≤ sizeTimes 4 (int32At l) ∧ 4 + 4 * int32At l ≤ l.length
  | .smsWrite => 4 ≤ l.length ∧ (takeString (l.drop 4)).1.isSome
  | .dial =>
      (takeString l).1.isSome ∧ 4 ≤ (skipString l).length ∧
        (b.version < 3 ∨ 8 ≤ (skipString l).length ∧
          (int32At ((skipString l).drop 4) = 0 ∨ 20 ≤ (skipString l).length))
  | .simIo transmit =>
      12 ≤ (skipString (l.drop (if transmit && !b.variantLegacy then 12 else 8))).length
  | .callForward => 4 ≤ (skipString (l.drop 16)).length
  | .raw => 4 ≤ l.length
  | .cdmaSms => CdmaSmsComplete l
  | .imsSms =>
      12 ≤ l.length ∧ (int32At l = 1 ∧ StringsAccept b (l.drop 12) ∨
        int32At l = 2 ∧ CdmaSmsComplete (l.drop 12))
  | .cdmaSmsAck => 8 ≤ l.length
  | .gsmBrSmsCnf => BroadcastAccepts b gsmBroadcastSize l
  | .cdmaBrSmsCnf => BroadcastAccepts b cdmaBroadcastSize l
  | .rilCdmaSmsWriteArgs => 1360 ≤ l.length
  | .dataCall =>
      if b.version < 4 ∧ 6 < int32At l then 24 ≤ b.stack else StringsAccept b l
  | .voiceRadioTech => state = .on
  | .cdmaSubscriptionSource => state = .on
  | .setInitialAttachApn => 4 ≤ (skipString (skipString l)).length
  | .uiccSubscripton => 16 ≤ l.length

theorem readStrings_isSome {b : Build} {countStrings : Int} {c : Cursor} :
    (readStrings b countStrings c).isSome ↔ StringsFit b countStrings := by
  unfold readStrings StringsFit
  by_cases h0 : countStrings = 0
  · simp [h0]
  by_cases h1 : countStrings = -1
  · simp [h1]
  simp only [h0, h1, if_false, false_or]
  split
  · next hfit => simpa using hfit
  · next hfit => simpa using hfit

/-- The count and the array of strings, in both functions that read them. -/
theorem readCount_iff {b : Build} {l : List UInt8} {c : Cursor} (h : Alike c.rest l)
    {v : Int} {c' : Cursor} (hread : readInt32 b.junk c = (v, c')) :
    (c'.ok = true ∧ (readStrings b v c').isSome) ↔ StringsAccept b l := by
  obtain ⟨-, hok, hv⟩ := readInt32_spec h hread
  rw [hok, readStrings_isSome, StringsAccept]
  constructor
  · intro hacc
    rw [← hv hacc.1]
    exact hacc
  · intro hacc
    rw [hv hacc.1]
    exact hacc

theorem dispatchStrings_isRequest {b : Build} {c : Cursor} {l : List UInt8}
    (h : Alike c.rest l) :
    (dispatchStrings b c).isRequest = true ↔ StringsAccept b l := by
  unfold dispatchStrings
  rcases hread : readInt32 b.junk c with ⟨v, c'⟩
  rw [← readCount_iff h hread, isRequest_unless, Bool.and_eq_true]
  cases readStrings b v c' <;> simp

theorem dispatchImsGsmSms_isRequest {b : Build} {c : Cursor} {l : List UInt8}
    (h : Alike c.rest l) (retry : UInt8) (messageRef : Int) :
    (dispatchImsGsmSms b retry messageRef c).isRequest = true ↔ StringsAccept b l := by
  unfold dispatchImsGsmSms
  rcases hread : readInt32 b.junk c with ⟨v, c'⟩
  rw [← readCount_iff h hread, isRequest_unless, Bool.and_eq_true]
  cases readStrings b v c' <;> simp

/-- The loop of `dispatchInts` ends well when all numbers are there and inside
the array, and otherwise it does not call the vendor. -/
theorem intsLoop_spec (b : Build) (datalen : Nat) {n i : Nat} {c : Cursor} {l : List UInt8}
    (h : Alike c.rest l) :
    ((n = 0 ∨ (4 * (i + n) ≤ datalen ∧ 4 * n ≤ l.length)) ∧
        ∃ r, intsLoop b datalen n i c = .ok r) ∨
      (¬ (n = 0 ∨ (4 * (i + n) ≤ datalen ∧ 4 * n ≤ l.length)) ∧
        ∃ e, e.isRequest = false ∧ intsLoop b datalen n i c = .error e) := by
  induction n generalizing i c l with
  | zero => exact Or.inl ⟨Or.inl rfl, [], rfl⟩
  | succ n ih =>
      unfold intsLoop
      rcases hread : readInt32 b.junk c with ⟨v, c'⟩
      obtain ⟨hrest, hok, -⟩ := readInt32_spec h hread
      have hdrop := List.length_drop (l := l) (i := 4)
      simp only
      by_cases hlen : datalen < 4 * (i + 1)
      · rw [if_pos hlen]
        exact Or.inr ⟨by omega, .overrun, rfl, rfl⟩
      rw [if_neg hlen]
      by_cases hl : 4 ≤ l.length
      · rw [hok.mpr hl]
        rcases ih (i := i + 1) hrest with ⟨hn, r, hr⟩ | ⟨hn, e, he, hr⟩
        · rw [hr]
          exact Or.inl ⟨by omega, v :: r, rfl⟩
        · rw [hr]
          exact Or.inr ⟨by omega, e, he, rfl⟩
      · rw [Bool.eq_false_iff.mpr (hok.not.mpr hl)]
        exact Or.inr ⟨by omega, .invalidCommandBlock, rfl, rfl⟩

theorem dispatchInts_isRequest {b : Build} {c : Cursor} {l : List UInt8} (h : Alike c.rest l) :
    (dispatchInts b c).isRequest = true ↔
      4 ≤ l.length ∧ int32At l ≠ 0 ∧ sizeTimes 4 (int32At l) ≤ b.stack ∧
        4 * int32At l ≤ sizeTimes 4 (int32At l) ∧ 4 + 4 * int32At l ≤ l.length := by
  unfold dispatchInts
  rcases hread : readInt32 b.junk c with ⟨count, c'⟩
  obtain ⟨hrest, hok, hcount⟩ := readInt32_spec h hread
  have hdrop := List.length_drop (l := l) (i := 4)
  simp only
  by_cases hl : 4 ≤ l.length
  · rw [hok.mpr hl, ← hcount hl]
    by_cases hzero : count = 0
    · simp [hzero]
    by_cases hstack : b.stack < sizeTimes 4 count
    · have hno : ¬sizeTimes 4 count ≤ b.stack := by omega
      simp [hzero, hstack, hno]
    simp only [Bool.not_true, Bool.false_or, beq_iff_eq, hzero, if_false, hstack]
    rcases intsLoop_spec b (sizeTimes 4 count) (n := count.toNat) (i := 0) hrest with
      ⟨hn, r, hr⟩ | ⟨hn, e, he, hr⟩
    · rw [hr]
      simp only [isRequest_onRequest, true_iff]
      omega
    · rw [hr]
      simp only [he, Bool.false_eq_true, false_iff]
      omega
  · rw [Bool.eq_false_iff.mpr (hok.not.mpr hl)]
    simp [hl]

/-- Two reads, the second of them behind the first. -/
theorem drop_length_iff {l : List UInt8} (i : Nat) {n : Nat} (hn : 0 < n) :
    n ≤ (l.drop i).length ↔ i + n ≤ l.length := by
  rw [List.length_drop]
  omega

theorem dispatchSmsWrite_isRequest {b : Build} {c : Cursor} {l : List UInt8}
    (h : Alike c.rest l) :
    (dispatchSmsWrite b c).isRequest = true ↔
      4 ≤ l.length ∧ (takeString (l.drop 4)).1.isSome := by
  rcases hr₁ : readInt32 b.junk c with ⟨status, c₁⟩
  rcases hr₂ : readString c₁ with ⟨pdu, c₂⟩
  obtain ⟨h₁, hok₁, -⟩ := readInt32_spec h hr₁
  obtain ⟨-, hok₂, hpdu⟩ := readString_spec h₁ hr₂
  simp only [dispatchSmsWrite, hr₁, hr₂, hok₂]
  rw [← hpdu, ← hok₁]
  cases c₁.ok <;> cases pdu <;> simp

theorem readUusInfo_isSome (t junk : Int) {c : Cursor} {l : List UInt8} (h : Alike c.rest l) :
    (readUusInfo t c junk).isSome ↔ 12 ≤ l.length := by
  rcases hr₁ : readInt32 t c with ⟨uusType, c₁⟩
  rcases hr₂ : readInt32 uusType c₁ with ⟨uusDcs, c₂⟩
  rcases hr₃ : readInt32 junk c₂ with ⟨len, c₃⟩
  obtain ⟨h₁, -, -⟩ := readInt32_spec h hr₁
  obtain ⟨h₂, -, -⟩ := readInt32_spec h₁ hr₂
  obtain ⟨-, hok, -⟩ := readInt32_spec h₂ hr₃
  rw [List.drop_drop, drop_length_iff _ (by omega)] at hok
  simp only [readUusInfo, hr₁, hr₂, hr₃]
  rw [← hok]
  cases c₃.ok with
  | false => simp
  | true =>
      simp only [Bool.not_true, Bool.false_eq_true, if_false, iff_true]
      split <;> rfl

theorem dispatchDial_isRequest {b : Build} {c : Cursor} {l : List UInt8} (h : Alike c.rest l) :
    (dispatchDial b c).isRequest = true ↔
      (takeString l).1.isSome ∧ 4 ≤ (skipString l).length ∧
        (b.version < 3 ∨ 8 ≤ (skipString l).length ∧
          (int32At ((skipString l).drop 4) = 0 ∨ 20 ≤ (skipString l).length)) := by
  rcases hr₁ : readString c with ⟨address, c₁⟩
  rcases hr₂ : readInt32 b.junk c₁ with ⟨clir, c₂⟩
  rcases hr₃ : readInt32 b.junk c₂ with ⟨uusPresent, c₃⟩
  obtain ⟨h₁, -, haddress⟩ := readString_spec h hr₁
  obtain ⟨h₂, hok₂, -⟩ := readInt32_spec h₁ hr₂
  obtain ⟨h₃, hok₃, huus⟩ := readInt32_spec h₂ hr₃
  have hinfo := readUusInfo_isSome clir b.junk h₃
  rw [drop_length_iff _ (by omega)] at hok₃ huus
  rw [List.drop_drop, drop_length_iff _ (by omega)] at hinfo
  simp only [dispatchDial, hr₁, hr₂, hr₃]
  rw [← haddress, ← hok₂, ← hok₃]
  cases address with
  | none => simp
  | some text =>
      cases hb₂ : c₂.ok with
      | false => simp
      | true =>
          by_cases hv : b.version < 3
          · simp [hv]
          simp only [hv, Bool.not_true, Option.isNone_some, Bool.or_false, Bool.false_eq_true,
            if_false, Option.isSome_some, true_and, false_or]
          rw [isRequest_unless, Bool.and_eq_true]
          apply and_congr_right
          intro hb₃
          rw [← huus (hok₃.mp hb₃)]
          by_cases hz : uusPresent = 0
          · simp [hz]
          · simp only [hz, if_false, false_or]
            rw [← hinfo]
            cases readUusInfo clir c₃ b.junk <;> simp

theorem dispatchSimIo_isRequest {b : Build} {transmit : Bool} {c : Cursor} {l : List UInt8}
    (h : Alike c.rest l) :
    (dispatchSimIo b transmit c).isRequest = true ↔
      12 ≤ (skipString (l.drop (if transmit && !b.variantLegacy then 12 else 8))).length := by
  rcases hr : readInt32 b.junk c with ⟨t', c'⟩
  obtain ⟨cla, t, c₀, hcla, h₀⟩ : ∃ cla t c₀,
      (if transmit && !b.variantLegacy then (t', t', c') else (0, b.junk, c)) = (cla, t, c₀) ∧
      Alike c₀.rest (l.drop (if transmit && !b.variantLegacy then 4 else 0)) := by
    by_cases hcla : (transmit && !b.variantLegacy) = true
    · rw [if_pos hcla, if_pos hcla]
      exact ⟨t', t', c', rfl, (readInt32_spec h hr).1⟩
    · rw [if_neg hcla, if_neg hcla]
      exact ⟨0, b.junk, c, rfl, h⟩
  rcases hr₁ : readInt32 t c₀ with ⟨command, c₁⟩
  rcases hr₂ : readInt32 command c₁ with ⟨fileid, c₂⟩
  rcases hr₃ : readString c₂ with ⟨path, c₃⟩
  rcases hr₄ : readInt32 fileid c₃ with ⟨p1, c₄⟩
  rcases hr₅ : readInt32 p1 c₄ with ⟨p2, c₅⟩
  rcases hr₆ : readInt32 p2 c₅ with ⟨p3, c₆⟩
  rcases hr₇ : readString c₆ with ⟨data, c₇⟩
  rcases hr₈ : readString c₇ with ⟨pin2, c₈⟩
  rcases hr₉ : readString c₈ with ⟨aidPtr, c₉⟩
  obtain ⟨h₁, -, -⟩ := readInt32_spec h₀ hr₁
  obtain ⟨h₂, -, -⟩ := readInt32_spec h₁ hr₂
  obtain ⟨h₃, -, -⟩ := readString_spec h₂ hr₃
  obtain ⟨h₄, -, -⟩ := readInt32_spec h₃ hr₄
  obtain ⟨h₅, -, -⟩ := readInt32_spec h₄ hr₅
  obtain ⟨h₆, hok₆, -⟩ := readInt32_spec h₅ hr₆
  obtain ⟨h₇, hok₇, -⟩ := readString_spec h₆ hr₇
  obtain ⟨h₈, hok₈, -⟩ := readString_spec h₇ hr₈
  obtain ⟨-, hok₉, -⟩ := readString_spec h₈ hr₉
  simp only [dispatchSimIo, hr, hcla, hr₁, hr₂, hr₃, hr₄, hr₅, hr₆, hr₇, hr₈, hr₉]
  rw [isRequest_unless, isRequest_onRequest, Bool.and_true, hok₉, hok₈, hok₇, hok₆,
    List.drop_drop, drop_length_iff _ (by omega)]
  have hdrop : ((l.drop (if transmit && !b.variantLegacy then 4 else 0)).drop 4).drop 4 =
      l.drop (if transmit && !b.variantLegacy then 12 else 8) := by
    rw [List.drop_drop, List.drop_drop]
    congr 1
    split <;> rfl
  rw [hdrop]

theorem dispatchCallForward_isRequest {b : Build} {c : Cursor} {l : List UInt8}
    (h : Alike c.rest l) :
    (dispatchCallForward b c).isRequest = true ↔ 4 ≤ (skipString (l.drop 16)).length := by
  rcases hr₁ : readInt32 b.junk c with ⟨status, c₁⟩
  rcases hr₂ : readInt32 status c₁ with ⟨reason, c₂⟩
  rcases hr₃ : readInt32 reason c₂ with ⟨serviceClass, c₃⟩
  rcases hr₄ : readInt32 serviceClass c₃ with ⟨toa, c₄⟩
  rcases hr₅ : readString c₄ with ⟨number, c₅⟩
  rcases hr₆ : readInt32 toa c₅ with ⟨timeSeconds, c₆⟩
  obtain ⟨h₁, -, -⟩ := readInt32_spec h hr₁
  obtain ⟨h₂, -, -⟩ := readInt32_spec h₁ hr₂
  obtain ⟨h₃, -, -⟩ := readInt32_spec h₂ hr₃
  obtain ⟨h₄, -, -⟩ := readInt32_spec h₃ hr₄
  obtain ⟨h₅, -, -⟩ := readString_spec h₄ hr₅
  obtain ⟨-, hok, -⟩ := readInt32_spec h₅ hr₆
  simp only [List.drop_drop] at hok
  simp only [dispatchCallForward, hr₁, hr₂, hr₃, hr₄, hr₅, hr₆]
  rw [isRequest_unless, isRequest_onRequest, Bool.and_true, hok]

theorem dispatchRaw_isRequest {b : Build} {c : Cursor} {l : List UInt8} (h : Alike c.rest l) :
    (dispatchRaw b c).isRequest = true ↔ 4 ≤ l.length := by
  rcases hr : readInt32 b.junk c with ⟨len, c'⟩
  obtain ⟨-, hok, -⟩ := readInt32_spec h hr
  simp only [dispatchRaw, hr]
  rw [isRequest_unless, isRequest_onRequest, Bool.and_true, hok]

/-- A loop of byte reads. -/
theorem bytesLoop_spec {n : Nat} {ut : UInt8} {c : Cursor} {l : List UInt8}
    (h : Alike c.rest l) {bytes : List UInt8} {ut' : UInt8} {c' : Cursor}
    (hread : bytesLoop n ut c = (bytes, ut', c')) :
    Alike c'.rest (l.drop (4 * n)) ∧
      (c'.ok = true ↔ (n = 0 ∧ c.ok = true) ∨ (0 < n ∧ 4 * n ≤ l.length)) := by
  induction n generalizing ut c l bytes ut' c' with
  | zero =>
      cases hread
      exact ⟨h, by simp⟩
  | succ n ih =>
      rcases hr₁ : readByte ut c with ⟨v, c₁⟩
      rcases hr₂ : bytesLoop n v c₁ with ⟨bytes₂, ut₂, c₂⟩
      obtain ⟨h₁, hok₁, -⟩ := readByte_spec h hr₁
      obtain ⟨h₂, hok₂⟩ := ih h₁ hr₂
      simp only [bytesLoop, hr₁, hr₂] at hread
      cases hread
      rw [List.drop_drop] at h₂
      refine ⟨by rwa [Nat.mul_succ, Nat.add_comm], ?_⟩
      rw [hok₂, hok₁, List.length_drop]
      omega

/-- Digits whose number stands in the byte in front of them.  If that byte is
missing, so is everything behind it. -/
theorem digits_spec {count : UInt8 → Nat} {old : UInt8} {c : Cursor} {l : List UInt8}
    (h : Alike c.rest l) {n ut : UInt8} {c₁ c₂ : Cursor} {digits : List UInt8}
    (hbyte : readByte old c = (n, c₁))
    (hdigits : bytesLoop (count n) n c₁ = (digits, ut, c₂)) :
    Alike c₂.rest (l.drop (4 + 4 * count (l.headD 0))) := by
  obtain ⟨h₁, -, hn⟩ := readByte_spec h hbyte
  obtain ⟨h₂, -⟩ := bytesLoop_spec h₁ hdigits
  rw [List.drop_drop] at h₂
  by_cases hl : 4 ≤ l.length
  · rw [← hn hl]
    exact h₂
  · have hnil : ∀ k, l.drop (4 + k) = [] := fun k => List.drop_eq_nil_of_le (by omega)
    rw [hnil] at h₂ ⊢
    exact h₂

/-- The bearer data, whose length stands in front of it. -/
theorem bearer_spec {bearer : Int → Nat} {old : Int} {c : Cursor} {l : List UInt8}
    (h : Alike c.rest l) {n : Int} {ut ut' : UInt8} {c₁ c₂ : Cursor} {data : List UInt8}
    (hlen : readInt32 old c = (n, c₁)) (hdata : bytesLoop (bearer n) ut c₁ = (data, ut', c₂)) :
    c₂.ok = true ↔ BearerComplete bearer l := by
  obtain ⟨h₁, hok₁, hn⟩ := readInt32_spec h hlen
  obtain ⟨-, hok₂⟩ := bytesLoop_spec h₁ hdata
  rw [hok₂, hok₁, List.length_drop, BearerComplete]
  by_cases hl : 4 ≤ l.length
  · rw [hn hl]
    omega
  · omega

theorem readCdmaMessage_ok (b : Build) (address subaddress : UInt8 → Nat) (bearer : Int → Nat)
    (t : Int) {c : Cursor} {l : List UInt8} (h : Alike c.rest l) :
    (readCdmaMessage b address subaddress bearer t c).2.ok = true ↔
      BearerComplete bearer (afterSubaddress subaddress (afterAddress address l)) := by
  rcases hr₁ : readInt32 t c with ⟨uTeleserviceID, c₁⟩
  rcases hr₂ : readByte b.junkByte c₁ with ⟨bIsServicePresent, c₂⟩
  rcases hr₃ : readInt32 uTeleserviceID c₂ with ⟨uServicecategory, c₃⟩
  rcases hr₄ : readInt32 uServicecategory c₃ with ⟨digitMode, c₄⟩
  rcases hr₅ : readInt32 digitMode c₄ with ⟨numberMode, c₅⟩
  rcases hr₆ : readInt32 numberMode c₅ with ⟨numberType, c₆⟩
  rcases hr₇ : readInt32 numberType c₆ with ⟨numberPlan, c₇⟩
  rcases hr₈ : readByte bIsServicePresent c₇ with ⟨numberOfDigits, c₈⟩
  rcases hr₉ : bytesLoop (address numberOfDigits) numberOfDigits c₈ with ⟨digits, ut, c₉⟩
  rcases hs₁ : readInt32 numberPlan c₉ with ⟨subaddressType, d₁⟩
  rcases hs₂ : readByte ut d₁ with ⟨subOdd, d₂⟩
  rcases hs₃ : readByte subOdd d₂ with ⟨subNumberOfDigits, d₃⟩
  rcases hs₄ : bytesLoop (subaddress subNumberOfDigits) subNumberOfDigits d₃ with
    ⟨subDigits, ut', d₄⟩
  rcases hs₅ : readInt32 subaddressType d₄ with ⟨uBearerDataLen, d₅⟩
  rcases hs₆ : bytesLoop (bearer uBearerDataLen) ut' d₅ with ⟨aBearerData, ut'', d₆⟩
  obtain ⟨h₁, -, -⟩ := readInt32_spec h hr₁
  obtain ⟨h₂, -, -⟩ := readByte_spec h₁ hr₂
  obtain ⟨h₃, -, -⟩ := readInt32_spec h₂ hr₃
  obtain ⟨h₄, -, -⟩ := readInt32_spec h₃ hr₄
  obtain ⟨h₅, -, -⟩ := readInt32_spec h₄ hr₅
  obtain ⟨h₆, -, -⟩ := readInt32_spec h₅ hr₆
  obtain ⟨h₇, -, -⟩ := readInt32_spec h₆ hr₇
  have h₉ := digits_spec h₇ hr₈ hr₉
  simp only [List.drop_drop] at h₉
  have haddress : Alike c₉.rest (afterAddress address l) := by
    simpa only [afterAddress, ← Nat.add_assoc] using h₉
  obtain ⟨k₁, -, -⟩ := readInt32_spec haddress hs₁
  obtain ⟨k₂, -, -⟩ := readByte_spec k₁ hs₂
  have k₄ := digits_spec k₂ hs₃ hs₄
  simp only [List.drop_drop] at k₄
  have hsubaddress : Alike d₄.rest (afterSubaddress subaddress (afterAddress address l)) := by
    simpa only [afterSubaddress, ← Nat.add_assoc] using k₄
  simp only [readCdmaMessage, hr₁, hr₂, hr₃, hr₄, hr₅, hr₆, hr₇, hr₈, hr₉, hs₁, hs₂, hs₃, hs₄,
    hs₅, hs₆]
  exact bearer_spec hsubaddress hs₅ hs₆

theorem constructCdmaSms_isSome {b : Build} {c : Cursor} {l : List UInt8}
    (h : Alike c.rest l) : (constructCdmaSms b c).isSome ↔ CdmaSmsComplete l := by
  unfold constructCdmaSms CdmaSmsComplete
  rw [← readCdmaMessage_ok b _ _ _ b.junk h]
  simp only
  cases (readCdmaMessage b (fun n => min n.toNat cdmaSmsAddressMax)
    (fun n => min n.toNat cdmaSmsSubaddressMax)
    (fun n => (min n cdmaSmsBearerDataMax).toNat) b.junk c).2.ok <;> simp

theorem dispatchCdmaSms_isRequest {b : Build} {c : Cursor} {l : List UInt8}
    (h : Alike c.rest l) : (dispatchCdmaSms b c).isRequest = true ↔ CdmaSmsComplete l := by
  have hiff := constructCdmaSms_isSome (b := b) h
  unfold dispatchCdmaSms
  generalize constructCdmaSms b c = m at hiff ⊢
  rw [← hiff]
  cases m <;> simp

theorem dispatchImsCdmaSms_isRequest {b : Build} {c : Cursor} {l : List UInt8}
    (h : Alike c.rest l) (retry : UInt8) (messageRef : Int) :
    (dispatchImsCdmaSms b retry messageRef c).isRequest = true ↔ CdmaSmsComplete l := by
  have hiff := constructCdmaSms_isSome (b := b) h
  unfold dispatchImsCdmaSms
  generalize constructCdmaSms b c = m at hiff ⊢
  rw [← hiff]
  cases m <;> simp

theorem dispatchImsSms_isRequest {b : Build} {c : Cursor} {l : List UInt8}
    (h : Alike c.rest l) :
    (dispatchImsSms b c).isRequest = true ↔
      12 ≤ l.length ∧ (int32At l = 1 ∧ StringsAccept b (l.drop 12) ∨
        int32At l = 2 ∧ CdmaSmsComplete (l.drop 12)) := by
  rcases hr₁ : readInt32 b.junk c with ⟨format, c₁⟩
  rcases hr₂ : readByte b.junkByte c₁ with ⟨retry, c₂⟩
  rcases hr₃ : readInt32 b.junk c₂ with ⟨messageRef, c₃⟩
  obtain ⟨h₁, hok₁, hformat⟩ := readInt32_spec h hr₁
  obtain ⟨h₂, hok₂, -⟩ := readByte_spec h₁ hr₂
  obtain ⟨h₃, hok₃, -⟩ := readInt32_spec h₂ hr₃
  simp only [List.drop_drop] at h₃ hok₃
  rw [drop_length_iff _ (by omega)] at hok₂ hok₃
  have hgsm := dispatchImsGsmSms_isRequest (b := b) h₃ retry messageRef
  have hcdma := dispatchImsCdmaSms_isRequest (b := b) h₃ retry messageRef
  simp only [dispatchImsSms, hr₁, hr₂, hr₃, isRequest_unless, Bool.and_eq_true, hok₁, hok₂, hok₃]
  by_cases hl : 12 ≤ l.length
  · rw [← hformat (by omega), ← hgsm, ← hcdma]
    have h4 : 4 ≤ l.length := by omega
    have h8 : 4 + 4 ≤ l.length := by omega
    have h12 : 4 + 4 + 4 ≤ l.length := by omega
    by_cases hg : format = 1
    · simp [hg, h4, h8, h12]
    · by_cases hc : format = 2
      · simp [hc, h4, h8, h12]
      · simp [hg, hc]
  · constructor
    · intro hacc
      omega
    · intro hacc
      exact absurd hacc.1 hl

theorem dispatchCdmaSmsAck_isRequest {b : Build} {c : Cursor} {l : List UInt8}
    (h : Alike c.rest l) : (dispatchCdmaSmsAck b c).isRequest = true ↔ 8 ≤ l.length := by
  rcases hr₁ : readInt32 b.junk c with ⟨uErrorClass, c₁⟩
  rcases hr₂ : readInt32 uErrorClass c₁ with ⟨uSMSCauseCode, c₂⟩
  obtain ⟨h₁, -, -⟩ := readInt32_spec h hr₁
  obtain ⟨-, hok, -⟩ := readInt32_spec h₁ hr₂
  rw [drop_length_iff _ (by omega)] at hok
  simp only [dispatchCdmaSmsAck, hr₁, hr₂]
  rw [isRequest_unless, isRequest_onRequest, Bool.and_true, hok]

/-- The loop over the GSM entries, five numbers each. -/
theorem gsmBrLoop_ok {n : Nat} {t : Int} {c : Cursor} {l : List UInt8} (h : Alike c.rest l) :
    (gsmBrLoop n t c).2.ok = true ↔
      (n = 0 ∧ c.ok = true) ∨ (0 < n ∧ 20 * n ≤ l.length) := by
  induction n generalizing t c l with
  | zero => simp [gsmBrLoop]
  | succ n ih =>
      rcases hr₁ : readInt32 t c with ⟨fromServiceId, c₁⟩
      rcases hr₂ : readInt32 fromServiceId c₁ with ⟨toServiceId, c₂⟩
      rcases hr₃ : readInt32 toServiceId c₂ with ⟨fromCodeScheme, c₃⟩
      rcases hr₄ : readInt32 fromCodeScheme c₃ with ⟨toCodeScheme, c₄⟩
      rcases hr₅ : readInt32 toCodeScheme c₄ with ⟨selected, c₅⟩
      obtain ⟨h₁, -, -⟩ := readInt32_spec h hr₁
      obtain ⟨h₂, -, -⟩ := readInt32_spec h₁ hr₂
      obtain ⟨h₃, -, -⟩ := readInt32_spec h₂ hr₃
      obtain ⟨h₄, -, -⟩ := readInt32_spec h₃ hr₄
      obtain ⟨h₅, hok, -⟩ := readInt32_spec h₄ hr₅
      simp only [List.drop_drop] at h₅ hok
      simp only [gsmBrLoop, hr₁, hr₂, hr₃, hr₄, hr₅]
      rw [ih h₅, hok, List.length_drop, List.length_drop]
      omega

/-- The loop over the CDMA entries, three numbers each. -/
theorem cdmaBrLoop_ok {n : Nat} {t : Int} {c : Cursor} {l : List UInt8} (h : Alike c.rest l) :
    (cdmaBrLoop n t c).2.ok = true ↔
      (n = 0 ∧ c.ok = true) ∨ (0 < n ∧ 12 * n ≤ l.length) := by
  induction n generalizing t c l with
  | zero => simp [cdmaBrLoop]
  | succ n ih =>
      rcases hr₁ : readInt32 t c with ⟨serviceCategory, c₁⟩
      rcases hr₂ : readInt32 serviceCategory c₁ with ⟨language, c₂⟩
      rcases hr₃ : readInt32 language c₂ with ⟨selected, c₃⟩
      obtain ⟨h₁, -, -⟩ := readInt32_spec h hr₁
      obtain ⟨h₂, -, -⟩ := readInt32_spec h₁ hr₂
      obtain ⟨h₃, hok, -⟩ := readInt32_spec h₂ hr₃
      simp only [List.drop_drop] at h₃ hok
      simp only [cdmaBrLoop, hr₁, hr₂, hr₃]
      rw [ih h₃, hok, List.length_drop, List.length_drop]
      omega

/-- Both broadcast functions: a number, two arrays, and a loop that reads
`size` bytes for each entry. -/
theorem broadcast_iff (b : Build) {size : Nat} (hsize : 0 < size) {num : Int} {ok ok' : Bool}
    {l : List UInt8} (hok : ok = true ↔ 4 ≤ l.length) (hnum : 4 ≤ l.length → num = int32At l)
    (hloop : ok' = true ↔ (num.toNat = 0 ∧ ok = true) ∨
      (0 < num.toNat ∧ size * num.toNat ≤ (l.drop 4).length)) :
    (ok = true ∧ arraysFit b size num = true ∧ ok' = true) ↔ BroadcastAccepts b size l := by
  unfold BroadcastAccepts
  rw [hok, hloop, hok, List.length_drop]
  by_cases hl : 4 ≤ l.length
  · rw [← hnum hl]
    apply and_congr_right
    intro _
    apply and_congr_right
    intro _
    by_cases hn : num ≤ 0
    · have htoNat : num.toNat = 0 := by omega
      have hle : (size : Int) * num ≤ 0 := Int.mul_nonpos_of_nonneg_of_nonpos (by omega) hn
      omega
    · have hcast : (size : Int) * num = ((size * num.toNat : Nat) : Int) := by
        rw [Int.natCast_mul, Int.toNat_of_nonneg (by omega)]
      rw [hcast]
      omega
  · simp [hl]

theorem dispatchGsmBrSmsCnf_isRequest {b : Build} {c : Cursor} {l : List UInt8}
    (h : Alike c.rest l) :
    (dispatchGsmBrSmsCnf b c).isRequest = true ↔ BroadcastAccepts b gsmBroadcastSize l := by
  rcases hr : readInt32 b.junk c with ⟨num, c'⟩
  obtain ⟨h', hok, hnum⟩ := readInt32_spec h hr
  have hloop := gsmBrLoop_ok (n := num.toNat) (t := b.junk) h'
  rw [← broadcast_iff b (show 0 < gsmBroadcastSize by decide) hok hnum hloop]
  rcases hentries : gsmBrLoop num.toNat b.junk c' with ⟨entries, c''⟩
  simp only [dispatchGsmBrSmsCnf, hr, hentries, isRequest_unless, Bool.and_eq_true]
  apply and_congr_right
  intro _
  cases arraysFit b gsmBroadcastSize num with
  | false => simp
  | true =>
      simp only [Bool.not_true, Bool.false_eq_true, if_false, true_and]
      rw [isRequest_unless, isRequest_onRequest, Bool.and_true]

theorem dispatchCdmaBrSmsCnf_isRequest {b : Build} {c : Cursor} {l : List UInt8}
    (h : Alike c.rest l) :
    (dispatchCdmaBrSmsCnf b c).isRequest = true ↔ BroadcastAccepts b cdmaBroadcastSize l := by
  rcases hr : readInt32 b.junk c with ⟨num, c'⟩
  obtain ⟨h', hok, hnum⟩ := readInt32_spec h hr
  have hloop := cdmaBrLoop_ok (n := num.toNat) (t := b.junk) h'
  rw [← broadcast_iff b (show 0 < cdmaBroadcastSize by decide) hok hnum hloop]
  rcases hentries : cdmaBrLoop num.toNat b.junk c' with ⟨entries, c''⟩
  simp only [dispatchCdmaBrSmsCnf, hr, hentries, isRequest_unless, Bool.and_eq_true]
  apply and_congr_right
  intro _
  cases arraysFit b cdmaBroadcastSize num with
  | false => simp
  | true =>
      simp only [Bool.not_true, Bool.false_eq_true, if_false, true_and]
      rw [isRequest_unless, isRequest_onRequest, Bool.and_true]

theorem dispatchRilCdmaSmsWriteArgs_isRequest {b : Build} {c : Cursor} {l : List UInt8}
    (h : Alike c.rest l) :
    (dispatchRilCdmaSmsWriteArgs b c).isRequest = true ↔ 1360 ≤ l.length := by
  rcases hr : readInt32 b.junk c with ⟨status, c'⟩
  obtain ⟨h', -, -⟩ := readInt32_spec h hr
  have hok := readCdmaMessage_ok b (fun _ => cdmaSmsAddressMax)
    (fun _ => cdmaSmsSubaddressMax) (fun _ => cdmaSmsBearerDataMax) status h'
  simp only [dispatchRilCdmaSmsWriteArgs, hr]
  rw [isRequest_unless, isRequest_onRequest, Bool.and_true, hok]
  simp only [BearerComplete, afterSubaddress, afterAddress, List.length_drop,
    cdmaSmsAddressMax, cdmaSmsSubaddressMax, cdmaSmsBearerDataMax]
  omega

/-- The rebuilt parcel always has its six strings. -/
theorem stringsAccept_six (b : Build) (rest : List UInt8) :
    StringsAccept b (encodeInt32 6 ++ rest) ↔ 24 ≤ b.stack := by
  have hcount : int32At (encodeInt32 6 ++ rest) = 6 := by
    rw [int32At, takeLength, takeInt32_encodeInt32 (by decide) (by decide)]
    rfl
  have hlen : 4 ≤ (encodeInt32 6 ++ rest).length := by
    simp [encodeInt32]
  have hsize : sizeTimes 4 6 = 24 := rfl
  rw [StringsAccept, hcount, StringsFit, hsize]
  omega

theorem dispatchDataCall_isRequest {b : Build} {c : Cursor} {l : List UInt8}
    (h : Alike c.rest l) :
    (dispatchDataCall b c).isRequest = true ↔
      if b.version < 4 ∧ 6 < int32At l then 24 ≤ b.stack else StringsAccept b l := by
  rcases hr : readInt32 0 c with ⟨numParams, c'⟩
  obtain ⟨-, -, hnum⟩ := readInt32_spec h hr
  have hnum : numParams = int32At l := by
    by_cases hl : 4 ≤ l.length
    · exact hnum hl
    · have hl' : l.length < 4 := by omega
      have hc : c.rest.length < 4 := by
        have := (h.length_iff (Nat.le_refl 4)).not.mpr hl
        omega
      rw [readInt32, takeInt32_none hc] at hr
      cases hr
      rw [int32At, takeLength, takeInt32_none hl']
      rfl
  simp only [dispatchDataCall, hr, hnum]
  by_cases hold : b.version < 4 ∧ 6 < int32At l
  · rw [if_pos hold, if_pos hold, dispatchStrings_isRequest (Alike.refl _), stringsAccept_six]
  · rw [if_neg hold, if_neg hold, dispatchStrings_isRequest h]

theorem dispatchSetInitialAttachApn_isRequest {b : Build} {c : Cursor} {l : List UInt8}
    (h : Alike c.rest l) :
    (dispatchSetInitialAttachApn b c).isRequest = true ↔
      4 ≤ (skipString (skipString l)).length := by
  rcases hr₁ : readString c with ⟨apn, c₁⟩
  rcases hr₂ : readString c₁ with ⟨protocol, c₂⟩
  rcases hr₃ : readInt32 b.junk c₂ with ⟨authtype, c₃⟩
  rcases hr₄ : readString c₃ with ⟨username, c₄⟩
  rcases hr₅ : readString c₄ with ⟨password, c₅⟩
  obtain ⟨h₁, -, -⟩ := readString_spec h hr₁
  obtain ⟨h₂, -, -⟩ := readString_spec h₁ hr₂
  obtain ⟨h₃, hok₃, -⟩ := readInt32_spec h₂ hr₃
  obtain ⟨h₄, hok₄, -⟩ := readString_spec h₃ hr₄
  obtain ⟨-, hok₅, -⟩ := readString_spec h₄ hr₅
  simp only [dispatchSetInitialAttachApn, hr₁, hr₂, hr₃, hr₄, hr₅]
  rw [isRequest_unless, isRequest_onRequest, Bool.and_true, hok₅, hok₄, hok₃]

theorem dispatchUiccSubscripton_isRequest {b : Build} {c : Cursor} {l : List UInt8}
    (h : Alike c.rest l) :
    (dispatchUiccSubscripton b c).isRequest = true ↔ 16 ≤ l.length := by
  rcases hr₁ : readInt32 b.junk c with ⟨slot, c₁⟩
  rcases hr₂ : readInt32 slot c₁ with ⟨appIndex, c₂⟩
  rcases hr₃ : readInt32 appIndex c₂ with ⟨subType, c₃⟩
  rcases hr₄ : readInt32 subType c₃ with ⟨actStatus, c₄⟩
  obtain ⟨h₁, hok₁, -⟩ := readInt32_spec h hr₁
  obtain ⟨h₂, hok₂, -⟩ := readInt32_spec h₁ hr₂
  obtain ⟨h₃, hok₃, -⟩ := readInt32_spec h₂ hr₃
  obtain ⟨-, hok₄, -⟩ := readInt32_spec h₃ hr₄
  simp only [List.drop_drop] at hok₃ hok₄
  rw [drop_length_iff _ (by omega)] at hok₂ hok₃ hok₄
  simp only [dispatchUiccSubscripton, hr₁, hr₂, hr₃, hr₄, isRequest_unless,
    isRequest_onRequest, Bool.and_eq_true, hok₁, hok₂, hok₃, hok₄, and_true]
  omega

def CallResult.isRequest : CallResult → Bool
  | .dispatched r => r.isRequest
  | .answered _ => false

/-- **Exactly the accepted payloads reach the vendor.** -/
theorem call_isRequest {b : Build} {state : RadioState} {radio : RadioVars} {c : Cursor}
    {l : List UInt8} (h : Alike c.rest l) (d : Dispatch) :
    (d.call b state radio c).1.isRequest = true ↔ d.Accepts b state l := by
  cases d <;> simp only [Dispatch.call, Dispatch.Accepts, CallResult.isRequest]
  case void => simp [dispatchVoid]
  case string => simp [dispatchString]
  case strings => exact dispatchStrings_isRequest h
  case ints => exact dispatchInts_isRequest h
  case smsWrite => exact dispatchSmsWrite_isRequest h
  case dial => exact dispatchDial_isRequest h
  case simIo transmit => exact dispatchSimIo_isRequest h
  case callForward => exact dispatchCallForward_isRequest h
  case raw => exact dispatchRaw_isRequest h
  case cdmaSms => exact dispatchCdmaSms_isRequest h
  case imsSms => exact dispatchImsSms_isRequest h
  case cdmaSmsAck => exact dispatchCdmaSmsAck_isRequest h
  case gsmBrSmsCnf => exact dispatchGsmBrSmsCnf_isRequest h
  case cdmaBrSmsCnf => exact dispatchCdmaBrSmsCnf_isRequest h
  case rilCdmaSmsWriteArgs => exact dispatchRilCdmaSmsWriteArgs_isRequest h
  case dataCall => exact dispatchDataCall_isRequest h
  case voiceRadioTech =>
      by_cases hon : state = .on
      · simp [dispatchVoiceRadioTech, hon, dispatchVoid]
      · simp [dispatchVoiceRadioTech, hon]
  case cdmaSubscriptionSource =>
      by_cases hon : state = .on
      · simp [dispatchCdmaSubscriptionSource, hon, dispatchVoid]
      · simp [dispatchCdmaSubscriptionSource, hon]
  case setInitialAttachApn => exact dispatchSetInitialAttachApn_isRequest h
  case uiccSubscripton => exact dispatchUiccSubscripton_isRequest h

/-- The dispatch functions that answer an old vendor RIL's client themselves. -/
def Dispatch.AnswersItself (state : RadioState) (d : Dispatch) : Prop :=
  (d = .voiceRadioTech ∨ d = .cdmaSubscriptionSource) ∧ state ≠ .on

/-- The first answer to an old vendor RIL's client is small. -/
theorem oldAnswers_cons (state : RadioState) (value : Option Int) :
    ∃ r rs, oldAnswers state value = r :: rs ∧
      (r.response.map (·.written.length)).getD 0 ≤ 8 := by
  unfold oldAnswers
  by_cases hoff : state = .unavailable ∨ state = .off
  · rw [if_pos hoff]
    exact ⟨_, _, rfl, by decide⟩
  · rw [if_neg hoff]
    cases value with
    | none => exact ⟨_, _, rfl, by decide⟩
    | some v => exact ⟨_, _, rfl, by simp [responseInts, encodeInt32]⟩

/-- What comes back from the call of a dispatch function: answers, or a result
with no answer. -/
theorem call_cases (b : Build) (state : RadioState) (radio : RadioVars) (c : Cursor)
    (d : Dispatch) :
    (d.AnswersItself state ∧ ∃ r rs, (d.call b state radio c).1 = .answered (r :: rs) ∧
        (r.response.map (·.written.length)).getD 0 ≤ 8) ∨
      (¬ d.AnswersItself state ∧ ∃ r, (d.call b state radio c).1 = .dispatched r) := by
  cases d with
  | voiceRadioTech =>
      by_cases hon : state = .on
      · exact Or.inr ⟨fun hd => hd.2 hon, _, by rw [Dispatch.call, dispatchVoiceRadioTech, if_pos hon]⟩
      · obtain ⟨r, rs, heq, hsize⟩ :=
          oldAnswers_cons state ((decodeVoiceRadioTechnology state).map RadioTech.value)
        refine Or.inl ⟨⟨Or.inl rfl, hon⟩, r, rs, ?_, hsize⟩
        rw [Dispatch.call, dispatchVoiceRadioTech, if_neg hon, ← heq]
  | cdmaSubscriptionSource =>
      by_cases hon : state = .on
      · exact Or.inr ⟨fun hd => hd.2 hon, _,
          by rw [Dispatch.call, dispatchCdmaSubscriptionSource, if_pos hon]⟩
      · obtain ⟨r, rs, heq, hsize⟩ := oldAnswers_cons state
          ((decodeCdmaSubscriptionSource state).map CdmaSubscriptionSource.value)
        refine Or.inl ⟨⟨Or.inr rfl, hon⟩, r, rs, ?_, hsize⟩
        rw [Dispatch.call, dispatchCdmaSubscriptionSource, if_neg hon, ← heq]
  | _ => exact Or.inr ⟨by simp [Dispatch.AnswersItself], _, rfl⟩

end Libril
