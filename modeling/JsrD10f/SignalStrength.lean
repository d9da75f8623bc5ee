import JsrD10f.VendorMemory

/-!
# Signal strength

`responseRilSignalStrength` gets one of four structures, each with more fields at
the end than the one before, and tells them apart by the length.  It always writes
fourteen numbers, and a field that the structure does not have is written as unknown.
For a vendor up to version 6 it changes the LTE fields in the buffer before it
writes them, so a second response with the same buffer starts from other bytes.

The sign of a negative rsrp is flipped with the `int` negation, which leaves the
most negative number as it is.
-/

namespace Libril.SignalStrength

open Parcel Responses VendorMemory

/-! ## The structures -/

/-- `RIL_SignalStrength_v9_CAF`, and where the older structures end in it. -/
structure SignalLayout where
  sizeV5 : Nat
  sizeV6 : Nat
  sizeV8 : Nat
  sizeV9Caf : Nat
  gwSignalStrength : Nat
  gwBitErrorRate : Nat
  cdmaDbm : Nat
  cdmaEcio : Nat
  evdoDbm : Nat
  evdoEcio : Nat
  evdoSignalNoiseRatio : Nat
  lteSignalStrength : Nat
  lteRsrp : Nat
  lteRsrq : Nat
  lteRssnr : Nat
  lteCqi : Nat
  lteTimingAdvance : Nat
  tdScdmaRscp : Nat
  v5_inside : ∀ off ∈ [gwSignalStrength, gwBitErrorRate, cdmaDbm, cdmaEcio, evdoDbm, evdoEcio,
    evdoSignalNoiseRatio], off + 4 ≤ sizeV5
  lte_inside : ∀ off ∈ [lteSignalStrength, lteRsrp, lteRsrq, lteRssnr, lteCqi], off + 4 ≤ sizeV6
  timingAdvance_inside : lteTimingAdvance + 4 ≤ sizeV8
  rscp_inside : tdScdmaRscp + 4 ≤ sizeV9Caf
  apart : [gwSignalStrength, gwBitErrorRate, cdmaDbm, cdmaEcio, evdoDbm, evdoEcio,
    evdoSignalNoiseRatio, lteSignalStrength, lteRsrp, lteRsrq, lteRssnr, lteCqi,
    lteTimingAdvance, tdScdmaRscp].Pairwise WordsApart
  sizes : sizeV5 ≤ sizeV6 ∧ sizeV6 ≤ sizeV8 ∧ sizeV8 ≤ sizeV9Caf

/-- The fields in the order in which they are written. -/
def values (s : Responses.SignalStrength) : List Int :=
  [s.gwSignalStrength, s.gwBitErrorRate, s.cdmaDbm, s.cdmaEcio, s.evdoDbm, s.evdoEcio,
    s.evdoSignalNoiseRatio, s.lteSignalStrength, s.lteRsrp, s.lteRsrq, s.lteRssnr, s.lteCqi,
    s.lteTimingAdvance, s.tdScdmaRscp]

variable (l : SignalLayout)

/-! ## The function -/

/-- `if (field == old) field = new`. -/
def replaceWord (mem : Memory) (off : Nat) (old new : Int) : Memory :=
  if word mem off = old then store mem off new else mem

/-- The negation of an `int`. -/
def negate (v : Int) : Int :=
  Int.bmod (-v) 4294967296

def fixupRsrp (mem : Memory) : Memory :=
  if word mem l.lteRsrp = -1 then store mem l.lteRsrp intMax
  else if word mem l.lteRsrp < -1 then store mem l.lteRsrp (negate (word mem l.lteRsrp))
  else mem

/-- The fields are changed in the buffer, one after the other. -/
def fixupLte (version : Int) (mem : Memory) : Memory :=
  if version ≤ 6 then
    let mem₁ := replaceWord mem l.lteSignalStrength (-1) 99
    let mem₂ := fixupRsrp l mem₁
    let mem₃ := replaceWord mem₂ l.lteRsrq (-1) intMax
    replaceWord mem₃ l.lteCqi (-1) intMax
  else mem

/-- `writeInt32` for each of some numbers. -/
def writeInts (vs : List Int) : List UInt8 :=
  vs.flatMap encodeInt32

/-- The numbers that are written before the buffer is changed. -/
def olderWords (mem : Memory) : List Int :=
  [word mem l.gwSignalStrength, word mem l.gwBitErrorRate, word mem l.cdmaDbm,
    word mem l.cdmaEcio, word mem l.evdoDbm, word mem l.evdoEcio,
    word mem l.evdoSignalNoiseRatio]

/-- The numbers of a structure with LTE fields. -/
def lteWords (mem : Memory) (responselen : Nat) : List Int :=
  [word mem l.lteSignalStrength, word mem l.lteRsrp, word mem l.lteRsrq, word mem l.lteRssnr,
    word mem l.lteCqi] ++
  if l.sizeV8 ≤ responselen then
    [word mem l.lteTimingAdvance] ++
    if l.sizeV9Caf ≤ responselen then [word mem l.tdScdmaRscp] else [intMax]
  else [intMax, intMax]

/-- The result, and the buffer afterwards. -/
def responseRilSignalStrength (version : Int) (response : Option Memory) (responselen : Nat) :
    Option (Marshalled × Option Memory) :=
  if response.isNone && responselen != 0 then some (invalidResponse [], response)
  else if l.sizeV5 ≤ responselen then do
    let mem ← response
    if l.sizeV6 ≤ responselen then
      let fixed := fixupLte l version mem
      some (success (writeInts (olderWords l mem) ++ writeInts (lteWords l fixed responselen)),
        some fixed)
    else
      some (success (writeInts (olderWords l mem) ++
        writeInts [99, intMax, intMax, intMax, intMax, intMax, intMax]), some mem)
  else some (invalidResponse [], response)

/-! ## The fields of the buffer -/

/-- The structure that the bytes hold. -/
def signalIn (mem : Memory) : Responses.SignalStrength where
  gwSignalStrength := word mem l.gwSignalStrength
  gwBitErrorRate := word mem l.gwBitErrorRate
  cdmaDbm := word mem l.cdmaDbm
  cdmaEcio := word mem l.cdmaEcio
  evdoDbm := word mem l.evdoDbm
  evdoEcio := word mem l.evdoEcio
  evdoSignalNoiseRatio := word mem l.evdoSignalNoiseRatio
  lteSignalStrength := word mem l.lteSignalStrength
  lteRsrp := word mem l.lteRsrp
  lteRsrq := word mem l.lteRsrq
  lteRssnr := word mem l.lteRssnr
  lteCqi := word mem l.lteCqi
  lteTimingAdvance := word mem l.lteTimingAdvance
  tdScdmaRscp := word mem l.tdScdmaRscp

def replaceValue (v old new : Int) : Int :=
  if v = old then new else v

def remapRsrp (v : Int) : Int :=
  if v = -1 then intMax else if v < -1 then negate v else v

/-- What the changes in the buffer do to the structure. -/
def remapLte (version : Int) (s : Responses.SignalStrength) : Responses.SignalStrength :=
  if version ≤ 6 then
    { s with
      lteSignalStrength := replaceValue s.lteSignalStrength (-1) 99
      lteRsrp := remapRsrp s.lteRsrp
      lteRsrq := replaceValue s.lteRsrq (-1) intMax
      lteCqi := replaceValue s.lteCqi (-1) intMax }
  else s

/-- The fields beyond the end of the structure are unknown. -/
def known (responselen : Nat) (s : Responses.SignalStrength) : Responses.SignalStrength :=
  { s with
    lteSignalStrength := if l.sizeV6 ≤ responselen then s.lteSignalStrength else 99
    lteRsrp := if l.sizeV6 ≤ responselen then s.lteRsrp else intMax
    lteRsrq := if l.sizeV6 ≤ responselen then s.lteRsrq else intMax
    lteRssnr := if l.sizeV6 ≤ responselen then s.lteRssnr else intMax
    lteCqi := if l.sizeV6 ≤ responselen then s.lteCqi else intMax
    lteTimingAdvance := if l.sizeV8 ≤ responselen then s.lteTimingAdvance else intMax
    tdScdmaRscp := if l.sizeV9Caf ≤ responselen then s.tdScdmaRscp else intMax }

/-- The record that is written. -/
def record (version : Int) (mem : Memory) (responselen : Nat) : Responses.SignalStrength :=
  known l responselen (remapLte version (signalIn l mem))

theorem isInt32_negate (v : Int) : IsInt32 (negate v) := by
  have hlow := Int.le_bmod (x := -v) (m := 4294967296) (by decide)
  have hhigh := Int.bmod_lt (x := -v) (m := 4294967296) (by decide)
  unfold negate IsInt32
  omega

theorem word_replaceWord_self (mem : Memory) (off : Nat) (old : Int) {new : Int}
    (hnew : IsInt32 new) :
    word (replaceWord mem off old new) off = replaceValue (word mem off) old new := by
  unfold replaceWord replaceValue
  split
  · exact word_store_self mem off hnew
  · rfl

theorem word_replaceWord_of_apart (mem : Memory) {off off' : Nat} (old new : Int)
    (h : WordsApart off off') : word (replaceWord mem off old new) off' = word mem off' := by
  unfold replaceWord
  split
  · exact word_store_of_apart mem new h
  · rfl

theorem word_fixupRsrp_self (mem : Memory) :
    word (fixupRsrp l mem) l.lteRsrp = remapRsrp (word mem l.lteRsrp) := by
  unfold fixupRsrp remapRsrp
  split
  · exact word_store_self mem _ (by decide)
  · split
    · exact word_store_self mem _ (isInt32_negate _)
    · rfl

theorem word_fixupRsrp_of_apart (mem : Memory) {off : Nat} (h : WordsApart l.lteRsrp off) :
    word (fixupRsrp l mem) off = word mem off := by
  unfold fixupRsrp
  split
  · exact word_store_of_apart mem _ h
  · split
    · exact word_store_of_apart mem _ h
    · rfl

/-- The offsets, in the order of the structure. -/
def SignalLayout.fields : List Nat :=
  [l.gwSignalStrength, l.gwBitErrorRate, l.cdmaDbm, l.cdmaEcio, l.evdoDbm, l.evdoEcio,
    l.evdoSignalNoiseRatio, l.lteSignalStrength, l.lteRsrp, l.lteRsrq, l.lteRssnr, l.lteCqi,
    l.lteTimingAdvance, l.tdScdmaRscp]

theorem SignalLayout.field_apart {i j : Fin 14} (h : i ≠ j) :
    WordsApart (l.fields.get i) (l.fields.get j) := by
  have hpairs := List.pairwise_iff_getElem.mp l.apart
  rcases Nat.lt_or_gt_of_ne (Fin.val_ne_of_ne h) with hlt | hgt
  · exact hpairs i j i.isLt j.isLt hlt
  · exact Or.symm (hpairs j i j.isLt i.isLt hgt)

/-- The fields that are not assigned to. -/
theorem word_fixupLte_of_ne {version : Int} (hversion : version ≤ 6) (mem : Memory) {i : Fin 14}
    (h : i ≠ 7 ∧ i ≠ 8 ∧ i ≠ 9 ∧ i ≠ 11) :
    word (fixupLte l version mem) (l.fields.get i) = word mem (l.fields.get i) := by
  obtain ⟨hstrength, hrsrp, hrsrq, hcqi⟩ := h
  rw [fixupLte, if_pos hversion]
  exact (word_replaceWord_of_apart _ _ _ (l.field_apart (Ne.symm hcqi))).trans
    ((word_replaceWord_of_apart _ _ _ (l.field_apart (Ne.symm hrsrq))).trans
      ((word_fixupRsrp_of_apart l _ (l.field_apart (Ne.symm hrsrp))).trans
        (word_replaceWord_of_apart _ _ _ (l.field_apart (Ne.symm hstrength)))))

/-- The fields that are assigned to, each by one of the four assignments. -/
theorem word_fixupLte_changed {version : Int} (hversion : version ≤ 6) (mem : Memory) :
    word (fixupLte l version mem) l.lteSignalStrength =
        replaceValue (word mem l.lteSignalStrength) (-1) 99 ∧
      word (fixupLte l version mem) l.lteRsrp = remapRsrp (word mem l.lteRsrp) ∧
      word (fixupLte l version mem) l.lteRsrq =
        replaceValue (word mem l.lteRsrq) (-1) intMax ∧
      word (fixupLte l version mem) l.lteCqi =
        replaceValue (word mem l.lteCqi) (-1) intMax := by
  have hrsrpStrength : WordsApart l.lteRsrp l.lteSignalStrength :=
    l.field_apart (i := 8) (j := 7) (by decide)
  have hrsrqStrength : WordsApart l.lteRsrq l.lteSignalStrength :=
    l.field_apart (i := 9) (j := 7) (by decide)
  have hcqiStrength : WordsApart l.lteCqi l.lteSignalStrength :=
    l.field_apart (i := 11) (j := 7) (by decide)
  have hrsrqRsrp : WordsApart l.lteRsrq l.lteRsrp := l.field_apart (i := 9) (j := 8) (by decide)
  have hcqiRsrp : WordsApart l.lteCqi l.lteRsrp := l.field_apart (i := 11) (j := 8) (by decide)
  have hcqiRsrq : WordsApart l.lteCqi l.lteRsrq := l.field_apart (i := 11) (j := 9) (by decide)
  rw [fixupLte, if_pos hversion]
  dsimp only
  refine ⟨?_, ?_, ?_, ?_⟩
  · rw [word_replaceWord_of_apart _ _ _ hcqiStrength, word_replaceWord_of_apart _ _ _ hrsrqStrength,
      word_fixupRsrp_of_apart l _ hrsrpStrength, word_replaceWord_self _ _ _ (by decide)]
  · rw [word_replaceWord_of_apart _ _ _ hcqiRsrp, word_replaceWord_of_apart _ _ _ hrsrqRsrp,
      word_fixupRsrp_self, word_replaceWord_of_apart _ _ _ (Or.symm hrsrpStrength)]
  · rw [word_replaceWord_of_apart _ _ _ hcqiRsrq, word_replaceWord_self _ _ _ (by decide),
      word_fixupRsrp_of_apart l _ (Or.symm hrsrqRsrp),
      word_replaceWord_of_apart _ _ _ (Or.symm hrsrqStrength)]
  · rw [word_replaceWord_self _ _ _ (by decide), word_replaceWord_of_apart _ _ _ (Or.symm hcqiRsrq),
      word_fixupRsrp_of_apart l _ (Or.symm hcqiRsrp),
      word_replaceWord_of_apart _ _ _ (Or.symm hcqiStrength)]

theorem signalIn_fixupLte (version : Int) (mem : Memory) :
    signalIn l (fixupLte l version mem) = remapLte version (signalIn l mem) := by
  by_cases hversion : version ≤ 6
  · obtain ⟨hstrength, hrsrp, hrsrq, hcqi⟩ := word_fixupLte_changed l hversion mem
    have hother (i : Fin 14) (h : i ≠ 7 ∧ i ≠ 8 ∧ i ≠ 9 ∧ i ≠ 11) :=
      word_fixupLte_of_ne l hversion mem h
    simp only [remapLte, if_pos hversion, signalIn, Responses.SignalStrength.mk.injEq]
    exact ⟨hother 0 (by decide), hother 1 (by decide), hother 2 (by decide), hother 3 (by decide),
      hother 4 (by decide), hother 5 (by decide), hother 6 (by decide), hstrength, hrsrp, hrsrq,
      hother 10 (by decide), hcqi, hother 12 (by decide), hother 13 (by decide)⟩
  · rw [fixupLte, if_neg hversion, remapLte, if_neg hversion]

/-! ## The record -/

theorem olderWords_eq (version : Int) (mem : Memory) (responselen : Nat) :
    olderWords l mem = (values (record l version mem responselen)).take 7 := by
  unfold record remapLte
  split
  · simp only [olderWords, known, values, signalIn, List.take_succ_cons, List.take_zero]
  · simp only [olderWords, known, values, signalIn, List.take_succ_cons, List.take_zero]

theorem lteWords_eq (mem : Memory) {responselen : Nat} (h : l.sizeV6 ≤ responselen) :
    lteWords l mem responselen = (values (known l responselen (signalIn l mem))).drop 7 := by
  have hsizes := l.sizes
  simp only [lteWords, known, values, signalIn, if_pos h, List.drop_succ_cons, List.drop_zero]
  by_cases hv8 : l.sizeV8 ≤ responselen
  · simp only [if_pos hv8]
    by_cases hv9 : l.sizeV9Caf ≤ responselen
    · simp only [if_pos hv9, List.cons_append, List.nil_append]
    · simp only [if_neg hv9, List.cons_append, List.nil_append]
  · have hv9 : ¬ l.sizeV9Caf ≤ responselen := by omega
    simp only [if_neg hv8, if_neg hv9, List.cons_append, List.nil_append]

theorem unknown_eq (version : Int) (mem : Memory) {responselen : Nat}
    (h : ¬ l.sizeV6 ≤ responselen) :
    [99, intMax, intMax, intMax, intMax, intMax, intMax] =
      (values (record l version mem responselen)).drop 7 := by
  have hsizes := l.sizes
  have hv8 : ¬ l.sizeV8 ≤ responselen := by omega
  have hv9 : ¬ l.sizeV9Caf ≤ responselen := by omega
  simp only [record, known, values, if_neg h, if_neg hv8, if_neg hv9]
  rfl

/-- The buffer after the response. -/
def bufferAfter (version : Int) (mem : Memory) (responselen : Nat) : Memory :=
  if l.sizeV6 ≤ responselen then fixupLte l version mem else mem

/-- The function writes the fourteen fields of the record. -/
theorem responseRilSignalStrength_eq (version : Int) (mem : Memory) {responselen : Nat}
    (h : l.sizeV5 ≤ responselen) :
    responseRilSignalStrength l version (some mem) responselen =
      some (success (writeInts (values (record l version mem responselen))),
        some (bufferAfter l version mem responselen)) := by
  have hsplit := List.take_append_drop 7 (values (record l version mem responselen))
  have hwrite (vs ws : List Int) : writeInts vs ++ writeInts ws = writeInts (vs ++ ws) :=
    List.flatMap_append.symm
  simp only [responseRilSignalStrength, Option.isNone_some, Bool.false_and, Bool.false_eq_true,
    if_false, if_pos h, Option.bind_eq_bind, Option.bind_some, bufferAfter, hwrite,
    olderWords_eq l version mem responselen]
  by_cases hv6 : l.sizeV6 ≤ responselen
  · rw [if_pos hv6, if_pos hv6, lteWords_eq l _ hv6, signalIn_fixupLte]
    exact congrArg (fun vs => some (success (writeInts vs), some (fixupLte l version mem))) hsplit
  · rw [if_neg hv6, if_neg hv6, unknown_eq l version mem hv6, hsplit]

/-- A field that lies in the buffer does not depend on the bytes behind it. -/
theorem word_eq_of_inside {mem mem' : Memory} {off size responselen : Nat}
    (hmem : ∀ q < responselen, mem q = mem' q) (hoff : off + 4 ≤ size)
    (hsize : size ≤ responselen) : word mem off = word mem' off :=
  word_congr fun q _ hq => hmem q (by omega)

/-- Bytes beyond the length are in none of the fields. -/
theorem record_congr (version : Int) {mem mem' : Memory} {responselen : Nat}
    (h : l.sizeV5 ≤ responselen) (hmem : ∀ q < responselen, mem q = mem' q) :
    record l version mem responselen = record l version mem' responselen := by
  have hv5 {off : Nat} (hoff : off ∈ [l.gwSignalStrength, l.gwBitErrorRate, l.cdmaDbm, l.cdmaEcio,
      l.evdoDbm, l.evdoEcio, l.evdoSignalNoiseRatio]) : word mem off = word mem' off :=
    word_eq_of_inside hmem (l.v5_inside off hoff) h
  have hlte {off : Nat} (hoff : off ∈ [l.lteSignalStrength, l.lteRsrp, l.lteRsrq, l.lteRssnr,
      l.lteCqi]) (hv6 : l.sizeV6 ≤ responselen) : word mem off = word mem' off :=
    word_eq_of_inside hmem (l.lte_inside off hoff) hv6
  have htiming (hv8 : l.sizeV8 ≤ responselen) := word_eq_of_inside hmem l.timingAdvance_inside hv8
  have hrscp (hv9 : l.sizeV9Caf ≤ responselen) := word_eq_of_inside hmem l.rscp_inside hv9
  have hfield {c : Prop} [Decidable c] {v v' other : Int} (hc : c → v = v') :
      (if c then v else other) = if c then v' else other :=
    ite_congr rfl hc fun _ => rfl
  have hchanged (f : Int → Int) {off : Nat} (hoff : off ∈ [l.lteSignalStrength, l.lteRsrp,
      l.lteRsrq, l.lteRssnr, l.lteCqi]) (hv6 : l.sizeV6 ≤ responselen) :
      f (word mem off) = f (word mem' off) := congrArg f (hlte hoff hv6)
  unfold record remapLte
  split
  · simp only [known, signalIn, Responses.SignalStrength.mk.injEq]
    exact ⟨hv5 (by simp), hv5 (by simp), hv5 (by simp), hv5 (by simp), hv5 (by simp),
      hv5 (by simp), hv5 (by simp), hfield (hchanged (replaceValue · (-1) 99) (by simp)),
      hfield (hchanged remapRsrp (by simp)), hfield (hchanged (replaceValue · (-1) intMax) (by simp)),
      hfield (hlte (by simp)), hfield (hchanged (replaceValue · (-1) intMax) (by simp)),
      hfield htiming, hfield hrscp⟩
  · simp only [known, signalIn, Responses.SignalStrength.mk.injEq]
    exact ⟨hv5 (by simp), hv5 (by simp), hv5 (by simp), hv5 (by simp), hv5 (by simp),
      hv5 (by simp), hv5 (by simp), hfield (hlte (by simp)), hfield (hlte (by simp)),
      hfield (hlte (by simp)), hfield (hlte (by simp)), hfield (hlte (by simp)), hfield htiming,
      hfield hrscp⟩

theorem negate_eq {v : Int} (hlow : -2147483648 < v) (hhigh : v < -1) : negate v = -v :=
  Int.bmod_eq_of_le (by omega) (by omega)

/-- The rsrp of an older vendor, by its range. -/
theorem remapRsrp_cases {v : Int} (hv : IsInt32 v) :
    (v = -2147483648 ∧ remapRsrp v = v) ∨
      (v ≠ -2147483648 ∧ 0 ≤ remapRsrp v) := by
  unfold remapRsrp
  by_cases hmin : v = -2147483648
  · subst hmin
    exact .inl ⟨rfl, by decide⟩
  · right
    refine ⟨hmin, ?_⟩
    split
    · decide
    · split
      · rename_i hlow
        rw [negate_eq (by have := hv.1; omega) hlow]
        omega
      · omega

theorem remapRsrp_of_nonneg {v : Int} (hv : 0 ≤ v) : remapRsrp v = v := by
  rw [remapRsrp, if_neg (by omega), if_neg (by omega)]

theorem remapRsrp_remapRsrp {v : Int} (hv : IsInt32 v) :
    remapRsrp (remapRsrp v) = remapRsrp v := by
  rcases remapRsrp_cases hv with ⟨-, hsame⟩ | ⟨-, hnonneg⟩
  · rw [hsame, hsame]
  · exact remapRsrp_of_nonneg hnonneg

theorem replaceValue_ne {v old new : Int} (h : new ≠ old) : replaceValue v old new ≠ old := by
  unfold replaceValue
  split
  · exact h
  · assumption

theorem replaceValue_replaceValue {v old new : Int} (h : new ≠ old) :
    replaceValue (replaceValue v old new) old new = replaceValue v old new :=
  if_neg (replaceValue_ne h)

/-- A second change of the buffer changes nothing. -/
theorem remapLte_remapLte (version : Int) {s : Responses.SignalStrength}
    (hrsrp : IsInt32 s.lteRsrp) :
    remapLte version (remapLte version s) = remapLte version s := by
  by_cases hversion : version ≤ 6
  · simp only [remapLte, if_pos hversion, remapRsrp_remapRsrp hrsrp,
      replaceValue_replaceValue (show (99 : Int) ≠ -1 by decide),
      replaceValue_replaceValue (show intMax ≠ -1 by decide)]
  · simp only [remapLte, if_neg hversion]

theorem isInt32_rsrp (mem : Memory) : IsInt32 (signalIn l mem).lteRsrp := by
  simp only [signalIn]
  exact word_isInt32 mem l.lteRsrp

/-- The second response with the same buffer writes the same record. -/
theorem record_bufferAfter (version : Int) (mem : Memory) (responselen : Nat) :
    record l version (bufferAfter l version mem responselen) responselen =
      record l version mem responselen := by
  unfold bufferAfter
  split
  · rw [record, signalIn_fixupLte, remapLte_remapLte version (isInt32_rsrp l mem), record]
  · rfl

theorem isInt32_remapRsrp {v : Int} (hv : IsInt32 v) : IsInt32 (remapRsrp v) := by
  unfold remapRsrp
  split
  · decide
  · split
    · exact isInt32_negate v
    · exact hv

theorem isInt32_replaceValue {v new : Int} (old : Int) (hv : IsInt32 v) (hnew : IsInt32 new) :
    IsInt32 (replaceValue v old new) := by
  unfold replaceValue
  split
  · exact hnew
  · exact hv

theorem isInt32_record (version : Int) (mem : Memory) (responselen : Nat) :
    ∀ v ∈ values (record l version mem responselen), IsInt32 v := by
  have hword (off : Nat) := word_isInt32 mem off
  have hmax : IsInt32 intMax := by decide
  have hlte : IsInt32 99 := by decide
  have hknown {c : Prop} [Decidable c] {v other : Int} (hv : IsInt32 v) (hother : IsInt32 other) :
      IsInt32 (if c then v else other) := by
    split
    · exact hv
    · exact hother
  unfold record remapLte
  split
  · simp only [values, known, signalIn, List.mem_cons, List.not_mem_nil, or_false,
      forall_eq_or_imp, forall_eq]
    exact ⟨hword _, hword _, hword _, hword _, hword _, hword _, hword _,
      hknown (isInt32_replaceValue _ (hword _) hlte) hlte,
      hknown (isInt32_remapRsrp (hword _)) hmax,
      hknown (isInt32_replaceValue _ (hword _) hmax) hmax, hknown (hword _) hmax,
      hknown (isInt32_replaceValue _ (hword _) hmax) hmax, hknown (hword _) hmax,
      hknown (hword _) hmax⟩
  · simp only [values, known, signalIn, List.mem_cons, List.not_mem_nil, or_false,
      forall_eq_or_imp, forall_eq]
    exact ⟨hword _, hword _, hword _, hword _, hword _, hword _, hword _, hknown (hword _) hlte,
      hknown (hword _) hmax, hknown (hword _) hmax, hknown (hword _) hmax, hknown (hword _) hmax,
      hknown (hword _) hmax, hknown (hword _) hmax⟩

/-- The bytes say which numbers were written. -/
theorem writeInts_inj {vs ws : List Int} (hv : ∀ v ∈ vs, IsInt32 v) (hw : ∀ w ∈ ws, IsInt32 w)
    (h : writeInts vs = writeInts ws) : vs = ws := by
  induction vs generalizing ws with
  | nil =>
      cases ws with
      | nil => rfl
      | cons w ws => cases h
  | cons v vs ih =>
      cases ws with
      | nil => cases h
      | cons w ws =>
          have hbytes : encodeInt32 v ++ writeInts vs = encodeInt32 w ++ writeInts ws := h
          obtain ⟨hvlow, hvhigh⟩ := hv v List.mem_cons_self
          obtain ⟨hwlow, hwhigh⟩ := hw w List.mem_cons_self
          have hfront := takeInt32_encodeInt32 hvlow hvhigh (writeInts vs)
          rw [hbytes, takeInt32_encodeInt32 hwlow hwhigh] at hfront
          simp only [Option.some.injEq, Prod.mk.injEq] at hfront
          obtain ⟨rfl, hrest⟩ := hfront
          rw [ih (fun v hv' => hv v (List.mem_cons_of_mem _ hv'))
            (fun w hw' => hw w (List.mem_cons_of_mem _ hw')) hrest.symm]

theorem values_inj {s s' : Responses.SignalStrength} (h : values s = values s') : s = s' := by
  cases s
  cases s'
  simpa [values] using h

/-! ## Marshalling -/

/-- The fields of a structure that the length does not cover. -/
structure Unknown (responselen : Nat) (s : Responses.SignalStrength) : Prop where
  lteSignalStrength : responselen < l.sizeV6 → s.lteSignalStrength = 99
  lte : responselen < l.sizeV6 →
    s.lteRsrp = intMax ∧ s.lteRsrq = intMax ∧ s.lteRssnr = intMax ∧ s.lteCqi = intMax
  lteTimingAdvance : responselen < l.sizeV8 → s.lteTimingAdvance = intMax
  tdScdmaRscp : responselen < l.sizeV9Caf → s.tdScdmaRscp = intMax

/-- The LTE fields of an older vendor are in the range of the newer ones. -/
structure InRange (s : Responses.SignalStrength) : Prop where
  lteSignalStrength : s.lteSignalStrength ≠ -1
  lteRsrp : s.lteRsrp ≠ -1
  lteRsrq : s.lteRsrq ≠ -1
  lteCqi : s.lteCqi ≠ -1
  rsrp_nonneg : 0 ≤ s.lteRsrp

/-- The response appends exactly the fourteen numbers of `s`. -/
def Appends (version : Int) (mem : Memory) (responselen : Nat) (s : Responses.SignalStrength)
    (after : Memory) : Prop :=
  responseRilSignalStrength l version (some mem) responselen =
    some (success (writeInts (values s)), some after)

/-- The record is appended as 32-bit numbers, with what the length does not cover as
unknown and the fields of an older vendor in their range.  It is the same for every
buffer with the same `responselen` bytes, and for the buffer as the response left it. -/
structure Marshals (version : Int) (mem : Memory) (responselen : Nat)
    (s : Responses.SignalStrength) (after : Memory) : Prop where
  appends : Appends l version mem responselen s after
  int32 : ∀ v ∈ values s, IsInt32 v
  unknown : Unknown l responselen s
  inRange : version ≤ 6 → InRange s
  beyond : ∀ mem', (∀ q < responselen, mem q = mem' q) →
    ∃ after', Appends l version mem' responselen s after'
  again : ∃ after', Appends l version after responselen s after'

theorem unknown_known (responselen : Nat) (s : Responses.SignalStrength) :
    Unknown l responselen (known l responselen s) := by
  constructor
  · intro h
    exact if_neg (Nat.not_le.mpr h)
  · intro h
    have hv6 := Nat.not_le.mpr h
    exact ⟨if_neg hv6, if_neg hv6, if_neg hv6, if_neg hv6⟩
  · intro h
    exact if_neg (Nat.not_le.mpr h)
  · intro h
    exact if_neg (Nat.not_le.mpr h)

theorem inRange_record_iff {version : Int} (hversion : version ≤ 6) (mem : Memory)
    (responselen : Nat) : InRange (record l version mem responselen) ↔
      ¬ (l.sizeV6 ≤ responselen ∧ word mem l.lteRsrp = -2147483648) := by
  by_cases hv6 : l.sizeV6 ≤ responselen
  · have hrsrp : (record l version mem responselen).lteRsrp = remapRsrp (word mem l.lteRsrp) := by
      simp only [record, known, remapLte, if_pos hversion, if_pos hv6, signalIn]
    rcases remapRsrp_cases (word_isInt32 mem l.lteRsrp) with ⟨hmin, hsame⟩ | ⟨hmin, hnonneg⟩
    · have hneg : ¬ InRange (record l version mem responselen) := by
        intro hrange
        have hpos := hrange.rsrp_nonneg
        rw [hrsrp, hsame, hmin] at hpos
        exact absurd hpos (by decide)
      exact iff_of_false hneg fun hnot => hnot ⟨hv6, hmin⟩
    · refine iff_of_true ?_ fun hboth => hmin hboth.2
      rw [← hrsrp] at hnonneg
      refine ⟨?_, by omega, ?_, ?_, hnonneg⟩
      · simp only [record, known, remapLte, if_pos hversion, if_pos hv6]
        exact replaceValue_ne (by decide)
      · simp only [record, known, remapLte, if_pos hversion, if_pos hv6]
        exact replaceValue_ne (by decide)
      · simp only [record, known, remapLte, if_pos hversion, if_pos hv6]
        exact replaceValue_ne (by decide)
  · refine iff_of_true ?_ fun hboth => hv6 hboth.1
    have hunknown := unknown_known l responselen (remapLte version (signalIn l mem))
    have hstrength := hunknown.lteSignalStrength (Nat.lt_of_not_le hv6)
    obtain ⟨hrsrp, hrsrq, -, hcqi⟩ := hunknown.lte (Nat.lt_of_not_le hv6)
    unfold record
    constructor
    · rw [hstrength]
      decide
    · rw [hrsrp]
      decide
    · rw [hrsrq]
      decide
    · rw [hcqi]
      decide
    · rw [hrsrp]
      decide

theorem marshals_record {version : Int} {mem : Memory} {responselen : Nat}
    (h : l.sizeV5 ≤ responselen)
    (hrange : version ≤ 6 → InRange (record l version mem responselen)) :
    Marshals l version mem responselen (record l version mem responselen)
      (bufferAfter l version mem responselen) where
  appends := responseRilSignalStrength_eq l version mem h
  int32 := isInt32_record l version mem responselen
  unknown := unknown_known l responselen _
  inRange := hrange
  beyond := by
    intro mem' hmem
    refine ⟨bufferAfter l version mem' responselen, ?_⟩
    rw [record_congr l version h hmem]
    exact responseRilSignalStrength_eq l version mem' h
  again := by
    have hagain := responseRilSignalStrength_eq l version (bufferAfter l version mem responselen) h
    rw [record_bufferAfter] at hagain
    exact ⟨_, hagain⟩

/-- Only the record can be meant. -/
theorem Marshals.eq_record {version : Int} {mem after : Memory} {responselen : Nat}
    {s : Responses.SignalStrength} (h : l.sizeV5 ≤ responselen)
    (hs : Marshals l version mem responselen s after) : s = record l version mem responselen := by
  have happends := hs.appends
  rw [Appends, responseRilSignalStrength_eq l version mem h] at happends
  simp only [Option.some.injEq, Prod.mk.injEq, success, Marshalled.mk.injEq] at happends
  exact values_inj (writeInts_inj hs.int32 (isInt32_record l version mem responselen)
    happends.1.2.symm)

/-- **Signal strength.**  The response is marshalled as it should be unless the vendor
is of version 6 or older, the structure has LTE fields and their rsrp is the most
negative number. -/
theorem signal_marshalled_iff (l : SignalLayout) (version : Int) (mem : Memory)
    {responselen : Nat} (h : l.sizeV5 ≤ responselen) :
    (∃ s after, Marshals l version mem responselen s after) ↔
      ¬ (version ≤ 6 ∧ l.sizeV6 ≤ responselen ∧ word mem l.lteRsrp = -2147483648) := by
  constructor
  · rintro ⟨s, after, hs⟩ ⟨hversion, hmin⟩
    have hrange := hs.inRange hversion
    rw [hs.eq_record l h] at hrange
    exact (inRange_record_iff l hversion mem responselen).mp hrange hmin
  · intro hnot
    refine ⟨_, _, marshals_record l h fun hversion => ?_⟩
    exact (inRange_record_iff l hversion mem responselen).mpr fun hmin => hnot ⟨hversion, hmin⟩

/-- Fourteen numbers in a row, with the older structures after seven, twelve and
thirteen of them. -/
def layout32 : SignalLayout where
  sizeV5 := 28
  sizeV6 := 48
  sizeV8 := 52
  sizeV9Caf := 56
  gwSignalStrength := 0
  gwBitErrorRate := 4
  cdmaDbm := 8
  cdmaEcio := 12
  evdoDbm := 16
  evdoEcio := 20
  evdoSignalNoiseRatio := 24
  lteSignalStrength := 28
  lteRsrp := 32
  lteRsrq := 36
  lteRssnr := 40
  lteCqi := 44
  lteTimingAdvance := 48
  tdScdmaRscp := 52
  v5_inside := by decide
  lte_inside := by decide
  timingAdvance_inside := by decide
  rscp_inside := by decide
  apart := by
    unfold WordsApart
    decide
  sizes := by decide

/-- A buffer of zeros, but for the highest byte of the rsrp. -/
def minimalRsrp : Memory := fun q =>
  if q = 35 then 128 else 0

/-- A vendor of version 6 sends the most negative rsrp. -/
theorem signal_minimal_rsrp : ¬ ∃ s after, Marshals layout32 6 minimalRsrp 48 s after := by
  rintro ⟨s, after, hs⟩
  have hrange := hs.inRange (Int.le_refl 6)
  rw [hs.eq_record layout32 (by decide)] at hrange
  exact (inRange_record_iff layout32 (Int.le_refl 6) minimalRsrp 48).mp hrange
    ⟨by decide, by decide⟩

/-- The same buffer from a vendor of version 7. -/
theorem signal_marshalled_version_seven :
    layout32.sizeV5 ≤ 48 ∧ ∃ s after, Marshals layout32 7 minimalRsrp 48 s after :=
  ⟨by decide, (signal_marshalled_iff layout32 7 minimalRsrp (by decide)).mpr (by decide)⟩

/-! ## The same bytes as the structure -/

/-- A negation that has not wrapped yet is written as the one that has. -/
theorem encodeInt32_remapRsrp (c : Prop) [Decidable c] (v other : Int) :
    encodeInt32 (if c then remapRsrp v else other) =
      encodeInt32 (if c then if v = -1 then intMax else if v < -1 then -v else v else other) := by
  unfold remapRsrp
  split
  · split
    · rfl
    · split
      · exact encodeInt32_bmod (-v)
      · rfl
  · rfl

theorem fieldOr_decide (c : Prop) [Decidable c] (field other : Int) :
    fieldOr (decide c) field other = encodeInt32 (if c then field else other) := by
  unfold fieldOr
  by_cases hc : c
  · rw [if_pos (decide_eq_true hc), if_pos hc]
  · rw [if_neg (by simpa using hc), if_neg hc]

/-- The sizes are those of the layout. -/
structure Agrees (m : Marshaller) : Prop where
  v5 : m.header.sizeofSignalStrengthV5 = l.sizeV5
  v6 : m.header.sizeofSignalStrengthV6 = l.sizeV6
  v8 : m.header.sizeofSignalStrengthV8 = l.sizeV8
  v9 : m.header.sizeofSignalStrengthV9Caf = l.sizeV9Caf

theorem writeInts_record {m : Marshaller} (h : Agrees l m) (mem : Memory) (responselen : Nat) :
    writeInts (values (record l m.version mem responselen)) =
      writeSignalStrength m (signalIn l mem) responselen := by
  have hsizes := l.sizes
  have hnested₈ : (l.sizeV6 ≤ responselen ∧ l.sizeV8 ≤ responselen) ↔ l.sizeV8 ≤ responselen := by
    omega
  have hnested₉ : (l.sizeV8 ≤ responselen ∧ l.sizeV9Caf ≤ responselen) ↔
      l.sizeV9Caf ≤ responselen := by
    omega
  simp only [writeSignalStrength, h.v6, h.v8, h.v9, fieldOr_decide, hnested₈, hnested₉]
  unfold record
  generalize signalIn l mem = s
  unfold remapLte Responses.fixupLte
  split
  · simp only [values, known, writeInts, List.flatMap_cons, List.flatMap_nil, List.append_nil,
      List.append_assoc, encodeInt32_remapRsrp, replaceValue]
  · simp only [values, known, writeInts, List.flatMap_cons, List.flatMap_nil, List.append_nil,
      List.append_assoc]

/-- **The bytes and the structure.**  Over the bytes the function writes what it writes
over the structure that they hold. -/
theorem responseRilSignalStrength_marshalled {m : Marshaller} (h : Agrees l m)
    (response : Option Memory) (other : Content) (responselen : Nat) :
    (responseRilSignalStrength l m.version response responselen).map Prod.fst =
      Responses.responseRilSignalStrength m
        (response.map fun mem => { other with signalStrength := signalIn l mem }) responselen := by
  cases response with
  | none =>
      rcases Nat.eq_zero_or_pos responselen with rfl | hpos
      · unfold responseRilSignalStrength Responses.responseRilSignalStrength
        rw [h.v5]
        by_cases hv5 : l.sizeV5 ≤ 0
        · simp [nullWithLength, hv5]
        · simp [nullWithLength, hv5]
      · simp [responseRilSignalStrength, Responses.responseRilSignalStrength, nullWithLength,
          Nat.ne_of_gt hpos]
  | some mem =>
      by_cases hv5 : l.sizeV5 ≤ responselen
      · rw [responseRilSignalStrength_eq l _ _ hv5, Option.map_some, writeInts_record l h]
        simp only [Responses.responseRilSignalStrength, nullWithLength, Option.map_some,
          Option.isNone_some, Bool.false_and, Bool.false_eq_true, if_false, h.v5, if_pos hv5,
          Option.bind_eq_bind, Option.bind_some]
      · simp [responseRilSignalStrength, Responses.responseRilSignalStrength, nullWithLength, h.v5,
          hv5]

end Libril.SignalStrength
