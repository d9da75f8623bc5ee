import JsrD10f.RequestFields

/-!
# Counts in request parcels

Five dispatch functions take a count or a length from the parcel and use it as it
is: for the size of an array on the stack, as the bound of a loop, and for the
length that goes to the vendor RIL.  All of them are products that may wrap around
`2^32`, and the count may be negative.

Here is what validating the count would mean, and for each function the counts for
which the code does what a check would do.  `l` are the bytes behind the request
code and the token.
-/

namespace Libril

open Parcel

/-- The 4-byte words of the parcel, with the request code and the token. -/
def parcelWords (l : List UInt8) : Nat := (8 + l.length) / 4

/-- The length that `onRequest` gets. -/
def RequestData.datalen : RequestData → Nat
  | .strings _ datalen => datalen
  | .ints _ datalen => datalen
  | .raw _ len => (len % 4294967296).toNat
  | .gsmBrSmsCnf _ datalen => datalen
  | .cdmaBrSmsCnf _ datalen => datalen
  | _ => 0

/-- The block is rejected or the vendor gets `read` elements of `size` bytes, and
the array is no larger than the parcel. -/
def Validated (result : DispatchResult) (size read array : Nat) (l : List UInt8) : Prop :=
  (result = .invalidCommandBlock ∨ ∃ d, result = .onRequest d ∧ d.datalen = size * read) ∧
    array ≤ parcelWords l

/-- The strings among the next `n` that are really there. -/
def stringsRead : Nat → List UInt8 → Nat
  | 0, _ => 0
  | n + 1, l => (if (readText l).isSome then 1 else 0) + stringsRead n (skipString l)

/-- The array of `dispatchStrings`; without strings it is one pointer. -/
def stringsArray (countStrings : Int) : Nat :=
  if countStrings = 0 then 1 else if countStrings = -1 then 0 else sizeTimes 4 countStrings / 4

/-- Records of `size` bytes among the next `n` that are there as a whole. -/
def recordsRead (size : Nat) (n : Nat) (l : List UInt8) : Nat :=
  min n (l.length / size)

/-- The larger of the two arrays of a broadcast configuration. -/
def broadcastArray (size : Nat) (num : Int) : Nat :=
  max (sizeTimes size num / size) (sizeTimes 4 num / 4)

/-- The bytes that `readInplace` finds. -/
def rawRead (len : Int) (l : List UInt8) : Nat :=
  if 0 ≤ len ∧ padSize len.toNat ≤ l.length then len.toNat else 0

/-- The counts that `dispatchStrings` deals with. -/
def StringsCountGood (b : Build) (l : List UInt8) (count : Int) : Prop :=
  count = 0 ∨ count = -1 ∨ (count < 0 ∧ count % 1073741824 = 0) ∨
    (0 < count ∧ count < 1073741824 ∧ 4 * count ≤ b.stack ∧
      stringsRead count.toNat (l.drop 4) = count.toNat)

/-- The counts that `dispatchInts` deals with.  From `2^30` on the array is smaller
than the count, and the numbers must end inside of it. -/
def IntsCountGood (b : Build) (l : List UInt8) (count : Int) : Prop :=
  count = 0 ∨ (count < 0 ∧ count % 1073741824 = 0) ∨
    (0 < count ∧ count < 1073741824 ∧ 4 * count ≤ b.stack ∧ count ≤ parcelWords l) ∨
    (1073741824 ≤ count ∧ 4 * (count % 1073741824) ≤ b.stack ∧
      count % 1073741824 ≤ parcelWords l ∧ (l.drop 4).length / 4 < (count % 1073741824).toNat)

/-- The lengths that `dispatchRaw` deals with. -/
def RawLengthGood (l : List UInt8) (len : Int) : Prop :=
  len = -1 ∨ (0 ≤ len ∧ padSize len.toNat ≤ (l.drop 4).length)

/-- The counts that the two broadcast functions deal with. -/
def BroadcastCountGood (b : Build) (size : Nat) (l : List UInt8) (num : Int) : Prop :=
  (num < 0 ∧ num % 1073741824 = 0) ∨
    (0 ≤ num ∧ size * num < 4294967296 ∧ size * num + 4 * num ≤ b.stack ∧ num ≤ parcelWords l)

/-! ## Arithmetic of the counts -/

theorem int32At_range (l : List UInt8) : -2147483648 ≤ int32At l ∧ int32At l < 2147483648 := by
  have hbmod : ∀ x : Int, -2147483648 ≤ x.bmod 4294967296 ∧ x.bmod 4294967296 < 2147483648 := by
    intro x
    rw [Int.bmod_def]
    split <;> omega
  by_cases hl : 4 ≤ l.length
  · match l with
    | b₀ :: b₁ :: b₂ :: b₃ :: rest =>
        have heq : int32At (b₀ :: b₁ :: b₂ :: b₃ :: rest) = decodeInt32 b₀ b₁ b₂ b₃ := by
          simp only [int32At, takeLength, takeInt32, Option.getD_some]
        rw [heq]
        unfold decodeInt32
        exact hbmod _
  · have hzero : int32At l = 0 := by
      rw [int32At, takeLength, takeInt32_none (by omega)]
      rfl
    omega

theorem sizeTimes_four (count : Int) :
    sizeTimes 4 count = 4 * (count % 1073741824).toNat := by
  unfold sizeTimes
  omega

theorem readInt32_missing {l : List UInt8} {ok : Bool} (h : ¬4 ≤ l.length) (old : Int) :
    readInt32 old ⟨l, ok⟩ = (old, ⟨l, false⟩) := by
  simp [readInt32, takeInt32_none (by omega : l.length < 4)]

theorem readInt32_there {l : List UInt8} {ok : Bool} (h : 4 ≤ l.length) (old : Int) :
    readInt32 old ⟨l, ok⟩ = (int32At l, ⟨l.drop 4, true⟩) := by
  obtain ⟨v, hv⟩ := takeInt32_some h
  simp [readInt32, hv, int32At, takeLength]

theorem int32At_short {l : List UInt8} (h : ¬4 ≤ l.length) : int32At l = 0 := by
  rw [int32At, takeLength, takeInt32_none (by omega)]
  rfl

theorem validated_invalid {size read array : Nat} {l : List UInt8} :
    Validated .invalidCommandBlock size read array l ↔ array ≤ parcelWords l := by
  simp [Validated]

theorem validated_overrun {size read array : Nat} {l : List UInt8} :
    ¬Validated .overrun size read array l := by
  simp [Validated]

theorem validated_onRequest {size read array : Nat} {l : List UInt8} {d : RequestData} :
    Validated (.onRequest d) size read array l ↔
      d.datalen = size * read ∧ array ≤ parcelWords l := by
  simp [Validated]

/-! ## Arrays of numbers -/

/-- All numbers are there, and the array has room for them. -/
theorem intsLoop_complete (b : Build) (datalen : Nat) {n i : Nat} {c : Cursor}
    (hn : n ≤ c.rest.length / 4) (hroom : 4 * (i + n) ≤ datalen) :
    ∃ r, intsLoop b datalen n i c = .ok r := by
  induction n generalizing i c with
  | zero => exact ⟨[], rfl⟩
  | succ n ih =>
      have hv : readInt32 b.junk c = _ := readInt32_there (by omega) b.junk
      have hrest : n ≤ (c.rest.drop 4).length / 4 := by
        rw [List.length_drop]
        omega
      obtain ⟨r, hr⟩ := @ih (i + 1) ⟨c.rest.drop 4, true⟩ hrest (by omega)
      refine ⟨int32At c.rest :: r, ?_⟩
      simp only [intsLoop, hv, if_neg (by omega : ¬datalen < 4 * (i + 1)), Bool.not_true,
        Bool.false_eq_true, if_false, hr]
      rfl

/-- The numbers end before the count and inside of the array. -/
theorem intsLoop_missing (b : Build) (datalen : Nat) {n i : Nat} {c : Cursor}
    (hn : c.rest.length / 4 < n) (hroom : 4 * (i + c.rest.length / 4 + 1) ≤ datalen) :
    intsLoop b datalen n i c = .error .invalidCommandBlock := by
  induction n generalizing i c with
  | zero => omega
  | succ n ih =>
      by_cases hl : 4 ≤ c.rest.length
      · have hv : readInt32 b.junk c = _ := readInt32_there hl b.junk
        have hrest : (c.rest.drop 4).length / 4 + 1 = c.rest.length / 4 := by
          rw [List.length_drop]
          omega
        have hmissing := @ih (i + 1) ⟨c.rest.drop 4, true⟩ (by dsimp only; omega)
          (by dsimp only; omega)
        simp only [intsLoop, hv, if_neg (by omega : ¬datalen < 4 * (i + 1)), Bool.not_true,
          Bool.false_eq_true, if_false, hmissing]
        rfl
      · have hnone : readInt32 b.junk c = _ := readInt32_missing hl b.junk
        simp only [intsLoop, hnone, if_neg (by omega : ¬datalen < 4 * (i + 1)), Bool.not_false,
          if_true]

/-- The loop reaches the end of the array before the numbers end. -/
theorem intsLoop_overrun (b : Build) {e n i : Nat} {c : Cursor} (hi : i ≤ e) (hn : e < i + n)
    (he : e ≤ i + c.rest.length / 4) : intsLoop b (4 * e) n i c = .error .overrun := by
  induction n generalizing i c with
  | zero => omega
  | succ n ih =>
      by_cases hend : i = e
      · subst hend
        simp only [intsLoop, if_pos (by omega : 4 * i < 4 * (i + 1))]
      · have hv : readInt32 b.junk c = _ := readInt32_there (by omega) b.junk
        have hrest : (c.rest.drop 4).length / 4 + 1 = c.rest.length / 4 := by
          rw [List.length_drop]
          omega
        have hoverrun := @ih (i + 1) ⟨c.rest.drop 4, true⟩ (by omega) (by omega)
          (by dsimp only; omega)
        simp only [intsLoop, hv, if_neg (by omega : ¬4 * e < 4 * (i + 1)), Bool.not_true,
          Bool.false_eq_true, if_false, hoverrun]
        rfl

theorem dispatchInts_long {b : Build} {l : List UInt8} (hl : 4 ≤ l.length)
    (hzero : int32At l ≠ 0) :
    dispatchInts b ⟨l, true⟩ =
      if b.stack < sizeTimes 4 (int32At l) then .overrun
      else match intsLoop b (sizeTimes 4 (int32At l)) (int32At l).toNat 0 ⟨l.drop 4, true⟩ with
        | .ok r => .onRequest (.ints r (sizeTimes 4 (int32At l)))
        | .error e => e := by
  simp only [dispatchInts, readInt32_there hl]
  exact if_neg (by simp [hzero])

section IntsLoop

variable {b : Build} {l : List UInt8} {count : Int}

/-- What `dispatchInts` makes of a count whose array is on the stack. -/
def intsResult (b : Build) (l : List UInt8) (count : Int) : DispatchResult :=
  match intsLoop b (4 * (count % 1073741824).toNat) count.toNat 0 ⟨l.drop 4, true⟩ with
  | .ok r => .onRequest (.ints r (4 * (count % 1073741824).toNat))
  | .error e => e

/-- The loop has no turn, and the array should have no room. -/
theorem ints_validated_negative (hneg : count < 0) :
    Validated (intsResult b l count) 4 (recordsRead 4 count.toNat (l.drop 4))
        (count % 1073741824).toNat l ↔ count % 1073741824 = 0 := by
  have hnone : count.toNat = 0 := by omega
  unfold intsResult
  rw [hnone]
  simp only [intsLoop, validated_onRequest, RequestData.datalen, recordsRead]
  omega

/-- The array is as long as the count. -/
theorem ints_validated_small (hpos : 0 < count) (hsmall : count < 1073741824) :
    Validated (intsResult b l count) 4 (recordsRead 4 count.toNat (l.drop 4))
        (count % 1073741824).toNat l ↔ count ≤ parcelWords l := by
  unfold intsResult
  by_cases hthere : count.toNat ≤ (l.drop 4).length / 4
  · obtain ⟨r, hr⟩ := @intsLoop_complete b (4 * (count % 1073741824).toNat) count.toNat 0
      ⟨l.drop 4, true⟩ hthere (by omega)
    rw [hr]
    simp only [validated_onRequest, RequestData.datalen, recordsRead]
    omega
  · rw [intsLoop_missing b _ (by dsimp only; omega) (by dsimp only; omega)]
    simp only [validated_invalid]
    omega

/-- The numbers have to end before the array does. -/
theorem ints_validated_wrapped (hbig : 1073741824 ≤ count) :
    Validated (intsResult b l count) 4 (recordsRead 4 count.toNat (l.drop 4))
        (count % 1073741824).toNat l ↔
      count % 1073741824 ≤ parcelWords l ∧
        (l.drop 4).length / 4 < (count % 1073741824).toNat := by
  unfold intsResult
  by_cases hthere : (l.drop 4).length / 4 < (count % 1073741824).toNat
  · rw [intsLoop_missing b _ (by dsimp only; omega) (by dsimp only; omega)]
    simp only [validated_invalid]
    omega
  · rw [intsLoop_overrun b (by omega) (by omega) (by dsimp only; omega)]
    have hbad := @validated_overrun 4 (recordsRead 4 count.toNat (l.drop 4))
      (count % 1073741824).toNat l
    simp only [hbad, false_iff]
    omega

end IntsLoop

/-- **Counts of `dispatchInts`.** -/
theorem ints_validated_iff (b : Build) (l : List UInt8) :
    Validated (dispatchInts b ⟨l, true⟩) 4 (recordsRead 4 (int32At l).toNat (l.drop 4))
        (sizeTimes 4 (int32At l) / 4) l ↔
      IntsCountGood b l (int32At l) := by
  by_cases hl : 4 ≤ l.length
  · by_cases hzero : int32At l = 0
    · have hinvalid : dispatchInts b ⟨l, true⟩ = .invalidCommandBlock := by
        simp [dispatchInts, readInt32_there hl, hzero]
      rw [hinvalid, validated_invalid, hzero]
      simp [IntsCountGood, sizeTimes]
    · obtain ⟨hlow, hhigh⟩ := int32At_range l
      rw [dispatchInts_long hl hzero, sizeTimes_four]
      generalize int32At l = count at hzero hlow hhigh
      have hdiv : 4 * (count % 1073741824).toNat / 4 = (count % 1073741824).toNat := by omega
      rw [hdiv]
      change Validated (if _ then _ else intsResult b l count) 4 _ _ l ↔ _
      unfold IntsCountGood
      by_cases hstack : b.stack < 4 * (count % 1073741824).toNat
      · rw [if_pos hstack]
        have hbad := @validated_overrun 4 (recordsRead 4 count.toNat (l.drop 4))
          (count % 1073741824).toNat l
        simp only [hbad, false_iff]
        omega
      · rw [if_neg hstack]
        by_cases hneg : count < 0
        · rw [ints_validated_negative hneg]
          omega
        · by_cases hsmall : count < 1073741824
          · rw [ints_validated_small (by omega) hsmall]
            omega
          · rw [ints_validated_wrapped (by omega)]
            omega
  · have hinvalid : dispatchInts b ⟨l, true⟩ = .invalidCommandBlock := by
      simp [dispatchInts, readInt32_missing hl]
    rw [hinvalid, validated_invalid, int32At_short hl]
    simp [IntsCountGood, sizeTimes]

/-! ## Arrays of strings -/

theorem stringsRead_le (n : Nat) (l : List UInt8) : stringsRead n l ≤ n := by
  induction n generalizing l with
  | zero => exact Nat.le_refl 0
  | succ n ih =>
      have := ih (skipString l)
      simp only [stringsRead]
      split <;> omega

theorem takePadded_length {n : Nat} {l text rest : List UInt8}
    (h : takePadded n l = some (text, rest)) : rest.length ≤ l.length := by
  unfold takePadded at h
  split at h
  · obtain ⟨-, rfl⟩ := Prod.mk.inj (Option.some.inj h)
    rw [List.length_drop]
    omega
  · cases h

/-- An intact string takes up its length word at least. -/
theorem readText_skip {l : List UInt8} (h : (readText l).isSome = true) :
    (skipString l).length + 4 ≤ l.length := by
  have hlength := readText_length h
  obtain ⟨v, hv⟩ := takeInt32_some hlength
  have htake : takeLength l = (v, l.drop 4) := by
    simp [takeLength, hv]
  have hdrop : (l.drop 4).length + 4 = l.length := by
    rw [List.length_drop]
    omega
  unfold skipString takeString
  rw [htake]
  dsimp only
  split
  · split
    · rename_i text rest hpad
      have := takePadded_length hpad
      dsimp only
      omega
    · exact Nat.le_of_eq hdrop
  · exact Nat.le_of_eq hdrop

theorem stringsRead_length {n : Nat} {l : List UInt8} (h : stringsRead n l = n) :
    4 * n ≤ l.length := by
  induction n generalizing l with
  | zero => omega
  | succ n ih =>
      have hle := stringsRead_le n (skipString l)
      simp only [stringsRead] at h
      split at h
      · rename_i hthere
        have := @ih (skipString l) (by omega)
        have := readText_skip hthere
        omega
      · omega

theorem dispatchStrings_long {b : Build} {l : List UInt8} (hl : 4 ≤ l.length) :
    dispatchStrings b ⟨l, true⟩ =
      ((readStrings b (int32At l) ⟨l.drop 4, true⟩).map fun x =>
        DispatchResult.onRequest (.strings x.1 x.2)).getD .overrun := by
  simp only [dispatchStrings, readInt32_there hl]
  cases readStrings b (int32At l) ⟨l.drop 4, true⟩ with
  | none => rfl
  | some x => rfl

/-- **Counts of `dispatchStrings`.** -/
theorem strings_validated_iff (b : Build) (l : List UInt8) :
    Validated (dispatchStrings b ⟨l, true⟩) 4 (stringsRead (int32At l).toNat (l.drop 4))
        (stringsArray (int32At l)) l ↔
      StringsCountGood b l (int32At l) := by
  have hwords : 1 ≤ parcelWords l := by
    unfold parcelWords
    omega
  by_cases hl : 4 ≤ l.length
  · obtain ⟨hlow, hhigh⟩ := int32At_range l
    rw [dispatchStrings_long hl]
    generalize int32At l = count at hlow hhigh
    unfold StringsCountGood
    by_cases hzero : count = 0
    · subst hzero
      simp [readStrings, validated_onRequest, RequestData.datalen, stringsRead, stringsArray, hwords]
    by_cases hnull : count = -1
    · subst hnull
      simp [readStrings, validated_onRequest, RequestData.datalen, stringsRead, stringsArray]
    have harray : stringsArray count = (count % 1073741824).toNat := by
      rw [stringsArray, if_neg hzero, if_neg hnull, sizeTimes_four]
      omega
    rw [harray]
    by_cases hfit : sizeTimes 4 count ≤ b.stack ∧ 4 * count ≤ (sizeTimes 4 count : Int)
    · have hsome : readStrings b count ⟨l.drop 4, true⟩ =
          some (some (stringsLoop count.toNat ⟨l.drop 4, true⟩), sizeTimes 4 count) := by
        simp [readStrings, hzero, hnull, hfit]
      rw [hsome]
      rw [sizeTimes_four] at hfit ⊢
      simp only [Option.map_some, Option.getD_some, validated_onRequest, RequestData.datalen]
      by_cases hneg : count < 0
      · have hnone : count.toNat = 0 := by omega
        rw [hnone]
        simp only [stringsRead]
        omega
      · have hread := @stringsRead_length count.toNat (l.drop 4)
        rw [List.length_drop] at hread
        unfold parcelWords
        omega
    · have hnone : readStrings b count ⟨l.drop 4, true⟩ = none := by
        simp only [readStrings, hzero, hnull, if_false, hfit]
      rw [hnone, Option.map_none, Option.getD_none]
      have hbad := @validated_overrun 4 (stringsRead count.toNat (l.drop 4))
        (count % 1073741824).toNat l
      rw [sizeTimes_four] at hfit
      simp only [hbad, false_iff]
      omega
  · have hinvalid : dispatchStrings b ⟨l, true⟩ = .invalidCommandBlock := by
      simp [dispatchStrings, readInt32_missing hl]
    rw [hinvalid, validated_invalid, int32At_short hl]
    simp [StringsCountGood, stringsArray, hwords]

/-! ## Bytes as they are -/

/-- **Lengths of `dispatchRaw`.**  It needs no array. -/
theorem raw_validated_iff (b : Build) (l : List UInt8) :
    Validated (dispatchRaw b ⟨l, true⟩) 1 (rawRead (int32At l) (l.drop 4)) 0 l ↔
      RawLengthGood l (int32At l) := by
  by_cases hl : 4 ≤ l.length
  · obtain ⟨hlow, hhigh⟩ := int32At_range l
    have hrequest : dispatchRaw b ⟨l, true⟩ =
        .onRequest (.raw (readInplace (if int32At l = -1 then 0 else int32At l)
          ⟨l.drop 4, true⟩).1 (if int32At l = -1 then 0 else int32At l)) := by
      simp only [dispatchRaw, readInt32_there hl, Bool.not_true, Bool.false_eq_true, if_false]
    rw [hrequest, validated_onRequest]
    generalize int32At l = len at hlow hhigh
    unfold RawLengthGood rawRead
    by_cases hnull : len = -1
    · simp [hnull, RequestData.datalen]
    · simp only [hnull, if_false, RequestData.datalen, false_or, Nat.zero_le, and_true]
      by_cases hthere : 0 ≤ len ∧ padSize len.toNat ≤ (l.drop 4).length
      · rw [if_pos hthere]
        simp only [hthere, and_self, iff_true]
        omega
      · rw [if_neg hthere]
        simp only [hthere, iff_false]
        intro hlen
        apply hthere
        obtain rfl : len = 0 := by omega
        exact ⟨Int.le_refl 0, Nat.zero_le _⟩
  · have hinvalid : dispatchRaw b ⟨l, true⟩ = .invalidCommandBlock := by
      simp [dispatchRaw, readInt32_missing hl]
    rw [hinvalid, validated_invalid, int32At_short hl]
    simp [RawLengthGood, padSize]

/-! ## Broadcast configurations -/

theorem arraysFit_iff (b : Build) (size : Nat) (num : Int) :
    arraysFit b size num = true ↔
      sizeTimes size num + sizeTimes 4 num ≤ b.stack ∧ size * num ≤ sizeTimes size num := by
  simp [arraysFit]

/-- The sizes of the two records are multiples of 4. -/
theorem sizeTimes_wrapped {size : Nat} (hsize : size = 20 ∨ size = 12) {num : Int}
    (hnum : num % 1073741824 = 0) : sizeTimes size num = 0 := by
  unfold sizeTimes
  rcases hsize with rfl | rfl <;> omega

theorem sizeTimes_small {size : Nat} {num : Int} (hlow : 0 ≤ num)
    (hhigh : size * num < 4294967296) : sizeTimes size num = size * num.toNat := by
  obtain ⟨n, rfl⟩ := Int.eq_ofNat_of_zero_le hlow
  rw [← Int.natCast_mul] at hhigh
  rw [sizeTimes, ← Int.natCast_mul, Int.emod_eq_of_lt (Int.natCast_nonneg _) hhigh,
    Int.toNat_natCast, Int.toNat_natCast]

/-- A negative count leaves the loop at once; the arrays exist when its product
with 4 wraps around to nothing. -/
theorem broadcast_negative {b : Build} {size : Nat} (hsize : size = 20 ∨ size = 12) {num : Int}
    (hneg : num < 0) (hnum : num % 1073741824 = 0) : arraysFit b size num = true := by
  rw [arraysFit_iff, sizeTimes_wrapped hsize hnum, sizeTimes_four, hnum]
  rcases hsize with rfl | rfl <;> constructor <;> omega

theorem broadcast_fits_iff {b : Build} {size : Nat} (hsize : size = 20 ∨ size = 12) {num : Int}
    (hlow : 0 ≤ num) :
    arraysFit b size num = true ↔
      size * num < 4294967296 ∧ size * num + 4 * num ≤ b.stack := by
  rw [arraysFit_iff]
  by_cases hsmall : size * num < 4294967296
  · rw [sizeTimes_small hlow hsmall, sizeTimes_four]
    rcases hsize with rfl | rfl <;> omega
  · have hlt : sizeTimes size num < 4294967296 := by
      unfold sizeTimes
      omega
    simp only [hsmall, false_and, iff_false]
    rintro ⟨-, hroom⟩
    omega

section Broadcast

variable {b : Build} {l : List UInt8} {size : Nat} {num : Int} {d : RequestData}

/-- A negative count gives no turn, and arrays that should have no room. -/
theorem broadcast_validated_negative (hsize : size = 20 ∨ size = 12) (hneg : num < 0)
    (hdatalen : d.datalen = sizeTimes 4 num) :
    Validated (if !arraysFit b size num then .overrun else .onRequest d) 4 0
        (broadcastArray size num) l ↔ num % 1073741824 = 0 := by
  by_cases hnum : num % 1073741824 = 0
  · have harray : broadcastArray size num = 0 := by
      simp [broadcastArray, sizeTimes_wrapped hsize hnum, sizeTimes_four, hnum]
    rw [broadcast_negative hsize hneg hnum, harray]
    simp [validated_onRequest, hdatalen, sizeTimes_four, hnum]
  · simp only [hnum, iff_false]
    cases arraysFit b size num with
    | false => exact validated_overrun
    | true =>
        simp only [Bool.not_true, Bool.false_eq_true, if_false, validated_onRequest, hdatalen,
          sizeTimes_four]
        omega

/-- With both arrays on the stack a request that is made has as many entries as counted. -/
theorem broadcast_validated_fitting (hsize : size = 20 ∨ size = 12) (hpos : 0 ≤ num)
    (hsmall : size * num < 4294967296) {ok : Bool}
    (hok : ok = true ↔ num.toNat = 0 ∨ (0 < num.toNat ∧ size * num.toNat ≤ (l.drop 4).length))
    (hdatalen : d.datalen = sizeTimes 4 num) :
    Validated (if !ok then .invalidCommandBlock else .onRequest d) 4
        (recordsRead size num.toNat (l.drop 4)) (broadcastArray size num) l ↔
      num.toNat ≤ parcelWords l := by
  have hcount : (num % 1073741824).toNat = num.toNat := by
    rcases hsize with rfl | rfl <;> omega
  have harray : broadcastArray size num = num.toNat := by
    rw [broadcastArray, sizeTimes_small (by omega) hsmall, sizeTimes_four, hcount]
    rcases hsize with rfl | rfl <;> omega
  rw [harray]
  cases hloop : ok with
  | false => exact validated_invalid
  | true =>
      have hthere := hok.mp hloop
      have hread : recordsRead size num.toNat (l.drop 4) = num.toNat := by
        unfold recordsRead
        rcases hsize with rfl | rfl <;> omega
      simp only [Bool.not_true, Bool.false_eq_true, if_false, validated_onRequest, hdatalen,
        sizeTimes_four, hcount, hread, true_and]

/-- Both broadcast functions: `size` is 20 or 12, and the records are there when
the last number is. -/
theorem broadcast_validated_iff {result : DispatchResult} {ok : Bool}
    (hsize : size = 20 ∨ size = 12)
    (hresult : result = if !arraysFit b size num then .overrun
      else if !ok then .invalidCommandBlock else .onRequest d)
    (hok : ok = true ↔ num.toNat = 0 ∨ (0 < num.toNat ∧ size * num.toNat ≤ (l.drop 4).length))
    (hdatalen : d.datalen = sizeTimes 4 num) :
    Validated result 4 (recordsRead size num.toNat (l.drop 4)) (broadcastArray size num) l ↔
      BroadcastCountGood b size l num := by
  rw [hresult]
  by_cases hneg : num < 0
  · have hnone : num.toNat = 0 := by omega
    have hloop : ok = true := hok.mpr (.inl hnone)
    have hgood : BroadcastCountGood b size l num ↔ num % 1073741824 = 0 := by
      unfold BroadcastCountGood
      omega
    rw [hgood, hloop, hnone]
    exact broadcast_validated_negative hsize hneg hdatalen
  · have hfits := @broadcast_fits_iff b size hsize num (by omega)
    cases hfit : arraysFit b size num with
    | false =>
        have hnot := hfits.not.mp (by simp [hfit])
        constructor
        · intro hbad
          exact absurd hbad validated_overrun
        · rintro (hgood | ⟨-, hgood, hstack, -⟩)
          · exact absurd hgood.1 hneg
          · exact absurd ⟨hgood, hstack⟩ hnot
    | true =>
        obtain ⟨hsmall, hstack⟩ := hfits.mp hfit
        have hgood : BroadcastCountGood b size l num ↔ num.toNat ≤ parcelWords l := by
          unfold BroadcastCountGood
          omega
        rw [hgood]
        exact broadcast_validated_fitting hsize (by omega) hsmall hok hdatalen

end Broadcast

/-- **Counts of the two broadcast functions.** -/
theorem gsmBrSmsCnf_validated_iff (b : Build) (l : List UInt8) :
    Validated (dispatchGsmBrSmsCnf b ⟨l, true⟩) 4
        (recordsRead gsmBroadcastSize (int32At l).toNat (l.drop 4))
        (broadcastArray gsmBroadcastSize (int32At l)) l ↔
      BroadcastCountGood b gsmBroadcastSize l (int32At l) := by
  by_cases hl : 4 ≤ l.length
  · have hloop := @gsmBrLoop_ok (int32At l).toNat b.junk ⟨l.drop 4, true⟩ _ (Alike.refl _)
    rcases hentries : gsmBrLoop (int32At l).toNat b.junk ⟨l.drop 4, true⟩ with ⟨entries, c⟩
    rw [hentries] at hloop
    simp only [and_true] at hloop
    have hresult : dispatchGsmBrSmsCnf b ⟨l, true⟩ =
        if !arraysFit b gsmBroadcastSize (int32At l) then .overrun
        else if !c.ok then .invalidCommandBlock
        else .onRequest (.gsmBrSmsCnf entries (sizeTimes 4 (int32At l))) := by
      simp only [dispatchGsmBrSmsCnf, readInt32_there hl, hentries, Bool.not_true,
        Bool.false_eq_true, if_false]
    exact broadcast_validated_iff (.inl rfl) hresult hloop rfl
  · have hinvalid : dispatchGsmBrSmsCnf b ⟨l, true⟩ = .invalidCommandBlock := by
      simp [dispatchGsmBrSmsCnf, readInt32_missing hl]
    rw [hinvalid, validated_invalid, int32At_short hl]
    simp [BroadcastCountGood, broadcastArray, sizeTimes]

theorem cdmaBrSmsCnf_validated_iff (b : Build) (l : List UInt8) :
    Validated (dispatchCdmaBrSmsCnf b ⟨l, true⟩) 4
        (recordsRead cdmaBroadcastSize (int32At l).toNat (l.drop 4))
        (broadcastArray cdmaBroadcastSize (int32At l)) l ↔
      BroadcastCountGood b cdmaBroadcastSize l (int32At l) := by
  by_cases hl : 4 ≤ l.length
  · have hloop := @cdmaBrLoop_ok (int32At l).toNat b.junk ⟨l.drop 4, true⟩ _ (Alike.refl _)
    rcases hentries : cdmaBrLoop (int32At l).toNat b.junk ⟨l.drop 4, true⟩ with ⟨entries, c⟩
    rw [hentries] at hloop
    simp only [and_true] at hloop
    have hresult : dispatchCdmaBrSmsCnf b ⟨l, true⟩ =
        if !arraysFit b cdmaBroadcastSize (int32At l) then .overrun
        else if !c.ok then .invalidCommandBlock
        else .onRequest (.cdmaBrSmsCnf entries (sizeTimes 4 (int32At l))) := by
      simp only [dispatchCdmaBrSmsCnf, readInt32_there hl, hentries, Bool.not_true,
        Bool.false_eq_true, if_false]
    exact broadcast_validated_iff (.inr rfl) hresult hloop rfl
  · have hinvalid : dispatchCdmaBrSmsCnf b ⟨l, true⟩ = .invalidCommandBlock := by
      simp [dispatchCdmaBrSmsCnf, readInt32_missing hl]
    rw [hinvalid, validated_invalid, int32At_short hl]
    simp [BroadcastCountGood, broadcastArray, sizeTimes]

/-! ## All of them -/

/-- The counts of all five functions are validated in this parcel. -/
def CountsValidated (b : Build) (l : List UInt8) : Prop :=
  Validated (dispatchStrings b ⟨l, true⟩) 4 (stringsRead (int32At l).toNat (l.drop 4))
      (stringsArray (int32At l)) l ∧
    Validated (dispatchInts b ⟨l, true⟩) 4 (recordsRead 4 (int32At l).toNat (l.drop 4))
      (sizeTimes 4 (int32At l) / 4) l ∧
    Validated (dispatchRaw b ⟨l, true⟩) 1 (rawRead (int32At l) (l.drop 4)) 0 l ∧
    Validated (dispatchGsmBrSmsCnf b ⟨l, true⟩) 4
      (recordsRead gsmBroadcastSize (int32At l).toNat (l.drop 4))
      (broadcastArray gsmBroadcastSize (int32At l)) l ∧
    Validated (dispatchCdmaBrSmsCnf b ⟨l, true⟩) 4
      (recordsRead cdmaBroadcastSize (int32At l).toNat (l.drop 4))
      (broadcastArray cdmaBroadcastSize (int32At l)) l

/-- **Counts that need no check.**  Each of the five functions does what a check
of its count would do for the counts of its own condition, and for no others. -/
theorem counts_validated_iff (b : Build) (l : List UInt8) :
    (Validated (dispatchStrings b ⟨l, true⟩) 4 (stringsRead (int32At l).toNat (l.drop 4))
        (stringsArray (int32At l)) l ↔ StringsCountGood b l (int32At l)) ∧
      (Validated (dispatchInts b ⟨l, true⟩) 4 (recordsRead 4 (int32At l).toNat (l.drop 4))
        (sizeTimes 4 (int32At l) / 4) l ↔ IntsCountGood b l (int32At l)) ∧
      (Validated (dispatchRaw b ⟨l, true⟩) 1 (rawRead (int32At l) (l.drop 4)) 0 l ↔
        RawLengthGood l (int32At l)) ∧
      (Validated (dispatchGsmBrSmsCnf b ⟨l, true⟩) 4
        (recordsRead gsmBroadcastSize (int32At l).toNat (l.drop 4))
        (broadcastArray gsmBroadcastSize (int32At l)) l ↔
          BroadcastCountGood b gsmBroadcastSize l (int32At l)) ∧
      (Validated (dispatchCdmaBrSmsCnf b ⟨l, true⟩) 4
        (recordsRead cdmaBroadcastSize (int32At l).toNat (l.drop 4))
        (broadcastArray cdmaBroadcastSize (int32At l)) l ↔
          BroadcastCountGood b cdmaBroadcastSize l (int32At l)) :=
  ⟨strings_validated_iff b l, ints_validated_iff b l, raw_validated_iff b l,
    gsmBrSmsCnf_validated_iff b l, cdmaBrSmsCnf_validated_iff b l⟩

/-- Two strings are announced and none is sent: the vendor gets a length of 8 and
two null pointers. -/
theorem missing_strings_dispatched :
    ¬∀ (b : Build) (l : List UInt8), CountsValidated b l := by
  intro hall
  have hbad := (strings_validated_iff plainBuild (encodeInt32 2)).mp
    (hall plainBuild (encodeInt32 2)).1
  have hcount : int32At (encodeInt32 2) = 2 := by decide
  have hread : stringsRead 2 ((encodeInt32 2).drop 4) = 0 := by decide
  rw [hcount] at hbad
  rcases hbad with hbad | hbad | hbad | ⟨-, -, -, hbad⟩
  · omega
  · omega
  · omega
  · exact absurd (hread.symm.trans hbad) (by decide)

end Libril
