import Mathlib.Data.List.Basic
import Mathlib.Data.List.TakeDrop

/-!
# Reading a parcel

A parcel is a byte sequence that is read front to back.  Numbers are four
bytes, little end first; everything else is padded to a multiple of four.  A
read that finds too few bytes fails and consumes nothing, with one exception:
reading a string first consumes its length, and keeps that when the characters
are missing.  The readers are those of Android 4.4.

A failed number leaves its variable as it was, so a caller that checks only its
last status goes on with old values.  `Alike` is what makes such callers
tractable: once fewer than four bytes are left, no later read succeeds, and the
exact bytes no longer matter.
-/

namespace Parcel

/-- The bytes behind the position of a parcel, and the status of the last read
that reports one. -/
structure Cursor where
  rest : List UInt8
  ok : Bool
deriving DecidableEq, Repr

/-- The value of four bytes as an `int32_t`. -/
def decodeInt32 (b₀ b₁ b₂ b₃ : UInt8) : Int :=
  Int.bmod ((b₀.toNat + 256 * b₁.toNat + 65536 * b₂.toNat + 16777216 * b₃.toNat : Nat) : Int)
    4294967296

/-- `writeInt32`. -/
def encodeInt32 (v : Int) : List UInt8 :=
  [.ofNat (v % 256).toNat, .ofNat (v / 256 % 256).toNat, .ofNat (v / 65536 % 256).toNat,
    .ofNat (v / 16777216 % 256).toNat]

/-- The number at the front, and the bytes behind it. -/
def takeInt32 : List UInt8 → Option (Int × List UInt8)
  | b₀ :: b₁ :: b₂ :: b₃ :: rest => some (decodeInt32 b₀ b₁ b₂ b₃, rest)
  | _ => none

/-- `PAD_SIZE`. -/
def padSize (len : Nat) : Nat :=
  (len + 3) / 4 * 4

/-- `len` bytes at the front, and the bytes behind them and their padding. -/
def takePadded (len : Nat) (bytes : List UInt8) : Option (List UInt8 × List UInt8) :=
  if padSize len ≤ bytes.length then some (bytes.take len, bytes.drop (padSize len)) else none

/-- `readInt32(&v)`, where `v` holds `old` before. -/
def readInt32 (old : Int) (c : Cursor) : Int × Cursor :=
  match takeInt32 c.rest with
  | some (v, rest) => (v, ⟨rest, true⟩)
  | none => (old, { c with ok := false })

/-- `read(&v, 1)`. -/
def readByte (old : UInt8) (c : Cursor) : UInt8 × Cursor :=
  match takePadded 1 c.rest with
  | some (bytes, rest) => (bytes.headD old, ⟨rest, true⟩)
  | none => (old, { c with ok := false })

/-- `readInplace(len)`.  A negative length is a very large `size_t`. -/
def readInplace (len : Int) (c : Cursor) : Option (List UInt8) × Cursor :=
  if len < 0 then (none, c)
  else
    match takePadded len.toNat c.rest with
    | some (bytes, rest) => (some bytes, { c with rest := rest })
    | none => (none, c)

/-- The UTF-16 units in a byte sequence. -/
def units : List UInt8 → List UInt16
  | b₀ :: b₁ :: rest => .ofNat (b₀.toNat + 256 * b₁.toNat) :: units rest
  | _ => []

/-- The length word that a string read finds, 0 if there is none, and the bytes
behind it. -/
def takeLength (bytes : List UInt8) : Int × List UInt8 :=
  (takeInt32 bytes).getD (0, bytes)

/-- `readString16Inplace`: the text, or `NULL`, and the bytes behind.  There is
a zero unit behind the text. -/
def takeString (bytes : List UInt8) : Option (List UInt16) × List UInt8 :=
  let (size, rest) := takeLength bytes
  if 0 ≤ size ∧ size < 2147483647 then
    match takePadded ((size.toNat + 1) * 2) rest with
    | some (text, rest) => (some ((units text).take size.toNat), rest)
    | none => (none, rest)
  else (none, rest)

def readString (c : Cursor) : Option (List UInt16) × Cursor :=
  let (text, rest) := takeString c.rest
  (text, { c with rest := rest })

/-- The bytes behind a string. -/
def skipString (bytes : List UInt8) : List UInt8 :=
  (takeString bytes).2

def encodeUnit (u : UInt16) : List UInt8 :=
  [.ofNat (u.toNat % 256), .ofNat (u.toNat / 256)]

/-- `writeString16`. -/
def encodeString (text : List UInt16) : List UInt8 :=
  let bytes := (text ++ [0]).flatMap encodeUnit
  encodeInt32 text.length ++ bytes ++ List.replicate (padSize bytes.length - bytes.length) 0

/-- Two rests that every further read treats alike. -/
def Alike (a b : List UInt8) : Prop :=
  a = b ∨ (a.length < 4 ∧ b.length < 4)

theorem Alike.refl (a : List UInt8) : Alike a a :=
  Or.inl rfl

theorem Alike.trans {a b c : List UInt8} (hab : Alike a b) (hbc : Alike b c) : Alike a c := by
  rcases hab with rfl | ⟨ha, hb⟩
  · exact hbc
  · rcases hbc with rfl | ⟨_, hc⟩
    · exact Or.inr ⟨ha, hb⟩
    · exact Or.inr ⟨ha, hc⟩

theorem Alike.length_iff {a b : List UInt8} (h : Alike a b) {n : Nat} (hn : 4 ≤ n) :
    n ≤ a.length ↔ n ≤ b.length := by
  rcases h with rfl | ⟨ha, hb⟩
  · exact Iff.rfl
  · omega

theorem takeInt32_none {bytes : List UInt8} (h : bytes.length < 4) : takeInt32 bytes = none := by
  match bytes with
  | [] => rfl
  | [_] => rfl
  | [_, _] => rfl
  | [_, _, _] => rfl
  | _ :: _ :: _ :: _ :: _ => simp at h; omega

theorem takeInt32_some {bytes : List UInt8} (h : 4 ≤ bytes.length) :
    ∃ v, takeInt32 bytes = some (v, bytes.drop 4) := by
  match bytes with
  | b₀ :: b₁ :: b₂ :: b₃ :: rest => exact ⟨decodeInt32 b₀ b₁ b₂ b₃, rfl⟩

/-- A byte of a number. -/
theorem byte_toNat (v : Int) : ((UInt8.ofNat (v % 256).toNat).toNat : Int) = v % 256 := by
  rw [UInt8.toNat_ofNat']
  omega

/-- The four bytes of a number sum up to it. -/
theorem bytes_sum (v : Int) :
    (((UInt8.ofNat (v % 256).toNat).toNat + 256 * (UInt8.ofNat (v / 256 % 256).toNat).toNat +
      65536 * (UInt8.ofNat (v / 65536 % 256).toNat).toNat +
      16777216 * (UInt8.ofNat (v / 16777216 % 256).toNat).toNat : Nat) : Int) =
      v % 4294967296 := by
  simp only [Int.natCast_add, Int.natCast_mul, byte_toNat]
  have hlow : v % 65536 = v % 256 + 256 * (v / 256 % 256) := by omega
  have hhigh : v / 65536 % 65536 = v / 65536 % 256 + 256 * (v / 16777216 % 256) := by omega
  have hwhole : v % 4294967296 = v % 65536 + 65536 * (v / 65536 % 65536) := by omega
  rw [hwhole, hlow, hhigh]
  omega

/-- A number that was written is read back. -/
theorem takeInt32_encodeInt32 {v : Int} (hlow : -2147483648 ≤ v) (hhigh : v < 2147483648)
    (rest : List UInt8) : takeInt32 (encodeInt32 v ++ rest) = some (v, rest) := by
  have hmod : Int.bmod (v % 4294967296) 4294967296 = v :=
    (Int.emod_bmod v 4294967296).trans (Int.bmod_eq_of_le (by omega) (by omega))
  have hdecode : decodeInt32 (.ofNat (v % 256).toNat) (.ofNat (v / 256 % 256).toNat)
      (.ofNat (v / 65536 % 256).toNat) (.ofNat (v / 16777216 % 256).toNat) = v := by
    unfold decodeInt32
    rw [bytes_sum v]
    exact hmod
  simp only [encodeInt32, List.cons_append, List.nil_append, takeInt32]
  rw [hdecode]

/-- The values of an `int32_t`. -/
def IsInt32 (v : Int) : Prop :=
  -2147483648 ≤ v ∧ v < 2147483648

instance (v : Int) : Decidable (IsInt32 v) :=
  inferInstanceAs (Decidable (_ ∧ _))

theorem isInt32_decodeInt32 (b₀ b₁ b₂ b₃ : UInt8) : IsInt32 (decodeInt32 b₀ b₁ b₂ b₃) := by
  unfold decodeInt32 IsInt32
  generalize ((b₀.toNat + 256 * b₁.toNat + 65536 * b₂.toNat + 16777216 * b₃.toNat : Nat) : Int) = v
  have hlow := Int.le_bmod (x := v) (m := 4294967296) (by decide)
  have hhigh := Int.bmod_lt (x := v) (m := 4294967296) (by decide)
  omega

/-- The bytes of a number are those of its remainder. -/
theorem encodeInt32_bmod (v : Int) : encodeInt32 (Int.bmod v 4294967296) = encodeInt32 v := by
  obtain ⟨k, hk⟩ : ∃ k, Int.bmod v 4294967296 = v + 4294967296 * k := by
    refine ⟨-Int.bdiv v 4294967296, ?_⟩
    have hparts := Int.bmod_add_bdiv v 4294967296
    omega
  rw [hk]
  unfold encodeInt32
  have h₀ : (v + 4294967296 * k) % 256 = v % 256 := by omega
  have h₁ : (v + 4294967296 * k) / 256 % 256 = v / 256 % 256 := by omega
  have h₂ : (v + 4294967296 * k) / 65536 % 256 = v / 65536 % 256 := by omega
  have h₃ : (v + 4294967296 * k) / 16777216 % 256 = v / 16777216 % 256 := by omega
  rw [h₀, h₁, h₂, h₃]

theorem encodeInt32_decodeInt32 (b₀ b₁ b₂ b₃ : UInt8) :
    encodeInt32 (decodeInt32 b₀ b₁ b₂ b₃) = [b₀, b₁, b₂, b₃] := by
  have hb₀ := b₀.toNat_lt
  have hb₁ := b₁.toNat_lt
  have hb₂ := b₂.toNat_lt
  have hb₃ := b₃.toNat_lt
  unfold decodeInt32
  generalize hv : ((b₀.toNat + 256 * b₁.toNat + 65536 * b₂.toNat + 16777216 * b₃.toNat : Nat)
    : Int) = v
  rw [encodeInt32_bmod]
  unfold encodeInt32
  have h₀ : (v % 256).toNat = b₀.toNat := by omega
  have h₁ : (v / 256 % 256).toNat = b₁.toNat := by omega
  have h₂ : (v / 65536 % 256).toNat = b₂.toNat := by omega
  have h₃ : (v / 16777216 % 256).toNat = b₃.toNat := by omega
  simp only [h₀, h₁, h₂, h₃, UInt8.ofNat_toNat]

/-- A number that was written is read back, whatever stands behind it. -/
theorem readInt32_encodeInt32 {v : Int} (hv : IsInt32 v) (old : Int) (rest : List UInt8)
    (ok : Bool) : readInt32 old ⟨encodeInt32 v ++ rest, ok⟩ = (v, ⟨rest, true⟩) := by
  simp only [readInt32, takeInt32_encodeInt32 hv.1 hv.2]

/-- The number at the front of a byte sequence, 0 if there is none. -/
def int32At (bytes : List UInt8) : Int :=
  (takeLength bytes).1

theorem int32At_encodeInt32 {v : Int} (hv : IsInt32 v) (rest : List UInt8) :
    int32At (encodeInt32 v ++ rest) = v := by
  rw [int32At, takeLength, takeInt32_encodeInt32 hv.1 hv.2]
  rfl

/-- The number at the front does not depend on what stands behind it. -/
theorem int32At_append {a : List UInt8} (h : 4 ≤ a.length) (b : List UInt8) :
    int32At (a ++ b) = int32At a := by
  match a with
  | _ :: _ :: _ :: _ :: _ => rfl

theorem Alike.eq_of_le {a b : List UInt8} (h : Alike a b) (hb : 4 ≤ b.length) : a = b := by
  rcases h with heq | ⟨_, hshort⟩
  · exact heq
  · omega

theorem Alike.short {a b : List UInt8} (h : Alike a b) (hb : ¬ 4 ≤ b.length) (n : Nat) :
    Alike a (b.drop n) := by
  have ha : ¬ 4 ≤ a.length := (h.length_iff (Nat.le_refl 4)).not.mpr hb
  have hdrop := List.length_drop (l := b) (i := n)
  exact Or.inr ⟨by omega, by omega⟩

/-- A number read succeeds when there are four bytes, and gives their value. -/
theorem readInt32_spec {old v : Int} {c c' : Cursor} {l : List UInt8} (h : Alike c.rest l)
    (hread : readInt32 old c = (v, c')) :
    Alike c'.rest (l.drop 4) ∧ (c'.ok = true ↔ 4 ≤ l.length) ∧
      (4 ≤ l.length → v = int32At l) := by
  unfold readInt32 at hread
  by_cases hl : 4 ≤ l.length
  · obtain ⟨w, hw⟩ := takeInt32_some hl
    rw [h.eq_of_le hl, hw] at hread
    cases hread
    exact ⟨Alike.refl _, iff_of_true rfl hl, fun _ => by simp [int32At, takeLength, hw]⟩
  · have hc : c.rest.length < 4 := by
      have := (h.length_iff (Nat.le_refl 4)).not.mpr hl
      omega
    rw [takeInt32_none hc] at hread
    cases hread
    exact ⟨h.short hl 4, iff_of_false Bool.false_ne_true hl, fun hle => absurd hle hl⟩

theorem takePadded_one {bytes : List UInt8} :
    takePadded 1 bytes =
      if 4 ≤ bytes.length then some (bytes.take 1, bytes.drop 4) else none := rfl

/-- A byte takes the space of a number. -/
theorem readByte_spec {old v : UInt8} {c c' : Cursor} {l : List UInt8} (h : Alike c.rest l)
    (hread : readByte old c = (v, c')) :
    Alike c'.rest (l.drop 4) ∧ (c'.ok = true ↔ 4 ≤ l.length) ∧
      (4 ≤ l.length → v = l.headD 0) := by
  unfold readByte at hread
  rw [takePadded_one] at hread
  by_cases hl : 4 ≤ l.length
  · rw [h.eq_of_le hl, if_pos hl] at hread
    cases hread
    refine ⟨Alike.refl _, iff_of_true rfl hl, fun _ => ?_⟩
    match l with
    | b :: rest => rfl
  · rw [if_neg ((h.length_iff (Nat.le_refl 4)).not.mpr hl)] at hread
    cases hread
    exact ⟨h.short hl 4, iff_of_false Bool.false_ne_true hl, fun hle => absurd hle hl⟩

theorem takeString_short {bytes : List UInt8} (h : bytes.length < 4) :
    takeString bytes = (none, bytes) := by
  have hlen : takeLength bytes = (0, bytes) := by
    rw [takeLength, takeInt32_none h]
    rfl
  have hpad : takePadded ((Int.toNat 0 + 1) * 2) bytes = none := by
    rw [takePadded, if_neg]
    have hsize : padSize ((Int.toNat 0 + 1) * 2) = 4 := rfl
    omega
  simp only [takeString, hlen, hpad]
  rfl

/-- A string read keeps the status. -/
theorem readString_spec {text : Option (List UInt16)} {c c' : Cursor} {l : List UInt8}
    (h : Alike c.rest l) (hread : readString c = (text, c')) :
    Alike c'.rest (skipString l) ∧ c'.ok = c.ok ∧ text = (takeString l).1 := by
  unfold readString at hread
  rcases h with heq | ⟨hc, hl⟩
  · rw [heq] at hread
    cases hread
    exact ⟨Alike.refl _, rfl, rfl⟩
  · rw [takeString_short hc] at hread
    cases hread
    rw [skipString, takeString_short hl]
    exact ⟨Or.inr ⟨hc, hl⟩, rfl, rfl⟩

end Parcel
