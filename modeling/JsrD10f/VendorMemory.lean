import JsrD10f.ResponseFunctions

/-!
# The vendor's buffer as bytes

The response functions get the buffer as bytes and cast the pointer.  Here the
memory from the response pointer on is a function from offsets to bytes, defined
beyond the end of the buffer too, because a function may well look there.  A field
is an offset, and the offsets of the structures come from `ril.h`.

A pass over the buffer is recorded with the bytes it appends to the parcel and the
list of its accesses.  `Inside` says that all of them lie in the buffer.  The texts
that pointers in the buffer lead to are memory of their own.
-/

namespace Libril.VendorMemory

open Parcel Responses

/-! ## Words in memory -/

/-- The bytes from the response pointer on. -/
abbrev Memory := Nat → UInt8

/-- The `int` at an offset. -/
def word (mem : Memory) (off : Nat) : Int :=
  decodeInt32 (mem off) (mem (off + 1)) (mem (off + 2)) (mem (off + 3))

/-- The `int` at an offset is replaced. -/
def store (mem : Memory) (off : Nat) (v : Int) : Memory := fun q =>
  if off ≤ q then ((encodeInt32 v)[q - off]?).getD (mem q) else mem q

/-- Two `int`s share no byte. -/
def WordsApart (off off' : Nat) : Prop :=
  off + 4 ≤ off' ∨ off' + 4 ≤ off

theorem word_congr {mem mem' : Memory} {off : Nat}
    (h : ∀ q, off ≤ q → q < off + 4 → mem q = mem' q) : word mem off = word mem' off := by
  have h₀ := h off (Nat.le_refl _) (by omega)
  have h₁ := h (off + 1) (by omega) (by omega)
  have h₂ := h (off + 2) (by omega) (by omega)
  have h₃ := h (off + 3) (by omega) (by omega)
  rw [word, word, h₀, h₁, h₂, h₃]

theorem word_isInt32 (mem : Memory) (off : Nat) : IsInt32 (word mem off) :=
  isInt32_decodeInt32 _ _ _ _

theorem store_of_lt {mem : Memory} {off q : Nat} (v : Int) (h : q < off) :
    store mem off v q = mem q := by
  rw [store, if_neg (by omega)]

theorem store_of_ge {mem : Memory} {off q : Nat} (v : Int) (h : off + 4 ≤ q) :
    store mem off v q = mem q := by
  rw [store, if_pos (by omega), List.getElem?_eq_none (by simp [encodeInt32]; omega)]
  rfl

theorem word_store_self (mem : Memory) (off : Nat) {v : Int} (hv : IsInt32 v) :
    word (store mem off v) off = v := by
  have hbyte (k : Nat) :
      store mem off v (off + k) = ((encodeInt32 v)[k]?).getD (mem (off + k)) := by
    rw [store, if_pos (Nat.le_add_right off k), Nat.add_sub_cancel_left]
  have hfirst := hbyte 0
  rw [Nat.add_zero] at hfirst
  have htake := takeInt32_encodeInt32 hv.1 hv.2 []
  rw [word, hfirst, hbyte 1, hbyte 2, hbyte 3]
  simp only [encodeInt32, List.cons_append, List.nil_append, takeInt32, Option.some.injEq,
    Prod.mk.injEq, and_true] at htake
  simpa [encodeInt32] using htake

theorem word_store_of_apart (mem : Memory) {off off' : Nat} (v : Int) (h : WordsApart off off') :
    word (store mem off v) off' = word mem off' := by
  apply word_congr
  intro q hlow hhigh
  rcases h with h | h
  · exact store_of_ge v (by omega)
  · exact store_of_lt v (by omega)

/-! ## Passes over the buffer -/

/-- The bytes that were appended to the parcel, and the accesses to the buffer in
their order, each with its offset and its number of bytes. -/
structure Pass where
  written : List UInt8
  reads : List (Nat × Nat)
deriving Repr

namespace Pass

instance : Append Pass :=
  ⟨fun p q => ⟨p.written ++ q.written, p.reads ++ q.reads⟩⟩

@[simp] theorem written_append (p q : Pass) : (p ++ q).written = p.written ++ q.written := rfl

@[simp] theorem reads_append (p q : Pass) : (p ++ q).reads = p.reads ++ q.reads := rfl

/-- A number that is not from the buffer. -/
def const (v : Int) : Pass :=
  ⟨encodeInt32 v, []⟩

/-- An access that writes nothing. -/
def peek (off : Nat) : Pass :=
  ⟨[], [(off, 4)]⟩

def int (mem : Memory) (off : Nat) : Pass :=
  ⟨encodeInt32 (word mem off), [(off, 4)]⟩

def char (mem : Memory) (off : Nat) : Pass :=
  ⟨writeChar (mem off), [(off, 1)]⟩

/-- The text at an address, where `strings` is the memory behind the pointers. -/
def textAt (strings : Int → List UInt16) (pointer : Int) : Text :=
  if pointer = 0 then none else some (strings pointer)

/-- A pointer of the buffer is read and followed. -/
def string (strings : Int → List UInt16) (mem : Memory) (off : Nat) : Pass :=
  ⟨writeStringToParcel (textAt strings (word mem off)), [(off, 4)]⟩

/-- A loop with `n` turns. -/
def records (record : Nat → Pass) (n : Nat) : Pass :=
  ⟨writeRecords (fun i => (record i).written) n, (List.range n).flatMap fun i => (record i).reads⟩

@[simp] theorem written_const (v : Int) : (const v).written = encodeInt32 v := rfl

@[simp] theorem written_peek (off : Nat) : (peek off).written = [] := rfl

@[simp] theorem written_int (mem : Memory) (off : Nat) :
    (int mem off).written = encodeInt32 (word mem off) := rfl

@[simp] theorem written_string (strings : Int → List UInt16) (mem : Memory) (off : Nat) :
    (string strings mem off).written =
      writeStringToParcel (textAt strings (word mem off)) := by
  rw [string]

@[simp] theorem written_records (record : Nat → Pass) (n : Nat) :
    (records record n).written = writeRecords (fun i => (record i).written) n := rfl

/-- All accesses lie in the first `len` bytes. -/
def Inside (len : Nat) (p : Pass) : Prop :=
  ∀ r ∈ p.reads, r.1 + r.2 ≤ len

@[simp] theorem inside_append (len : Nat) (p q : Pass) :
    (p ++ q).Inside len ↔ p.Inside len ∧ q.Inside len := by
  simp only [Inside, reads_append, List.mem_append]
  constructor
  · intro h
    exact ⟨fun r hr => h r (.inl hr), fun r hr => h r (.inr hr)⟩
  · rintro ⟨hp, hq⟩ r (hr | hr)
    · exact hp r hr
    · exact hq r hr

@[simp] theorem inside_const (len : Nat) (v : Int) : (const v).Inside len := by
  simp [Inside, const]

@[simp] theorem inside_peek (len off : Nat) : (peek off).Inside len ↔ off + 4 ≤ len := by
  simp [Inside, peek]

@[simp] theorem inside_int (len : Nat) (mem : Memory) (off : Nat) :
    (int mem off).Inside len ↔ off + 4 ≤ len := by
  simp [Inside, int]

@[simp] theorem inside_char (len : Nat) (mem : Memory) (off : Nat) :
    (char mem off).Inside len ↔ off + 1 ≤ len := by
  simp [Inside, char]

@[simp] theorem inside_string (len : Nat) (strings : Int → List UInt16) (mem : Memory)
    (off : Nat) : (string strings mem off).Inside len ↔ off + 4 ≤ len := by
  simp [Inside, string]

@[simp] theorem inside_records (len : Nat) (record : Nat → Pass) (n : Nat) :
    (records record n).Inside len ↔ ∀ i < n, (record i).Inside len := by
  simp only [Inside, records, List.mem_flatMap, List.mem_range, forall_exists_index, and_imp]
  constructor
  · intro h i hi r hr
    exact h r i hi hr
  · intro h r i hi hr
    exact h i hi r hr

end Pass

/-- Records of one size lie in the buffer exactly if the last of them does. -/
theorem forall_records_end_iff (base size len n : Nat) :
    (∀ i < n, base + i * size + size ≤ len) ↔ n = 0 ∨ base + n * size ≤ len := by
  cases n with
  | zero => simp
  | succ n =>
      simp only [Nat.succ_ne_zero, false_or, Nat.succ_mul, ← Nat.add_assoc]
      constructor
      · intro h
        exact h n (Nat.lt_succ_self n)
      · intro h i hi
        have hmul := Nat.mul_le_mul_right size (Nat.lt_succ_iff.mp hi)
        omega

/-! ## Results -/

/-- What a response function returns, and its pass. -/
structure Encoded where
  ret : Int
  pass : Pass

/-- The part that the parcel and the caller get to see. -/
def Encoded.marshalled (e : Encoded) : Marshalled :=
  ⟨e.ret, e.pass.written⟩

def encoded (pass : Pass) : Encoded :=
  ⟨0, pass⟩

/-- `return RIL_ERRNO_INVALID_RESPONSE` before anything is written. -/
def rejected : Encoded :=
  ⟨-1, ⟨[], []⟩⟩

@[simp] theorem marshalled_encoded (pass : Pass) :
    (encoded pass).marshalled = success pass.written := rfl

@[simp] theorem marshalled_rejected : rejected.marshalled = invalidResponse [] := rfl

/-- The response is rejected, or the accesses lie in the `len` bytes of the buffer.  A
function that follows a null pointer has no result. -/
def StaysInside (len : Nat) (r : Option Encoded) : Prop :=
  ∃ e, r = some e ∧ (e.ret = -1 ∨ e.pass.Inside len)

@[simp] theorem staysInside_none (len : Nat) : ¬ StaysInside len none := by
  rintro ⟨e, he, -⟩
  cases he

@[simp] theorem staysInside_rejected (len : Nat) : StaysInside len (some rejected) :=
  ⟨rejected, rfl, .inl rfl⟩

@[simp] theorem staysInside_encoded (len : Nat) (pass : Pass) :
    StaysInside len (some (encoded pass)) ↔ pass.Inside len := by
  constructor
  · rintro ⟨e, he, hret | hinside⟩
    · cases he
      cases hret
    · cases he
      exact hinside
  · intro h
    exact ⟨encoded pass, rfl, .inr h⟩

end Libril.VendorMemory
