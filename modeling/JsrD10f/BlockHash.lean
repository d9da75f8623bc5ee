import Mathlib.Data.List.Basic
import Mathlib.Algebra.Group.Nat.Defs

/-!
# Hashing a stream in blocks

An iterated hash takes a message in blocks of one size: a function `f` mixes each block
into a chaining value.  A program gets the message in pieces and keeps what does not
fill a block.  This file has the two numbers such a program tracks, the chaining value
after the whole blocks (`chain`) and the bytes after them (`rest`), and the rules for
another piece: a piece that does not fill the block is only kept (`chain_append_short`),
any other one completes the block and continues behind it (`chain_append_long`).  What
is appended last makes the message a whole number of blocks (`chain_append_whole`).
-/

namespace BlockHash

variable {σ α : Type*} (f : σ → List α → σ) (B : Nat)

/-- The first `n` blocks of a message. -/
def absorb : Nat → σ → List α → σ
  | 0, s, _ => s
  | n + 1, s, m => absorb n (f s (m.take B)) (m.drop B)

/-- All blocks of a message, without the bytes behind the last one. -/
def chain (s : σ) (m : List α) : σ :=
  absorb f B (m.length / B) s m

/-- The bytes behind the last whole block. -/
def rest (m : List α) : List α :=
  m.drop (m.length / B * B)

theorem absorb_add (n k : Nat) (s : σ) (m : List α) :
    absorb f B (n + k) s m = absorb f B k (absorb f B n s m) (m.drop (n * B)) := by
  induction n generalizing s m with
  | zero => simp [absorb]
  | succ n ih =>
      have hdrop : (m.drop B).drop (n * B) = m.drop ((n + 1) * B) := by
        rw [List.drop_drop, Nat.succ_mul, Nat.add_comm]
      rw [Nat.succ_add, absorb, ih, hdrop, absorb]

/-- What stands behind the blocks is not read. -/
theorem absorb_append {n : Nat} {m : List α} (h : n * B ≤ m.length) (s : σ) (m' : List α) :
    absorb f B n s (m ++ m') = absorb f B n s m := by
  induction n generalizing s m with
  | zero => rfl
  | succ n ih =>
      have hB : B ≤ m.length := by
        rw [Nat.succ_mul] at h
        omega
      have hrest : n * B ≤ (m.drop B).length := by
        rw [Nat.succ_mul] at h
        rw [List.length_drop]
        omega
      rw [absorb, List.take_append_of_le_length hB, List.drop_append_of_le_length hB, ih hrest,
        absorb]

variable {B}

theorem rest_length (m : List α) : (rest B m).length = m.length % B := by
  rw [rest, List.length_drop]
  have := Nat.mod_add_div' m.length B
  omega

theorem take_append_rest (m : List α) : m.take (m.length / B * B) ++ rest B m = m :=
  List.take_append_drop _ m

/-- A message of whole blocks and another message. -/
theorem chain_append_of_whole (hB : 0 < B) {m : List α} {n : Nat} (hm : m.length = n * B)
    (s : σ) (m' : List α) : chain f B s (m ++ m') = chain f B (chain f B s m) m' := by
  have hn : m.length / B = n := by rw [hm, Nat.mul_div_cancel n hB]
  have hsum : (m ++ m').length / B = n + m'.length / B := by
    rw [List.length_append, hm, Nat.mul_comm, Nat.mul_add_div hB]
  have hdrop : (m ++ m').drop (n * B) = m' := by rw [← hm, List.drop_left]
  rw [chain, hsum, absorb_add, hdrop, absorb_append f B (Nat.le_of_eq hm.symm), chain, chain, hn]

theorem rest_append_of_whole (hB : 0 < B) {m : List α} {n : Nat} (hm : m.length = n * B)
    (m' : List α) : rest B (m ++ m') = rest B m' := by
  have hsum : (m ++ m').length / B * B = m.length + m'.length / B * B := by
    rw [List.length_append, hm, Nat.mul_comm n, Nat.mul_add_div hB, Nat.add_mul, Nat.mul_comm B]
  rw [rest, hsum, List.drop_length_add_append, rest]

variable {f}

/-- The whole blocks of a message are behind its hash: it goes on from what is left. -/
theorem chain_append (hB : 0 < B) (s : σ) (m c : List α) :
    chain f B s (m ++ c) = chain f B (chain f B s m) (rest B m ++ c) := by
  have hlen : (m.take (m.length / B * B)).length = m.length / B * B :=
    List.length_take_of_le (Nat.div_mul_le_self _ _)
  have hwhole : chain f B s (m.take (m.length / B * B)) = chain f B s m := by
    rw [chain, hlen, Nat.mul_div_cancel _ hB,
      ← absorb_append f B (Nat.le_of_eq hlen.symm) s (rest B m), take_append_rest, chain]
  conv_lhs => rw [← take_append_rest (B := B) m, List.append_assoc]
  rw [chain_append_of_whole f hB hlen, hwhole]

theorem rest_append (hB : 0 < B) (m c : List α) : rest B (m ++ c) = rest B (rest B m ++ c) := by
  have hlen : (m.take (m.length / B * B)).length = m.length / B * B :=
    List.length_take_of_le (Nat.div_mul_le_self _ _)
  conv_lhs => rw [← take_append_rest (B := B) m, List.append_assoc]
  rw [rest_append_of_whole hB hlen]

theorem chain_of_lt {m : List α} (h : m.length < B) (s : σ) : chain f B s m = s := by
  rw [chain, Nat.div_eq_of_lt h, absorb]

theorem rest_of_lt {m : List α} (h : m.length < B) : rest B m = m := by
  rw [rest, Nat.div_eq_of_lt h, Nat.zero_mul, List.drop_zero]

theorem chain_of_length_eq (hB : 0 < B) {m : List α} (h : m.length = B) (s : σ) :
    chain f B s m = f s m := by
  rw [chain, h, Nat.div_self hB, absorb, absorb, ← h, List.take_length]

/-- A piece that does not fill the block. -/
theorem chain_append_short (hB : 0 < B) (s : σ) {m c : List α}
    (h : m.length % B + c.length < B) : chain f B s (m ++ c) = chain f B s m := by
  have hlen : (rest B m ++ c).length < B := by
    rw [List.length_append, rest_length]
    exact h
  rw [chain_append hB, chain_of_lt hlen]

theorem rest_append_short (hB : 0 < B) {m c : List α} (h : m.length % B + c.length < B) :
    rest B (m ++ c) = rest B m ++ c := by
  have hlen : (rest B m ++ c).length < B := by
    rw [List.length_append, rest_length]
    exact h
  rw [rest_append hB, rest_of_lt hlen]

/-- A piece that fills the block: `k` bytes of it complete the block. -/
theorem chain_append_long (hB : 0 < B) (s : σ) {m c : List α} {k : Nat}
    (hk : m.length % B + k = B) (hc : k ≤ c.length) :
    chain f B s (m ++ c) =
      chain f B (f (chain f B s m) (rest B m ++ c.take k)) (c.drop k) := by
  have hlen : (rest B m ++ c.take k).length = 1 * B := by
    rw [List.length_append, rest_length, List.length_take_of_le hc, hk, Nat.one_mul]
  have hsplit : rest B m ++ c = (rest B m ++ c.take k) ++ c.drop k := by
    rw [List.append_assoc, List.take_append_drop]
  have hblock : chain f B (chain f B s m) (rest B m ++ c.take k) =
      f (chain f B s m) (rest B m ++ c.take k) :=
    chain_of_length_eq hB (by rw [hlen, Nat.one_mul]) _
  rw [chain_append hB, hsplit, chain_append_of_whole f hB hlen, hblock]

theorem rest_append_long (hB : 0 < B) {m c : List α} {k : Nat}
    (hk : m.length % B + k = B) (hc : k ≤ c.length) :
    rest B (m ++ c) = rest B (c.drop k) := by
  have hlen : (rest B m ++ c.take k).length = 1 * B := by
    rw [List.length_append, rest_length, List.length_take_of_le hc, hk, Nat.one_mul]
  have hsplit : rest B m ++ c = (rest B m ++ c.take k) ++ c.drop k := by
    rw [List.append_assoc, List.take_append_drop]
  rw [rest_append hB, hsplit, rest_append_of_whole hB hlen]

/-- **The end of a message.**  A last piece that fills the blocks exactly is absorbed
together with the bytes that were kept. -/
theorem chain_append_whole (hB : 0 < B) (s : σ) {m c : List α} {n : Nat}
    (h : m.length % B + c.length = n * B) :
    chain f B s (m ++ c) = absorb f B n (chain f B s m) (rest B m ++ c) := by
  have hlen : (rest B m ++ c).length = n * B := by
    rw [List.length_append, rest_length, h]
  rw [chain_append hB, chain, hlen, Nat.mul_div_cancel n hB]

end BlockHash
