import JsrD10f.Sha2

/-!
# The digest of a stream

The pieces of a message go into the buffer and, block by block, into the chaining value.
`Ctx.Holds` says what a context stands for; every `update` keeps it for the longer
message, and `final` turns it into the digest of the message with its padding.

The counters have 32 bits and `final` stores 32 bits of the length, so the statements
carry a bound: 2^32 bytes for `update`, 2^29 for `final`.
-/

namespace Sha2

open BlockHash

/-! ## The digest of a message -/

/-- A number in `n` bytes, the most significant one first. -/
def bigEndian : Nat → Nat → List UInt8
  | 0, _ => []
  | n + 1, x => bigEndian n (x / 256) ++ [UInt8.ofNat x]

namespace Algorithm

variable (A : Algorithm)

/-- The end mark, the zeros and the length in bits that follow a message of `n` bytes. -/
def padding (n : Nat) : List UInt8 :=
  0x80 :: (List.replicate ((A.B - (n + A.trailer.toNat) % A.B) % A.B) 0 ++
    bigEndian (A.trailer.toNat - 1) (8 * n))

/-- What the functions of this file are for. -/
def digest (m : List UInt8) : List UInt8 :=
  ((chain A.block A.B A.h0 (m ++ A.padding m.length)).toList.take A.digestWords).flatMap A.unpack

/-- The pieces of a message, one `update` each, and `final`. -/
def stream (stack : Ctx A) (chunks : List (List UInt8)) : Option (List UInt8) := do
  let ctx ← chunks.foldlM (fun ctx m => A.update ctx m (UInt32.ofNat m.length)) (A.init stack)
  let out ← A.final ctx
  some out.2

end Algorithm

@[simp] theorem bigEndian_length (n x : Nat) : (bigEndian n x).length = n := by
  induction n generalizing x with
  | zero => rfl
  | succ n ih => rw [bigEndian, List.length_append, ih, List.length_singleton]

theorem bigEndian_zero (n : Nat) : bigEndian n 0 = List.replicate n 0 := by
  induction n with
  | zero => rfl
  | succ n ih =>
      rw [bigEndian, Nat.zero_div, ih, List.replicate_succ']
      rfl

/-- A number that fits has zeros in front. -/
theorem bigEndian_add (n k x : Nat) (h : x < 256 ^ k) :
    bigEndian (n + k) x = List.replicate n 0 ++ bigEndian k x := by
  induction k generalizing x with
  | zero =>
      have hx : x = 0 := by simpa using h
      rw [hx, Nat.add_zero, bigEndian_zero, bigEndian, List.append_nil]
  | succ k ih =>
      have hdiv : x / 256 < 256 ^ k := by
        rw [Nat.div_lt_iff_lt_mul (by decide)]
        rwa [Nat.pow_succ] at h
      rw [← Nat.add_assoc, bigEndian, ih _ hdiv, bigEndian, List.append_assoc]

/-- `UNPACK32` stores a number of 32 bits. -/
theorem unpack32_eq (x : BitVec 32) : unpack32 x = bigEndian 4 x.toNat := by
  simp only [unpack32, byteAt, bigEndian, BitVec.toNat_ushiftRight, Nat.shiftRight_eq_div_pow,
    List.nil_append, List.cons_append, Nat.div_div_eq_div_mul, Nat.reducePow, Nat.reduceMul,
    Nat.div_one]

/-! ## Copies -/

theorem memcpy_eq {size : Nat} (dst : Vector UInt8 size) (offset : Nat) (src : List UInt8)
    (n : Nat) (hsrc : n ≤ src.length) (hdst : offset + n ≤ size) :
    ∃ v, memcpy dst offset src n = some v ∧
      v.toList = dst.toList.take offset ++ (src.take n ++ dst.toList.drop (offset + n)) :=
  ⟨_, dif_pos ⟨hsrc, hdst⟩, rfl⟩

theorem memset_eq {size : Nat} (dst : Vector UInt8 size) (offset : Nat) (c : UInt8) (n : Nat)
    (hdst : offset + n ≤ size) :
    ∃ v, memset dst offset c n = some v ∧
      v.toList = dst.toList.take offset ++
        (List.replicate n c ++ dst.toList.drop (offset + n)) := by
  have hall : (List.replicate n c).take n = List.replicate n c := by simp
  obtain ⟨v, hv, hlist⟩ := memcpy_eq dst offset (List.replicate n c) n (by simp) hdst
  rw [hall] at hlist
  exact ⟨v, hv, hlist⟩

/-- What a copy leaves up to its end. -/
theorem take_copied {size offset n : Nat} {dst v : Vector UInt8 size} {src tail : List UInt8}
    (hv : v.toList = dst.toList.take offset ++ (src ++ tail)) (hn : src.length = n)
    (hoffset : offset ≤ size) : v.toList.take (offset + n) = dst.toList.take offset ++ src := by
  have hfront : (dst.toList.take offset).length = offset :=
    List.length_take_of_le (by rw [Vector.length_toList]; exact hoffset)
  have hlen : (dst.toList.take offset ++ src).length = offset + n := by
    rw [List.length_append, hfront, hn]
  rw [hv, ← List.append_assoc, List.take_append_of_le_length (Nat.le_of_eq hlen.symm), ← hlen,
    List.take_length]

namespace Algorithm

variable {A : Algorithm}

theorem B_eq : A.B = 2 ^ A.blockShift.toNat := A.blockShift_eq

theorem B_pos : 0 < A.B := by
  rw [B_eq]
  exact Nat.two_pow_pos _

theorem B_le : A.B ≤ 128 := by
  rw [B_eq]
  exact Nat.pow_le_pow_right (by decide) A.blockShift_le

theorem shiftLeft_blockShift (i : Nat) : i <<< A.blockShift.toNat = i * A.B := by
  rw [Nat.shiftLeft_eq, B_eq]

/-- Blocks that are there are all read. -/
theorem transfWith_eq
    (step : Vector (BitVec A.wordBits) 8 → List UInt8 → Vector (BitVec A.wordBits) 8)
    (h : Vector (BitVec A.wordBits) 8) {message : List UInt8} {n : Nat}
    (hlen : n * A.B ≤ message.length) :
    A.transfWith step h message n = some (absorb step A.B n h message) := by
  induction n with
  | zero => rfl
  | succ n ih =>
      have hn : n * A.B + A.B ≤ message.length := by rwa [← Nat.succ_mul]
      have hsub : ((message.drop (n * A.B)).take A.B).length = A.B := by
        rw [List.length_take_of_le]
        rw [List.length_drop]
        omega
      have hih := ih (by omega)
      rw [transfWith] at hih ⊢
      rw [List.range_succ, List.foldlM_append, hih, absorb_add]
      simp only [List.foldlM_cons, List.foldlM_nil, shiftLeft_blockShift, hsub, absorb]
      rfl

theorem transf_eq (h : Vector (BitVec A.wordBits) 8) {message : List UInt8} {n : Nat}
    (hlen : n * A.B ≤ message.length) :
    A.transf h message n = some (absorb A.block A.B n h message) :=
  transfWith_eq A.block h hlen

end Algorithm

/-! ## Pieces -/

/-- What a context stands for after the message `m`. -/
structure Ctx.Holds {A : Algorithm} (ctx : Ctx A) (m : List UInt8) : Prop where
  h : ctx.h = chain A.block A.B A.h0 m
  len : ctx.len.toNat = m.length % A.B
  totLen : ctx.totLen.toNat + ctx.len.toNat = m.length
  block : ctx.block.toList.take ctx.len.toNat = rest A.B m

namespace Algorithm

variable {A : Algorithm} {ctx : Ctx A} {m c : List UInt8} {len : UInt32}

theorem init_holds (stack : Ctx A) : (A.init stack).Holds [] where
  h := (chain_of_lt (B_pos (A := A)) _).symm
  len := (Nat.zero_mod _).symm
  totLen := rfl
  block := by rw [rest_of_lt (B_pos (A := A))]; rfl

theorem tmpLen_toNat (hctx : ctx.Holds m) :
    (A.blockSize - ctx.len).toNat = A.B - m.length % A.B := by
  have hlt : m.length % A.B < A.B := Nat.mod_lt _ B_pos
  have hle : ctx.len ≤ A.blockSize := by
    rw [UInt32.le_iff_toNat_le, hctx.len]
    exact Nat.le_of_lt hlt
  rw [UInt32.toNat_sub_of_le _ _ hle, hctx.len]
  rfl

theorem len_add_toNat (hctx : ctx.Holds m) (hc : len.toNat = c.length)
    (hlen : m.length + c.length < 2 ^ 32) : (ctx.len + len).toNat = m.length % A.B + c.length := by
  have hmod := Nat.mod_le m.length A.B
  rw [UInt32.toNat_add, hc, hctx.len, Nat.mod_eq_of_lt]
  omega

/-- A piece that does not fill the block. -/
theorem update_short (hctx : ctx.Holds m) (hc : len.toNat = c.length)
    (hlen : m.length + c.length < 2 ^ 32) (hshort : m.length % A.B + c.length < A.B) :
    ∃ ctx', A.update ctx c len = some ctx' ∧ ctx'.Holds (m ++ c) := by
  have hrem : len < A.blockSize - ctx.len := by
    rw [UInt32.lt_iff_toNat_lt, tmpLen_toNat hctx, hc]
    omega
  have hless : ctx.len + len < A.blockSize := by
    rw [UInt32.lt_iff_toNat_lt, len_add_toNat hctx hc hlen]
    exact hshort
  have hroom : ctx.len.toNat + len.toNat ≤ 2 * A.B := by
    rw [hctx.len, hc]
    omega
  obtain ⟨v, hv, hbytes⟩ := memcpy_eq ctx.block _ c _ (Nat.le_of_eq hc) hroom
  refine ⟨{ ctx with block := v, len := ctx.len + len }, by simp [update, hrem, hless, hv],
    ?_, ?_, ?_, ?_⟩
  · rw [chain_append_short B_pos _ hshort]
    exact hctx.h
  · rw [len_add_toNat hctx hc hlen, List.length_append, ← Nat.mod_add_mod,
      Nat.mod_eq_of_lt hshort]
  · have htot := hctx.totLen
    rw [len_add_toNat hctx hc hlen, List.length_append, ← hctx.len]
    change ctx.totLen.toNat + (ctx.len.toNat + c.length) = m.length + c.length
    omega
  · rw [hc, List.take_length] at hbytes
    rw [len_add_toNat hctx hc hlen, rest_append_short B_pos hshort, ← hctx.block, ← hctx.len]
    exact take_copied hbytes rfl (by omega)

theorem shift_toNat {x : UInt32} (hx : x.toNat * A.B < 2 ^ 32) :
    (x <<< A.blockShift).toNat = x.toNat * A.B := by
  have hshift : A.blockShift.toNat % 32 = A.blockShift.toNat :=
    Nat.mod_eq_of_lt (by have := A.blockShift_le; omega)
  rw [UInt32.toNat_shiftLeft, hshift, shiftLeft_blockShift, Nat.mod_eq_of_lt hx]

/-- The first copy completes the block. -/
theorem transf_completed (hctx : ctx.Holds m) {k : Nat} (hk : m.length % A.B + k = A.B)
    (hc : k ≤ c.length) :
    ∃ v, memcpy ctx.block ctx.len.toNat c k = some v ∧
      A.transf ctx.h v.toList 1 = some (A.block ctx.h (rest A.B m ++ c.take k)) := by
  have hend : ctx.len.toNat + k = A.B := by rw [hctx.len, hk]
  obtain ⟨v, hv, hbytes⟩ := memcpy_eq ctx.block ctx.len.toNat c k hc (by omega)
  have htake := take_copied hbytes (List.length_take_of_le hc) (by omega)
  rw [hend, hctx.block] at htake
  refine ⟨v, hv, ?_⟩
  rw [transf_eq _ (by rw [Vector.length_toList]; omega), absorb, absorb, htake]

/-- The second copy keeps what is left. -/
theorem memcpy_rest (dst : Vector UInt8 (2 * A.B)) (c : List UInt8) :
    ∃ v, memcpy dst 0 (rest A.B c) (c.length % A.B) = some v ∧
      v.toList.take (c.length % A.B) = rest A.B c := by
  have hlt : c.length % A.B < A.B := Nat.mod_lt _ B_pos
  have hlen := rest_length (B := A.B) c
  obtain ⟨v, hv, hbytes⟩ := memcpy_eq dst 0 (rest A.B c) (c.length % A.B)
    (Nat.le_of_eq hlen.symm) (by omega)
  refine ⟨v, hv, ?_⟩
  rw [hbytes, List.take_zero, List.nil_append, ← hlen, List.take_length, List.take_left]

/-- The counters behind a full block: `k` bytes complete it, and `n` whole blocks follow. -/
theorem counters_toNat (hc : len.toNat = c.length) (hlen : m.length + c.length < 2 ^ 32)
    {tmpLen : UInt32} {k n : Nat} (htmp : tmpLen.toNat = k) (hk : m.length % A.B + k = A.B)
    (hle : k ≤ c.length) (hn : n = (c.drop k).length / A.B) :
    ((len - tmpLen) / A.blockSize).toNat = n ∧
      (((len - tmpLen) / A.blockSize) <<< A.blockShift).toNat = n * A.B ∧
      (((len - tmpLen) / A.blockSize + 1) <<< A.blockShift).toNat = (n + 1) * A.B ∧
      ((len - tmpLen) % A.blockSize).toNat = (c.drop k).length % A.B := by
  have hlt : m.length % A.B < A.B := Nat.mod_lt _ B_pos
  have hmod : m.length % A.B ≤ m.length := Nat.mod_le _ _
  have hdrop : (c.drop k).length = c.length - k := List.length_drop
  have hnB : n * A.B ≤ c.length - k := by
    rw [hn, hdrop]
    exact Nat.div_mul_le_self _ _
  have hnew : (len - tmpLen).toNat = c.length - k := by
    rw [UInt32.toNat_sub_of_le _ _ (by rw [UInt32.le_iff_toNat_le, htmp, hc]; exact hle), htmp, hc]
  have hblockNb : ((len - tmpLen) / A.blockSize).toNat = n := by
    rw [UInt32.toNat_div, hnew, hn, hdrop]
    rfl
  have hrem : ((len - tmpLen) % A.blockSize).toNat = (c.drop k).length % A.B := by
    rw [UInt32.toNat_mod, hnew, hdrop]
    rfl
  generalize (len - tmpLen) / A.blockSize = blockNb at hblockNb ⊢
  have hsucc : (blockNb + 1).toNat = n + 1 := by
    have hle : n ≤ n * A.B := Nat.le_mul_of_pos_right n B_pos
    rw [UInt32.toNat_add, hblockNb]
    exact Nat.mod_eq_of_lt (show n + 1 < 2 ^ 32 by omega)
  refine ⟨hblockNb, ?_, ?_, hrem⟩
  · rw [shift_toNat (by rw [hblockNb]; omega), hblockNb]
  · rw [shift_toNat, hsucc]
    rw [hsucc, Nat.succ_mul]
    omega

/-- A piece that fills the block and goes on behind it. -/
theorem update_long (hctx : ctx.Holds m) (hc : len.toNat = c.length)
    (hlen : m.length + c.length < 2 ^ 32) (hlong : A.B ≤ m.length % A.B + c.length) :
    ∃ ctx', A.update ctx c len = some ctx' ∧ ctx'.Holds (m ++ c) := by
  have hlt : m.length % A.B < A.B := Nat.mod_lt _ B_pos
  have hmod : m.length % A.B ≤ m.length := Nat.mod_le _ _
  obtain ⟨k, hk⟩ : ∃ k, m.length % A.B + k = A.B := ⟨A.B - m.length % A.B, by omega⟩
  obtain ⟨n, hn⟩ : ∃ n, n = (c.drop k).length / A.B := ⟨_, rfl⟩
  have hkc : k ≤ c.length := by omega
  have htmp : (A.blockSize - ctx.len).toNat = k := by
    rw [tmpLen_toNat hctx]
    omega
  have hrem : ¬ len < A.blockSize - ctx.len := by
    rw [UInt32.lt_iff_toNat_lt, htmp, hc]
    omega
  have hless : ¬ ctx.len + len < A.blockSize := by
    rw [UInt32.lt_iff_toNat_lt, len_add_toNat hctx hc hlen]
    exact Nat.not_lt.mpr hlong
  obtain ⟨hblockNb, hshift, hcount, hremLen⟩ := counters_toNat hc hlen htmp hk hkc hn
  obtain ⟨v, hv, hfirst⟩ := transf_completed hctx hk hkc
  obtain ⟨u, hu, htake⟩ := memcpy_rest v (c.drop k)
  have hnB : n * A.B + (c.drop k).length % A.B = (c.drop k).length := by
    rw [hn]
    exact Nat.div_add_mod' _ _
  have hnext : ∀ h, A.transf h (c.drop k) n = some (chain A.block A.B h (c.drop k)) := by
    intro h
    rw [transf_eq _ (by omega), chain, hn]
  have hrest : (c.drop k).drop (n * A.B) = rest A.B (c.drop k) := by rw [rest, hn]
  refine ⟨⟨ctx.totLen + ((len - (A.blockSize - ctx.len)) / A.blockSize + 1) <<< A.blockShift,
      (len - (A.blockSize - ctx.len)) % A.blockSize, u,
      chain A.block A.B (A.block ctx.h (rest A.B m ++ c.take k)) (c.drop k)⟩, ?_, ?_, ?_, ?_, ?_⟩
  · simp only [update, hrem, hless, htmp, hv, hfirst, hblockNb, hnext, hremLen, hshift, hrest, hu,
      if_false, Option.bind_eq_bind, Option.bind_some]
  · rw [chain_append_long B_pos _ hk hkc, hctx.h]
  · rw [hremLen, ← rest_length, ← rest_append_long B_pos hk hkc, rest_length]
  · have htot := hctx.totLen
    have hdrop : (c.drop k).length = c.length - k := List.length_drop
    rw [hctx.len] at htot
    rw [List.length_append, hremLen]
    change (ctx.totLen + ((len - (A.blockSize - ctx.len)) / A.blockSize + 1) <<<
      A.blockShift).toNat + (c.drop k).length % A.B = m.length + c.length
    rw [UInt32.toNat_add, hcount, Nat.mod_eq_of_lt, Nat.succ_mul]
    · omega
    · rw [Nat.succ_mul]
      omega
  · rw [hremLen, rest_append_long B_pos hk hkc]
    exact htake

/-- **A piece of any length.**  No copy leaves its buffers, and the context stands for the
longer message. -/
theorem update_holds (hctx : ctx.Holds m) (hc : len.toNat = c.length)
    (hlen : m.length + c.length < 2 ^ 32) :
    ∃ ctx', A.update ctx c len = some ctx' ∧ ctx'.Holds (m ++ c) := by
  by_cases hshort : m.length % A.B + c.length < A.B
  · exact update_short hctx hc hlen hshort
  · exact update_long hctx hc hlen (Nat.not_lt.mp hshort)

/-! ## The end of the message -/

/-- The blocks that `final` fills: one, or two if the length does not fit any more. -/
def finalBlocks (A : Algorithm) (n : Nat) : Nat :=
  if A.B - A.trailer.toNat < n % A.B then 2 else 1

theorem trailer_le_B : A.trailer.toNat ≤ A.B := A.trailer_le

/-- The number of zeros completes the blocks. -/
theorem zeros_add (n : Nat) :
    n % A.B + A.trailer.toNat + (A.B - (n + A.trailer.toNat) % A.B) % A.B =
      A.finalBlocks n * A.B := by
  have hT := trailer_le_B (A := A)
  have hT9 := A.trailer_ge
  have hr : n % A.B < A.B := Nat.mod_lt _ B_pos
  have hmod : (n + A.trailer.toNat) % A.B = (n % A.B + A.trailer.toNat) % A.B :=
    (Nat.mod_add_mod _ _ _).symm
  rw [hmod, finalBlocks]
  generalize n % A.B = r at hr
  by_cases htwo : A.B - A.trailer.toNat < r
  · have hover : (r + A.trailer.toNat) % A.B = r + A.trailer.toNat - A.B := by
      rw [Nat.mod_eq_sub_mod (by omega), Nat.mod_eq_of_lt (by omega)]
    rw [if_pos htwo, hover, Nat.mod_eq_of_lt (by omega)]
    omega
  · rw [if_neg htwo]
    by_cases hfull : r + A.trailer.toNat = A.B
    · rw [hfull, Nat.mod_self, Nat.sub_zero, Nat.mod_self, Nat.add_zero, Nat.one_mul]
    · have hunder : (r + A.trailer.toNat) % A.B = r + A.trailer.toNat :=
        Nat.mod_eq_of_lt (by omega)
      rw [hunder, Nat.mod_eq_of_lt (by omega)]
      omega

theorem padding_length (n : Nat) :
    n % A.B + (A.padding n).length = A.finalBlocks n * A.B := by
  have hzeros := zeros_add (A := A) n
  have hT9 := A.trailer_ge
  rw [padding, List.length_cons, List.length_append, List.length_replicate, bigEndian_length]
  omega

/-- A length of 32 bits leaves zeros in front of its four bytes. -/
theorem padding_eq {n : Nat} (hn : n < 2 ^ 29) :
    A.padding n = 0x80 :: (List.replicate (A.finalBlocks n * A.B - n % A.B - 5) 0 ++
      bigEndian 4 (8 * n)) := by
  have hzeros := zeros_add (A := A) n
  have hT9 := A.trailer_ge
  have hsplit : A.trailer.toNat - 1 = A.trailer.toNat - 5 + 4 := by omega
  have hcount : A.finalBlocks n * A.B - n % A.B - 5 =
      (A.B - (n + A.trailer.toNat) % A.B) % A.B + (A.trailer.toNat - 5) := by omega
  rw [padding, hsplit, bigEndian_add _ _ _ (by omega), hcount, List.replicate_add,
    List.append_assoc]

/-- The zeros with the end mark over the first of them. -/
theorem take_marked {front tail : List UInt8} {r z j : Nat} (hr : front.length = r)
    (hj : j ≤ z) :
    ((front ++ (List.replicate (z + 1) 0 ++ tail)).take r ++
        ([0x80] ++ (front ++ (List.replicate (z + 1) 0 ++ tail)).drop (r + 1))).take (r + 1 + j) =
      front ++ 0x80 :: List.replicate j 0 := by
  have htake : (front ++ (List.replicate (z + 1) 0 ++ tail)).take r = front := by
    rw [← hr, List.take_left]
  have hdrop : (front ++ (List.replicate (z + 1) (0 : UInt8) ++ tail)).drop (r + 1) =
      List.replicate z 0 ++ tail := by
    rw [← hr, List.drop_length_add_append, List.replicate_succ]
    rfl
  have hlen : (front ++ [0x80]).length = r + 1 := by
    rw [List.length_append, hr, List.length_singleton]
  have hzeros : (List.replicate z (0 : UInt8)).take j = List.replicate j 0 := by
    rw [List.take_replicate, Nat.min_eq_left hj]
  rw [htake, hdrop, ← List.append_assoc, ← hlen, List.take_length_add_append,
    List.take_append_of_le_length (by rw [List.length_replicate]; exact hj), hzeros,
    List.append_assoc]
  rfl

theorem blockNb_toNat (hctx : ctx.Holds m) :
    (1 + (if A.blockSize - A.trailer < ctx.len % A.blockSize then 1 else 0) : UInt32).toNat =
      A.finalBlocks m.length := by
  have hle : A.trailer ≤ A.blockSize := UInt32.le_iff_toNat_le.mpr A.trailer_le
  have hiff : A.blockSize - A.trailer < ctx.len % A.blockSize ↔
      A.B - A.trailer.toNat < m.length % A.B := by
    rw [UInt32.lt_iff_toNat_lt, UInt32.toNat_sub_of_le _ _ hle, UInt32.toNat_mod, hctx.len]
    change A.B - _ < m.length % A.B % A.B ↔ _
    rw [Nat.mod_mod]
  rw [finalBlocks]
  by_cases htwo : A.B - A.trailer.toNat < m.length % A.B
  · rw [if_pos (hiff.mpr htwo), if_pos htwo]
    rfl
  · rw [if_neg (fun h => htwo (hiff.mp h)), if_neg htwo]
    rfl

theorem lenB_toNat (hctx : ctx.Holds m) (hm : m.length < 2 ^ 29) :
    ((ctx.totLen + ctx.len) <<< 3).toBitVec.toNat = 8 * m.length := by
  have hsum : (ctx.totLen + ctx.len).toNat = m.length := by
    rw [UInt32.toNat_add, hctx.totLen, Nat.mod_eq_of_lt (by omega)]
  have hthree : (3 : UInt32).toNat % 32 = 3 := rfl
  change ((ctx.totLen + ctx.len) <<< 3).toNat = 8 * m.length
  rw [UInt32.toNat_shiftLeft, hsum, hthree, Nat.shiftLeft_eq, Nat.mod_eq_of_lt (by omega)]
  omega

theorem finalBlocks_le (n : Nat) : A.finalBlocks n ≤ 2 := by
  rw [finalBlocks]
  split <;> decide

/-- The buffer that `final` hashes. -/
theorem final_block (hctx : ctx.Holds m) (hm : m.length < 2 ^ 29) :
    ∃ v₁ v₂ v₃, memset ctx.block (m.length % A.B) 0
        (A.finalBlocks m.length * A.B - m.length % A.B) = some v₁ ∧
      memset v₁ (m.length % A.B) 0x80 1 = some v₂ ∧
      memcpy v₂ (A.finalBlocks m.length * A.B - 4) (bigEndian 4 (8 * m.length)) 4 = some v₃ ∧
      v₃.toList.take (A.finalBlocks m.length * A.B) = rest A.B m ++ A.padding m.length := by
  have hpad := padding_length (A := A) m.length
  have hroom : 5 ≤ (A.padding m.length).length := by
    rw [padding_eq hm, List.length_cons, List.length_append, bigEndian_length]
    omega
  have htwo : A.finalBlocks m.length * A.B ≤ 2 * A.B :=
    Nat.mul_le_mul_right _ (finalBlocks_le _)
  rw [padding_eq hm]
  have hfront : (ctx.block.toList.take (m.length % A.B)).length = m.length % A.B := by
    rw [← hctx.len, hctx.block, rest_length, hctx.len]
  rw [← hctx.block, hctx.len]
  generalize A.finalBlocks m.length * A.B = N at *
  generalize m.length % A.B = r at *
  obtain ⟨v₁, hv₁, hbytes₁⟩ := memset_eq ctx.block r 0 (N - r) (by omega)
  obtain ⟨v₂, hv₂, hbytes₂⟩ := memset_eq v₁ r 0x80 1 (by omega)
  obtain ⟨v₃, hv₃, hbytes₃⟩ := memcpy_eq v₂ (N - 4) (bigEndian 4 (8 * m.length)) 4
    (by simp) (by omega)
  refine ⟨v₁, v₂, v₃, hv₁, hv₂, hv₃, ?_⟩
  have hz : N - r = N - r - 1 + 1 := by omega
  have hj : N - 4 = r + 1 + (N - r - 5) := by omega
  have hmarked : v₂.toList.take (N - 4) =
      ctx.block.toList.take r ++ 0x80 :: List.replicate (N - r - 5) 0 := by
    rw [hbytes₂, hbytes₁, hz, hj]
    exact take_marked hfront (by omega)
  have htail : (bigEndian 4 (8 * m.length)).take 4 = bigEndian 4 (8 * m.length) :=
    List.take_of_length_le (by simp)
  rw [htail] at hbytes₃
  have hlast := take_copied hbytes₃ (bigEndian_length 4 _) (by omega)
  rw [Nat.sub_add_cancel (by omega)] at hlast
  rw [hlast, hmarked, List.append_assoc, List.cons_append]

/-- **The end of a message.**  The digest is that of the whole message. -/
theorem final_holds (hctx : ctx.Holds m) (hm : m.length < 2 ^ 29) :
    ∃ ctx', A.final ctx = some (ctx', A.digest m) := by
  have hB := B_le (A := A)
  have hpad := padding_length (A := A) m.length
  have hroom : 5 ≤ (A.padding m.length).length := by
    rw [padding_eq hm, List.length_cons, List.length_append, bigEndian_length]
    omega
  have htwo : A.finalBlocks m.length * A.B ≤ 2 * A.B :=
    Nat.mul_le_mul_right _ (finalBlocks_le _)
  have hnb := blockNb_toNat hctx
  generalize hblockNb :
    (1 + (if A.blockSize - A.trailer < ctx.len % A.blockSize then 1 else 0) : UInt32) = blockNb
    at hnb
  have hpm : (blockNb <<< A.blockShift).toNat = A.finalBlocks m.length * A.B := by
    rw [shift_toNat, hnb]
    rw [hnb]
    omega
  have hfill : (blockNb <<< A.blockShift - ctx.len).toNat =
      A.finalBlocks m.length * A.B - m.length % A.B := by
    rw [UInt32.toNat_sub_of_le, hpm, hctx.len]
    rw [UInt32.le_iff_toNat_le, hpm, hctx.len]
    omega
  have hfield : (blockNb <<< A.blockShift - 4).toNat = A.finalBlocks m.length * A.B - 4 := by
    rw [UInt32.toNat_sub_of_le, hpm]
    · rfl
    · rw [UInt32.le_iff_toNat_le, hpm]
      change 4 ≤ _
      omega
  obtain ⟨v₁, v₂, v₃, hv₁, hv₂, hv₃, hbytes⟩ := final_block hctx hm
  have htransf : A.transf ctx.h v₃.toList (A.finalBlocks m.length) =
      some (chain A.block A.B A.h0 (m ++ A.padding m.length)) := by
    have hlen : A.finalBlocks m.length * A.B ≤ v₃.toList.length := by
      rw [Vector.length_toList]
      exact htwo
    have hwhole := List.take_append_drop (A.finalBlocks m.length * A.B) v₃.toList
    rw [transf_eq _ hlen, chain_append_whole B_pos _ hpad, ← hbytes, ← hctx.h, ← hwhole,
      absorb_append A.block A.B (Nat.le_of_eq (List.length_take_of_le hlen).symm)]
    simp
  refine ⟨{ ctx with block := v₃, h := chain A.block A.B A.h0 (m ++ A.padding m.length) }, ?_⟩
  have hlenB : unpack32 ((ctx.totLen + ctx.len) <<< 3).toBitVec = bigEndian 4 (8 * m.length) := by
    rw [unpack32_eq, lenB_toNat hctx hm]
  simp only [final, digest, hblockNb, hctx.len, hfill, hv₁, hv₂, hfield, hlenB, hv₃, hnb, htransf,
    Option.bind_eq_bind, Option.bind_some]

/-! ## Whole streams -/

/-- Every piece of a message is taken. -/
theorem foldlM_update_holds (chunks : List (List UInt8)) (hctx : ctx.Holds m)
    (hlen : m.length + chunks.flatten.length < 2 ^ 32) :
    ∃ ctx', chunks.foldlM (fun ctx c => A.update ctx c (UInt32.ofNat c.length)) ctx = some ctx' ∧
      ctx'.Holds (m ++ chunks.flatten) := by
  induction chunks generalizing ctx m with
  | nil => exact ⟨ctx, rfl, by simpa using hctx⟩
  | cons c chunks ih =>
      rw [List.flatten_cons, List.length_append] at hlen
      have hc : (UInt32.ofNat c.length).toNat = c.length :=
        UInt32.toNat_ofNat_of_lt' (show c.length < 2 ^ 32 by omega)
      obtain ⟨ctx₁, hstep, hctx₁⟩ := update_holds hctx hc (by omega)
      obtain ⟨ctx₂, hrun, hctx₂⟩ := ih hctx₁ (by rw [List.length_append]; omega)
      refine ⟨ctx₂, ?_, ?_⟩
      · rw [List.foldlM_cons, hstep]
        exact hrun
      · rwa [List.flatten_cons, ← List.append_assoc]

/-- **The digest of a stream.**  Whatever the context held before, and however a message of
less than 2^29 bytes is cut into pieces, the digest is that of the padded message, and no
read or write leaves the buffers. -/
theorem stream_eq_digest (A : Algorithm) (stack : Ctx A) (chunks : List (List UInt8))
    (hlen : chunks.flatten.length < 2 ^ 29) :
    A.stream stack chunks = some (A.digest chunks.flatten) := by
  obtain ⟨ctx, hrun, hctx⟩ := foldlM_update_holds chunks (init_holds stack)
    (by rw [List.length_nil]; omega)
  rw [List.nil_append] at hctx
  obtain ⟨ctx', hfinal⟩ := final_holds hctx hlen
  simp only [stream, hrun, hfinal, Option.bind_eq_bind, Option.bind_some]

/-- Some bytes on the stack. -/
def dirtyCtx (A : Algorithm) : Ctx A := ⟨7, 9, Vector.replicate _ 5, Vector.replicate _ 3⟩

/-- A message in three pieces, one of them empty. -/
theorem stream_eq_digest_abc :
    sha256Size.stream sha256Size.dirtyCtx [[0x61], [], [0x62, 0x63]] =
      some (sha256Size.digest [0x61, 0x62, 0x63]) :=
  stream_eq_digest sha256Size _ [[0x61], [], [0x62, 0x63]] (by decide)

end Algorithm

-- the first validation vector at the end of `sha2.c`
example : sha256 sha256Size.dirtyCtx [0x61, 0x62, 0x63] 3 =
    some [0xba, 0x78, 0x16, 0xbf, 0x8f, 0x01, 0xcf, 0xea, 0x41, 0x41, 0x40, 0xde, 0x5d, 0xae,
      0x22, 0x23, 0xb0, 0x03, 0x61, 0xa3, 0x96, 0x17, 0x7a, 0x9c, 0xb4, 0x10, 0xff, 0x61, 0xf2,
      0x00, 0x15, 0xad] := by decide +kernel

end Sha2
