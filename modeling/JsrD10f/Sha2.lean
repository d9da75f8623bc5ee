import JsrD10f.BlockHash

/-!
# SHA-2

`sha2.c` has one algorithm in four sizes.  A context keeps the chaining value, a buffer
of two blocks and two counters of 32 bits; `update` takes a message in pieces of any
length, `final` pads what is left and writes the digest.  Copies out of or past a buffer
have no result here, so a theorem that names the result also says that none is made.

The comparison `ctx->len + len < BLOCK_SIZE` and the length field are computed in 32
bits.  Up to 2^29 bytes this cannot be seen: the digest is that of the padded message,
in whatever pieces it came.  Rounds with `UNROLL_LOOPS` rename the registers instead of
moving them; they compute the same chaining value.
-/

namespace Sha2

/-! ## Words -/

section Macros

variable {w : Nat}

/-- `SHFR`. -/
def shfr (x : BitVec w) (n : Nat) : BitVec w := x >>> n

/-- `ROTR`. -/
def rotr (x : BitVec w) (n : Nat) : BitVec w := x >>> n ||| x <<< (w - n)

/-- `CH`. -/
def ch (x y z : BitVec w) : BitVec w := (x &&& y) ^^^ (~~~x &&& z)

/-- `MAJ`. -/
def maj (x y z : BitVec w) : BitVec w := (x &&& y) ^^^ (x &&& z) ^^^ (y &&& z)

end Macros

def sha256F1 (x : BitVec 32) : BitVec 32 := rotr x 2 ^^^ rotr x 13 ^^^ rotr x 22
def sha256F2 (x : BitVec 32) : BitVec 32 := rotr x 6 ^^^ rotr x 11 ^^^ rotr x 25
def sha256F3 (x : BitVec 32) : BitVec 32 := rotr x 7 ^^^ rotr x 18 ^^^ shfr x 3
def sha256F4 (x : BitVec 32) : BitVec 32 := rotr x 17 ^^^ rotr x 19 ^^^ shfr x 10

def sha512F1 (x : BitVec 64) : BitVec 64 := rotr x 28 ^^^ rotr x 34 ^^^ rotr x 39
def sha512F2 (x : BitVec 64) : BitVec 64 := rotr x 14 ^^^ rotr x 18 ^^^ rotr x 41
def sha512F3 (x : BitVec 64) : BitVec 64 := rotr x 1 ^^^ rotr x 8 ^^^ shfr x 7
def sha512F4 (x : BitVec 64) : BitVec 64 := rotr x 19 ^^^ rotr x 61 ^^^ shfr x 6

/-- The byte of a word that `UNPACK32` and `UNPACK64` store. -/
def byteAt {w : Nat} (x : BitVec w) (shift : Nat) : UInt8 := UInt8.ofNat (x >>> shift).toNat

def unpack32 (x : BitVec 32) : List UInt8 :=
  [byteAt x 24, byteAt x 16, byteAt x 8, byteAt x 0]

def unpack64 (x : BitVec 64) : List UInt8 :=
  [byteAt x 56, byteAt x 48, byteAt x 40, byteAt x 32, byteAt x 24, byteAt x 16, byteAt x 8,
    byteAt x 0]

/-- A byte of the message as a word. -/
def wordOf (w : Nat) (str : List UInt8) (i : Nat) : BitVec w :=
  BitVec.ofNat w (str.getD i 0).toNat

def pack32 (str : List UInt8) : BitVec 32 :=
  wordOf 32 str 3 ||| wordOf 32 str 2 <<< 8 ||| wordOf 32 str 1 <<< 16 ||| wordOf 32 str 0 <<< 24

def pack64 (str : List UInt8) : BitVec 64 :=
  wordOf 64 str 7 ||| wordOf 64 str 6 <<< 8 ||| wordOf 64 str 5 <<< 16 |||
    wordOf 64 str 4 <<< 24 ||| wordOf 64 str 3 <<< 32 ||| wordOf 64 str 2 <<< 40 |||
    wordOf 64 str 1 <<< 48 ||| wordOf 64 str 0 <<< 56

/-- What the four sizes have in common, with the few facts about the constants that the
code rests on: a block has sixteen words, it holds the end mark and the length, and the
rounds come in groups of eight. -/
structure Algorithm where
  wordBits : Nat
  wordBytes : Nat
  blockSize : UInt32
  blockShift : UInt32
  /-- The 9 and 17 in `BLOCK_SIZE - 9`: the end mark and the length. -/
  trailer : UInt32
  rounds : Nat
  digestWords : Nat
  pack : List UInt8 → BitVec wordBits
  unpack : BitVec wordBits → List UInt8
  f1 : BitVec wordBits → BitVec wordBits
  f2 : BitVec wordBits → BitVec wordBits
  f3 : BitVec wordBits → BitVec wordBits
  f4 : BitVec wordBits → BitVec wordBits
  k : List (BitVec wordBits)
  h0 : Vector (BitVec wordBits) 8
  unpack_length : ∀ x, (unpack x).length = wordBytes
  digestWords_le : digestWords ≤ 8
  blockSize_eq : blockSize.toNat = 16 * wordBytes
  blockShift_eq : blockSize.toNat = 2 ^ blockShift.toNat
  blockShift_le : blockShift.toNat ≤ 7
  trailer_ge : 9 ≤ trailer.toNat
  trailer_le : trailer.toNat ≤ blockSize.toNat
  rounds_eq : rounds = rounds / 8 * 8

def sha224H0 : Vector (BitVec 32) 8 :=
  #v[0xc1059ed8, 0x367cd507, 0x3070dd17, 0xf70e5939,
    0xffc00b31, 0x68581511, 0x64f98fa7, 0xbefa4fa4]

def sha256H0 : Vector (BitVec 32) 8 :=
  #v[0x6a09e667, 0xbb67ae85, 0x3c6ef372, 0xa54ff53a,
    0x510e527f, 0x9b05688c, 0x1f83d9ab, 0x5be0cd19]

def sha384H0 : Vector (BitVec 64) 8 :=
  #v[0xcbbb9d5dc1059ed8, 0x629a292a367cd507, 0x9159015a3070dd17,
    0x152fecd8f70e5939, 0x67332667ffc00b31, 0x8eb44a8768581511,
    0xdb0c2e0d64f98fa7, 0x47b5481dbefa4fa4]

def sha512H0 : Vector (BitVec 64) 8 :=
  #v[0x6a09e667f3bcc908, 0xbb67ae8584caa73b, 0x3c6ef372fe94f82b,
    0xa54ff53a5f1d36f1, 0x510e527fade682d1, 0x9b05688c2b3e6c1f,
    0x1f83d9abfb41bd6b, 0x5be0cd19137e2179]

def sha256K : List (BitVec 32) :=
  [0x428a2f98, 0x71374491, 0xb5c0fbcf, 0xe9b5dba5, 0x3956c25b, 0x59f111f1, 0x923f82a4,
    0xab1c5ed5, 0xd807aa98, 0x12835b01, 0x243185be, 0x550c7dc3, 0x72be5d74, 0x80deb1fe,
    0x9bdc06a7, 0xc19bf174, 0xe49b69c1, 0xefbe4786, 0x0fc19dc6, 0x240ca1cc, 0x2de92c6f,
    0x4a7484aa, 0x5cb0a9dc, 0x76f988da, 0x983e5152, 0xa831c66d, 0xb00327c8, 0xbf597fc7,
    0xc6e00bf3, 0xd5a79147, 0x06ca6351, 0x14292967, 0x27b70a85, 0x2e1b2138, 0x4d2c6dfc,
    0x53380d13, 0x650a7354, 0x766a0abb, 0x81c2c92e, 0x92722c85, 0xa2bfe8a1, 0xa81a664b,
    0xc24b8b70, 0xc76c51a3, 0xd192e819, 0xd6990624, 0xf40e3585, 0x106aa070, 0x19a4c116,
    0x1e376c08, 0x2748774c, 0x34b0bcb5, 0x391c0cb3, 0x4ed8aa4a, 0x5b9cca4f, 0x682e6ff3,
    0x748f82ee, 0x78a5636f, 0x84c87814, 0x8cc70208, 0x90befffa, 0xa4506ceb, 0xbef9a3f7,
    0xc67178f2]

def sha512K : List (BitVec 64) :=
  [0x428a2f98d728ae22, 0x7137449123ef65cd, 0xb5c0fbcfec4d3b2f, 0xe9b5dba58189dbbc,
    0x3956c25bf348b538, 0x59f111f1b605d019, 0x923f82a4af194f9b, 0xab1c5ed5da6d8118,
    0xd807aa98a3030242, 0x12835b0145706fbe, 0x243185be4ee4b28c, 0x550c7dc3d5ffb4e2,
    0x72be5d74f27b896f, 0x80deb1fe3b1696b1, 0x9bdc06a725c71235, 0xc19bf174cf692694,
    0xe49b69c19ef14ad2, 0xefbe4786384f25e3, 0x0fc19dc68b8cd5b5, 0x240ca1cc77ac9c65,
    0x2de92c6f592b0275, 0x4a7484aa6ea6e483, 0x5cb0a9dcbd41fbd4, 0x76f988da831153b5,
    0x983e5152ee66dfab, 0xa831c66d2db43210, 0xb00327c898fb213f, 0xbf597fc7beef0ee4,
    0xc6e00bf33da88fc2, 0xd5a79147930aa725, 0x06ca6351e003826f, 0x142929670a0e6e70,
    0x27b70a8546d22ffc, 0x2e1b21385c26c926, 0x4d2c6dfc5ac42aed, 0x53380d139d95b3df,
    0x650a73548baf63de, 0x766a0abb3c77b2a8, 0x81c2c92e47edaee6, 0x92722c851482353b,
    0xa2bfe8a14cf10364, 0xa81a664bbc423001, 0xc24b8b70d0f89791, 0xc76c51a30654be30,
    0xd192e819d6ef5218, 0xd69906245565a910, 0xf40e35855771202a, 0x106aa07032bbd1b8,
    0x19a4c116b8d2d0c8, 0x1e376c085141ab53, 0x2748774cdf8eeb99, 0x34b0bcb5e19b48a8,
    0x391c0cb3c5c95a63, 0x4ed8aa4ae3418acb, 0x5b9cca4f7763e373, 0x682e6ff3d6b2b8a3,
    0x748f82ee5defb2fc, 0x78a5636f43172f60, 0x84c87814a1f0ab72, 0x8cc702081a6439ec,
    0x90befffa23631e28, 0xa4506cebde82bde9, 0xbef9a3f7b2c67915, 0xc67178f2e372532b,
    0xca273eceea26619c, 0xd186b8c721c0c207, 0xeada7dd6cde0eb1e, 0xf57d4f7fee6ed178,
    0x06f067aa72176fba, 0x0a637dc5a2c898a6, 0x113f9804bef90dae, 0x1b710b35131c471b,
    0x28db77f523047d84, 0x32caab7b40c72493, 0x3c9ebe0a15c9bebc, 0x431d67c49c100d4c,
    0x4cc5d4becb3e42b6, 0x597f299cfc657e2a, 0x5fcb6fab3ad6faec, 0x6c44198c4a475817]

def sha256Size : Algorithm where
  wordBits := 32
  wordBytes := 4
  blockSize := 64
  blockShift := 6
  trailer := 9
  rounds := 64
  digestWords := 8
  pack := pack32
  unpack := unpack32
  f1 := sha256F1
  f2 := sha256F2
  f3 := sha256F3
  f4 := sha256F4
  k := sha256K
  h0 := sha256H0
  unpack_length _ := rfl
  digestWords_le := by decide
  blockSize_eq := by decide
  blockShift_eq := by decide
  blockShift_le := by decide
  trailer_ge := by decide
  trailer_le := by decide
  rounds_eq := by decide

/-- Seven words of the chaining value are the digest. -/
def sha224Size : Algorithm :=
  { sha256Size with h0 := sha224H0, digestWords := 7, digestWords_le := by decide }

def sha512Size : Algorithm where
  wordBits := 64
  wordBytes := 8
  blockSize := 128
  blockShift := 7
  trailer := 17
  rounds := 80
  digestWords := 8
  pack := pack64
  unpack := unpack64
  f1 := sha512F1
  f2 := sha512F2
  f3 := sha512F3
  f4 := sha512F4
  k := sha512K
  h0 := sha512H0
  unpack_length _ := rfl
  digestWords_le := by decide
  blockSize_eq := by decide
  blockShift_eq := by decide
  blockShift_le := by decide
  trailer_ge := by decide
  trailer_le := by decide
  rounds_eq := by decide

def sha384Size : Algorithm :=
  { sha512Size with h0 := sha384H0, digestWords := 6, digestWords_le := by decide }

namespace Algorithm

variable (A : Algorithm)

/-- The length of a block as a number of bytes. -/
def B : Nat := A.blockSize.toNat

/-- `SHA256_SCR` and `SHA512_SCR`: the next word of the schedule. -/
def scr (w : List (BitVec A.wordBits)) : BitVec A.wordBits :=
  A.f4 (w.getD (w.length - 2) 0) + w.getD (w.length - 7) 0 + A.f3 (w.getD (w.length - 15) 0) +
    w.getD (w.length - 16) 0

/-- The array `w`: the words of the block, and those computed from them. -/
def schedule (subBlock : List UInt8) : List (BitVec A.wordBits) :=
  (List.range (A.rounds - 16)).foldl (fun w _ => w ++ [A.scr w])
    ((List.range 16).map fun j => A.pack (subBlock.drop (j * A.wordBytes)))

/-- `t1` of a round, from the registers that take the parts of `e` to `h`. -/
def t1 (w : List (BitVec A.wordBits)) (j : Nat) (e f g h : BitVec A.wordBits) :
    BitVec A.wordBits :=
  h + A.f2 e + ch e f g + A.k.getD j 0 + w.getD j 0

/-- `t2` of a round. -/
def t2 (a b c : BitVec A.wordBits) : BitVec A.wordBits :=
  A.f1 a + maj a b c

/-- One round: every register moves up. -/
def round (w : List (BitVec A.wordBits)) (wv : Vector (BitVec A.wordBits) 8) (j : Nat) :
    Vector (BitVec A.wordBits) 8 :=
  let t1 := A.t1 w j wv[4] wv[5] wv[6] wv[7]
  let t2 := A.t2 wv[0] wv[1] wv[2]
  #v[t1 + t2, wv[0], wv[1], wv[2], wv[3] + t1, wv[4], wv[5], wv[6]]

/-- One pass of the loop in `sha256_transf` and `sha512_transf`. -/
def block (h : Vector (BitVec A.wordBits) 8) (subBlock : List UInt8) :
    Vector (BitVec A.wordBits) 8 :=
  let w := A.schedule subBlock
  Vector.zipWith (· + ·) h ((List.range A.rounds).foldl (A.round w) h)

/-- A step that is done with each block.  Nothing is read past the message. -/
def transfWith (step : Vector (BitVec A.wordBits) 8 → List UInt8 → Vector (BitVec A.wordBits) 8)
    (h : Vector (BitVec A.wordBits) 8) (message : List UInt8) (blockNb : Nat) :
    Option (Vector (BitVec A.wordBits) 8) :=
  (List.range blockNb).foldlM
    (fun h i =>
      let subBlock := (message.drop (i <<< A.blockShift.toNat)).take A.B
      if subBlock.length = A.B then some (step h subBlock) else none) h

/-- `sha256_transf` and `sha512_transf`. -/
def transf := A.transfWith A.block

end Algorithm

/-- `memcpy(dst + offset, src, n)`, if it stays within the two buffers. -/
def memcpy {size : Nat} (dst : Vector UInt8 size) (offset : Nat) (src : List UInt8) (n : Nat) :
    Option (Vector UInt8 size) :=
  if h : n ≤ src.length ∧ offset + n ≤ size then
    let bytes := dst.toList
    some ⟨(bytes.take offset ++ (src.take n ++ bytes.drop (offset + n))).toArray, by
      have hbytes : bytes.length = size := Vector.length_toList
      have hsrc : (src.take n).length = n := List.length_take_of_le h.1
      rw [List.size_toArray, List.length_append, List.length_append, hsrc]
      simp only [List.length_take, List.length_drop, hbytes]
      omega⟩
  else none

/-- `memset(dst + offset, c, n)`, if it stays within the buffer. -/
def memset {size : Nat} (dst : Vector UInt8 size) (offset : Nat) (c : UInt8) (n : Nat) :
    Option (Vector UInt8 size) :=
  memcpy dst offset (List.replicate n c) n

/-- `sha256_ctx` and `sha512_ctx`. -/
structure Ctx (A : Algorithm) where
  totLen : UInt32
  len : UInt32
  block : Vector UInt8 (2 * A.B)
  h : Vector (BitVec A.wordBits) 8

namespace Algorithm

variable (A : Algorithm)

/-- `init` leaves the buffer as it is. -/
def init (ctx : Ctx A) : Ctx A :=
  { ctx with h := A.h0, len := 0, totLen := 0 }

def update (ctx : Ctx A) (message : List UInt8) (len : UInt32) : Option (Ctx A) := do
  let tmpLen := A.blockSize - ctx.len
  let remLen := if len < tmpLen then len else tmpLen
  let block ← memcpy ctx.block ctx.len.toNat message remLen.toNat
  if ctx.len + len < A.blockSize then
    some { ctx with block := block, len := ctx.len + len }
  else
    let newLen := len - remLen
    let blockNb := newLen / A.blockSize
    let shiftedMessage := message.drop remLen.toNat
    let h ← A.transf ctx.h block.toList 1
    let h ← A.transf h shiftedMessage blockNb.toNat
    let remLen := newLen % A.blockSize
    let block ← memcpy block 0 (shiftedMessage.drop (blockNb <<< A.blockShift).toNat)
      remLen.toNat
    some ⟨ctx.totLen + (blockNb + 1) <<< A.blockShift, remLen, block, h⟩

/-- `final`: the context it leaves and the digest. -/
def final (ctx : Ctx A) : Option (Ctx A × List UInt8) := do
  let blockNb : UInt32 :=
    1 + (if A.blockSize - A.trailer < ctx.len % A.blockSize then 1 else 0)
  let lenB := (ctx.totLen + ctx.len) <<< 3
  let pmLen := blockNb <<< A.blockShift
  let block ← memset ctx.block ctx.len.toNat 0 (pmLen - ctx.len).toNat
  let block ← memset block ctx.len.toNat 0x80 1
  let block ← memcpy block (pmLen - 4).toNat (unpack32 lenB.toBitVec) 4
  let h ← A.transf ctx.h block.toList blockNb.toNat
  some ({ ctx with block := block, h := h }, (h.toList.take A.digestWords).flatMap A.unpack)

/-- `sha256(message, len, digest)`, with whatever the stack holds. -/
def hash (stack : Ctx A) (message : List UInt8) (len : UInt32) : Option (List UInt8) := do
  let ctx ← A.update (A.init stack) message len
  let out ← A.final ctx
  some out.2

end Algorithm

/-! ## The four sizes -/

def sha224Init := sha224Size.init
def sha224Update := sha224Size.update
def sha224Final := sha224Size.final
def sha224 := sha224Size.hash

def sha256Init := sha256Size.init
def sha256Update := sha256Size.update
def sha256Final := sha256Size.final
def sha256 := sha256Size.hash

def sha384Init := sha384Size.init
def sha384Update := sha384Size.update
def sha384Final := sha384Size.final
def sha384 := sha384Size.hash

def sha512Init := sha512Size.init
def sha512Update := sha512Size.update
def sha512Final := sha512Size.final
def sha512 := sha512Size.hash

namespace Algorithm

variable (A : Algorithm)

/-! ## Unrolled rounds -/

/-- `SHA256_EXP` and `SHA512_EXP`: a round that writes two of the registers it is given. -/
def exp (w : List (BitVec A.wordBits)) (a b c d e f g h : Fin 8)
    (wv : Vector (BitVec A.wordBits) 8) (j : Nat) : Vector (BitVec A.wordBits) 8 :=
  let t1 := A.t1 w j wv[e] wv[f] wv[g] wv[h]
  let t2 := A.t2 wv[a] wv[b] wv[c]
  (wv.set d (wv[d] + t1)).set h (t1 + t2)

-- The registers are written as numerals below.
local instance neZero_registers : @NeZero Nat Zero.ofOfNat0 8 := ⟨by decide⟩

/-- Eight rounds, after which every register has its own name again. -/
def exp8 (w : List (BitVec A.wordBits)) (wv : Vector (BitVec A.wordBits) 8) (j : Nat) :
    Vector (BitVec A.wordBits) 8 :=
  let wv := A.exp w 0 1 2 3 4 5 6 7 wv j
  let wv := A.exp w 7 0 1 2 3 4 5 6 wv (j + 1)
  let wv := A.exp w 6 7 0 1 2 3 4 5 wv (j + 2)
  let wv := A.exp w 5 6 7 0 1 2 3 4 wv (j + 3)
  let wv := A.exp w 4 5 6 7 0 1 2 3 wv (j + 4)
  let wv := A.exp w 3 4 5 6 7 0 1 2 wv (j + 5)
  let wv := A.exp w 2 3 4 5 6 7 0 1 wv (j + 6)
  A.exp w 1 2 3 4 5 6 7 0 wv (j + 7)

/-- A block with `UNROLL_LOOPS`. -/
def blockUnrolled (h : Vector (BitVec A.wordBits) 8) (subBlock : List UInt8) :
    Vector (BitVec A.wordBits) 8 :=
  let w := A.schedule subBlock
  Vector.zipWith (· + ·) h ((List.range (A.rounds / 8)).foldl (fun wv i => A.exp8 w wv (8 * i)) h)

/-- `sha256_transf` and `sha512_transf` with `UNROLL_LOOPS`. -/
def transfUnrolled := A.transfWith A.blockUnrolled

/-- The registers in the order of a round that is `r` rounds on. -/
def turned (r : Fin 8) (wv : Vector (BitVec A.wordBits) 8) : Vector (BitVec A.wordBits) 8 :=
  Vector.ofFn fun i => wv[i - r]

theorem turned_get (r i : Fin 8) (wv : Vector (BitVec A.wordBits) 8) :
    (A.turned r wv)[i] = wv[i - r] := by
  simp [turned]

/-- A round writes the registers `d` and `h`. -/
theorem exp_get (w : List (BitVec A.wordBits)) (a b c d e f g h k : Fin 8)
    (wv : Vector (BitVec A.wordBits) 8) (j : Nat) :
    (A.exp w a b c d e f g h wv j)[k] =
      if h = k then A.t1 w j wv[e] wv[f] wv[g] wv[h] + A.t2 wv[a] wv[b] wv[c]
      else if d = k then wv[d] + A.t1 w j wv[e] wv[f] wv[g] wv[h]
      else wv[k] := by
  simp only [exp, Fin.getElem_fin, Vector.getElem_set, Fin.val_inj]

theorem round_get (w : List (BitVec A.wordBits)) (i : Fin 8)
    (wv : Vector (BitVec A.wordBits) 8) (j : Nat) :
    (A.round w wv j)[i] =
      if i = 0 then A.t1 w j wv[4] wv[5] wv[6] wv[7] + A.t2 wv[0] wv[1] wv[2]
      else if i = 4 then wv[3] + A.t1 w j wv[4] wv[5] wv[6] wv[7]
      else wv[i - 1] := by
  match i with
  | 0 | 1 | 2 | 3 | 4 | 5 | 6 | 7 => rfl

/-- One round moves the registers, the other one the names. -/
theorem round_turned (w : List (BitVec A.wordBits)) (r : Fin 8)
    (wv : Vector (BitVec A.wordBits) 8) (j : Nat) :
    A.round w (A.turned r wv) j =
      A.turned (r + 1) (A.exp w (0 - r) (1 - r) (2 - r) (3 - r) (4 - r) (5 - r) (6 - r) (7 - r)
        wv j) := by
  have hget : ∀ i : Fin 8, (A.round w (A.turned r wv) j)[i] =
      (A.turned (r + 1) (A.exp w (0 - r) (1 - r) (2 - r) (3 - r) (4 - r) (5 - r) (6 - r) (7 - r)
        wv j))[i] := by
    intro i
    have hh : 7 - r = i - (r + 1) ↔ i = 0 := by revert r i; decide
    have hd : 3 - r = i - (r + 1) ↔ i = 4 := by revert r i; decide
    have hi : i - (r + 1) = i - 1 - r := by clear hh hd; revert r i; decide
    have hreg : ∀ k (hk : k < 8), (A.turned r wv)[k] = wv[(⟨k, hk⟩ : Fin 8) - r] :=
      fun k hk => A.turned_get r ⟨k, hk⟩ wv
    rw [round_get, turned_get, turned_get, exp_get, if_congr hh rfl (if_congr hd rfl rfl), hi]
    simp only [hreg]
    rfl
  exact Vector.ext fun i hi => hget ⟨i, hi⟩

theorem turned_zero (wv : Vector (BitVec A.wordBits) 8) : A.turned 0 wv = wv := by
  refine Vector.ext fun i hi => ?_
  have hzero : ∀ i : Fin 8, i - 0 = i := by decide
  exact (A.turned_get 0 ⟨i, hi⟩ wv).trans (congrArg (fun k : Fin 8 => wv[k]) (hzero ⟨i, hi⟩))

/-- Eight rounds in place are eight rounds. -/
theorem exp8_eq (w : List (BitVec A.wordBits)) (wv : Vector (BitVec A.wordBits) 8) (j : Nat) :
    A.exp8 w wv j = (List.range' j 8).foldl (A.round w) wv := by
  have h := fun (r : Fin 8) wv i => A.round_turned w r wv i
  simp only [List.range'_succ, List.range'_zero, List.foldl_cons, List.foldl_nil]
  conv_rhs => rw [← A.turned_zero wv, h 0, h, h, h, h, h, h, h]
  exact (A.turned_zero _).symm

/-- Groups of eight rounds are all the rounds. -/
theorem foldl_exp8 (w : List (BitVec A.wordBits)) (wv : Vector (BitVec A.wordBits) 8) (n : Nat) :
    (List.range n).foldl (fun wv i => A.exp8 w wv (8 * i)) wv =
      (List.range (n * 8)).foldl (A.round w) wv := by
  induction n with
  | zero => rfl
  | succ n ih =>
      have hrange : List.range ((n + 1) * 8) = List.range (n * 8) ++ List.range' (8 * n) 8 := by
        rw [List.range_eq_range', List.range_eq_range', Nat.succ_mul, Nat.mul_comm n,
          ← List.range'_append_1, Nat.zero_add]
      rw [List.range_succ, List.foldl_append, ih, hrange, List.foldl_append, List.foldl_cons,
        List.foldl_nil, exp8_eq]

theorem blockUnrolled_eq : A.blockUnrolled = A.block := by
  funext h subBlock
  rw [blockUnrolled, block, foldl_exp8, ← A.rounds_eq]

/-- **Unrolled and plain rounds agree.** -/
theorem transfUnrolled_eq (A : Algorithm) (h : Vector (BitVec A.wordBits) 8)
    (message : List UInt8) (blockNb : Nat) :
    A.transfUnrolled h message blockNb = A.transf h message blockNb := by
  rw [transfUnrolled, blockUnrolled_eq, transf]

end Algorithm

end Sha2
