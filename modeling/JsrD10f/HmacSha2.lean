import JsrD10f.Sha2Stream

/-!
# HMAC over SHA-2

A context of `hmac_sha2.c` is two hash contexts that have taken the key with the inner
and the outer pad, and a copy of both for `reinit`.  The key is filled up to a block, or
hashed first when it is longer.
-/

namespace Sha2

namespace Algorithm

variable (A : Algorithm)

/-- `SHA256_DIGEST_SIZE` and the others. -/
def digestSize : Nat := A.digestWords * A.wordBytes

end Algorithm

/-- `hmac_sha256_ctx` and the others. -/
structure HmacCtx (A : Algorithm) where
  ctxInside : Ctx A
  ctxOutside : Ctx A
  ctxInsideReinit : Ctx A
  ctxOutsideReinit : Ctx A
  blockIpad : Vector UInt8 A.B
  blockOpad : Vector UInt8 A.B

namespace Algorithm

variable (A : Algorithm)

/-- `key_used` and `num` of a key that is not as long as a block. -/
def keyUsed (stack : Ctx A) (key : List UInt8) (keySize : UInt32) : Option (List UInt8 × Nat) :=
  if A.blockSize < keySize then
    (A.hash stack key keySize).map fun keyTemp => (keyTemp, A.digestSize)
  else some (key, keySize.toNat)

/-- The key that is used, its length, and the pads behind it. -/
def hmacKey (stack : Ctx A) (ctx : HmacCtx A) (key : List UInt8) (keySize : UInt32) :
    Option (List UInt8 × Nat × Vector UInt8 A.B × Vector UInt8 A.B) :=
  if keySize = A.blockSize then some (key, A.B, ctx.blockIpad, ctx.blockOpad)
  else do
    let (used, num) ← A.keyUsed stack key keySize
    let ipad ← memset ctx.blockIpad num 0x36 (A.B - num)
    let opad ← memset ctx.blockOpad num 0x5c (A.B - num)
    some (used, num, ipad, opad)

/-- `hmac_sha256_init`.  `stack` is what the context in `sha256` holds before. -/
def hmacInit (stack : Ctx A) (ctx : HmacCtx A) (key : List UInt8) (keySize : UInt32) :
    Option (HmacCtx A) := do
  let (used, num, ipad, opad) ← A.hmacKey stack ctx key keySize
  let ipad ← memcpy ipad 0 (used.map (· ^^^ 0x36)) num
  let opad ← memcpy opad 0 (used.map (· ^^^ 0x5c)) num
  let inside ← A.update (A.init ctx.ctxInside) ipad.toList A.blockSize
  let outside ← A.update (A.init ctx.ctxOutside) opad.toList A.blockSize
  some ⟨inside, outside, inside, outside, ipad, opad⟩

/-- `hmac_sha256_reinit`. -/
def hmacReinit (ctx : HmacCtx A) : HmacCtx A :=
  { ctx with ctxInside := ctx.ctxInsideReinit, ctxOutside := ctx.ctxOutsideReinit }

/-- `hmac_sha256_update`. -/
def hmacUpdate (ctx : HmacCtx A) (message : List UInt8) (messageLen : UInt32) :
    Option (HmacCtx A) := do
  let inside ← A.update ctx.ctxInside message messageLen
  some { ctx with ctxInside := inside }

/-- `hmac_sha256_final`: the context it leaves and the first `macSize` bytes of the MAC. -/
def hmacFinal (ctx : HmacCtx A) (macSize : Nat) : Option (HmacCtx A × List UInt8) := do
  let (inside, digestInside) ← A.final ctx.ctxInside
  let outside ← A.update ctx.ctxOutside digestInside (UInt32.ofNat A.digestSize)
  let (outside, macTemp) ← A.final outside
  if macSize ≤ macTemp.length then
    some ({ ctx with ctxInside := inside, ctxOutside := outside }, macTemp.take macSize)
  else none

/-- `hmac_sha256`. -/
def hmac (stack : Ctx A) (ctx : HmacCtx A) (key : List UInt8) (keySize : UInt32)
    (message : List UInt8) (messageLen : UInt32) (macSize : Nat) : Option (List UInt8) := do
  let ctx ← A.hmacInit stack ctx key keySize
  let ctx ← A.hmacUpdate ctx message messageLen
  let out ← A.hmacFinal ctx macSize
  some out.2

end Algorithm

/-! ## The four sizes -/

def hmacSha224Init := sha224Size.hmacInit
def hmacSha224Reinit := sha224Size.hmacReinit
def hmacSha224Update := sha224Size.hmacUpdate
def hmacSha224Final := sha224Size.hmacFinal
def hmacSha224 := sha224Size.hmac

def hmacSha256Init := sha256Size.hmacInit
def hmacSha256Reinit := sha256Size.hmacReinit
def hmacSha256Update := sha256Size.hmacUpdate
def hmacSha256Final := sha256Size.hmacFinal
def hmacSha256 := sha256Size.hmac

def hmacSha384Init := sha384Size.hmacInit
def hmacSha384Reinit := sha384Size.hmacReinit
def hmacSha384Update := sha384Size.hmacUpdate
def hmacSha384Final := sha384Size.hmacFinal
def hmacSha384 := sha384Size.hmac

def hmacSha512Init := sha512Size.hmacInit
def hmacSha512Reinit := sha512Size.hmacReinit
def hmacSha512Update := sha512Size.hmacUpdate
def hmacSha512Final := sha512Size.hmacFinal
def hmacSha512 := sha512Size.hmac

namespace Algorithm

variable (A : Algorithm)

/-! ## The MAC of a message -/

/-- The key in a block. -/
def blockKey (key : List UInt8) : List UInt8 :=
  let used := if A.B < key.length then A.digest key else key
  used ++ List.replicate (A.B - used.length) 0

/-- What the functions of this file are for. -/
def mac (key m : List UInt8) : List UInt8 :=
  A.digest ((A.blockKey key).map (· ^^^ 0x5c) ++
    A.digest ((A.blockKey key).map (· ^^^ 0x36) ++ m))

/-- One message: its pieces, and the MAC. -/
def hmacMessage (ctx : HmacCtx A) (chunks : List (List UInt8)) (macSize : Nat) :
    Option (HmacCtx A × List UInt8) := do
  let ctx ← chunks.foldlM (fun ctx c => A.hmacUpdate ctx c (UInt32.ofNat c.length)) ctx
  A.hmacFinal ctx macSize

/-- One context for several messages, with `reinit` behind each of them. -/
def hmacMessages (macSize : Nat) :
    HmacCtx A → List (List (List UInt8)) → Option (List (List UInt8))
  | _, [] => some []
  | ctx, chunks :: messages => do
      let (ctx, mac) ← A.hmacMessage ctx chunks macSize
      let macs ← hmacMessages macSize (A.hmacReinit ctx) messages
      some (mac :: macs)

variable {A}

/-! ## Lengths -/

theorem flatMap_unpack_length (l : List (BitVec A.wordBits)) :
    (l.flatMap A.unpack).length = l.length * A.wordBytes := by
  induction l with
  | nil => simp
  | cons x l ih =>
      rw [List.flatMap_cons, List.length_append, A.unpack_length, ih, List.length_cons,
        Nat.succ_mul, Nat.add_comm]

theorem digest_length (m : List UInt8) : (A.digest m).length = A.digestSize := by
  have hle := A.digestWords_le
  rw [digest, flatMap_unpack_length, List.length_take, Vector.length_toList, Nat.min_eq_left hle,
    digestSize]

theorem digestSize_le : A.digestSize ≤ A.B := by
  have hmul : A.digestSize ≤ 8 * A.wordBytes := Nat.mul_le_mul_right _ A.digestWords_le
  have hB : A.B = 16 * A.wordBytes := A.blockSize_eq
  omega

/-- `sha256` and the others, on a whole message. -/
theorem hash_eq (stack : Ctx A) {m : List UInt8} {len : UInt32} (hlen : len.toNat = m.length)
    (hm : m.length < 2 ^ 29) : A.hash stack m len = some (A.digest m) := by
  obtain ⟨ctx, hstep, hctx⟩ := update_holds (init_holds stack) hlen
    (by rw [List.length_nil]; omega)
  rw [List.nil_append] at hctx
  obtain ⟨ctx', hfinal⟩ := final_holds hctx hm
  simp only [hash, hstep, hfinal, Option.bind_eq_bind, Option.bind_some]

/-! ## The key -/

variable {key : List UInt8} {keySize : UInt32}

/-- The bytes behind the key. -/
theorem memset_fill (dst : Vector UInt8 A.B) (c : UInt8) {num : Nat} (hnum : num ≤ A.B) :
    ∃ v, memset dst num c (A.B - num) = some v ∧
      v.toList.drop num = List.replicate (A.B - num) c := by
  obtain ⟨v, hv, hbytes⟩ := memset_eq dst num c (A.B - num) (by omega)
  refine ⟨v, hv, ?_⟩
  have hfront : (dst.toList.take num).length = num :=
    List.length_take_of_le (by rw [Vector.length_toList]; exact hnum)
  have hend : dst.toList.drop (num + (A.B - num)) = [] :=
    List.drop_of_length_le (by rw [Vector.length_toList]; omega)
  rw [hbytes, hend, List.append_nil]
  conv_lhs => rw [← hfront]
  rw [hfront, List.drop_left' hfront]

/-- A key that is not as long as a block: the pads are filled behind it. -/
theorem hmacKey_fill (stack : Ctx A) (ctx : HmacCtx A) (hne : keySize ≠ A.blockSize)
    {used : List UInt8} (hused : used.length ≤ A.B)
    (hchoice : A.keyUsed stack key keySize = some (used, used.length)) :
    ∃ ipad opad, A.hmacKey stack ctx key keySize = some (used, used.length, ipad, opad) ∧
      ipad.toList.drop used.length = List.replicate (A.B - used.length) 0x36 ∧
      opad.toList.drop used.length = List.replicate (A.B - used.length) 0x5c := by
  obtain ⟨ipad, hipad, hifill⟩ := memset_fill ctx.blockIpad 0x36 hused
  obtain ⟨opad, hopad, hofill⟩ := memset_fill ctx.blockOpad 0x5c hused
  refine ⟨ipad, opad, ?_, hifill, hofill⟩
  simp only [hmacKey, if_neg hne, hchoice, hipad, hopad, Option.bind_eq_bind, Option.bind_some]

/-- The key and the bytes behind it in the pads. -/
theorem hmacKey_eq (stack : Ctx A) (ctx : HmacCtx A) (hsize : keySize.toNat = key.length)
    (hkey : key.length < 2 ^ 29) :
    ∃ used ipad opad, A.hmacKey stack ctx key keySize = some (used, used.length, ipad, opad) ∧
      used.length ≤ A.B ∧ A.blockKey key = used ++ List.replicate (A.B - used.length) 0 ∧
      ipad.toList.drop used.length = List.replicate (A.B - used.length) 0x36 ∧
      opad.toList.drop used.length = List.replicate (A.B - used.length) 0x5c := by
  by_cases hlong : A.B < key.length
  · have hless : A.blockSize < keySize := by
      rw [UInt32.lt_iff_toNat_lt, hsize]
      exact hlong
    have hlen : (A.digest key).length ≤ A.B := by
      rw [digest_length]
      exact digestSize_le
    have hne : keySize ≠ A.blockSize := by
      rintro rfl
      exact absurd hless (UInt32.lt_irrefl _)
    obtain ⟨ipad, opad, hpads, hfill⟩ := hmacKey_fill stack ctx hne hlen
      (by rw [keyUsed, if_pos hless, hash_eq stack hsize hkey, digest_length]; rfl)
    exact ⟨_, ipad, opad, hpads, hlen, by rw [blockKey, if_pos hlong], hfill⟩
  · have hless : ¬ A.blockSize < keySize := by
      rw [UInt32.lt_iff_toNat_lt, hsize]
      exact hlong
    refine ⟨key, ?_⟩
    have hblock : A.blockKey key = key ++ List.replicate (A.B - key.length) 0 := by
      rw [blockKey, if_neg hlong]
    by_cases heq : keySize = A.blockSize
    · have hlen : key.length = A.B := by rw [← hsize, heq]; rfl
      have hnone : ∀ v : Vector UInt8 A.B, v.toList.drop A.B = [] := fun v =>
        List.drop_of_length_le (Nat.le_of_eq Vector.length_toList)
      refine ⟨ctx.blockIpad, ctx.blockOpad, by rw [hmacKey, if_pos heq, hlen],
        Nat.le_of_eq hlen, hblock, ?_, ?_⟩
      · rw [hlen, Nat.sub_self, hnone, List.replicate_zero]
      · rw [hlen, Nat.sub_self, hnone, List.replicate_zero]
    · obtain ⟨ipad, opad, hpads, hfill⟩ := hmacKey_fill stack ctx heq (Nat.not_lt.mp hlong)
        (by rw [keyUsed, if_neg hless, hsize])
      exact ⟨ipad, opad, hpads, Nat.not_lt.mp hlong, hblock, hfill⟩

/-- The key over a filled pad. -/
theorem memcpy_key (pad : Vector UInt8 A.B) {used : List UInt8} (c : UInt8)
    (hused : used.length ≤ A.B)
    (hfill : pad.toList.drop used.length = List.replicate (A.B - used.length) c) :
    ∃ v, memcpy pad 0 (used.map (· ^^^ c)) used.length = some v ∧
      v.toList = (used ++ List.replicate (A.B - used.length) 0).map (· ^^^ c) := by
  obtain ⟨v, hv, hbytes⟩ := memcpy_eq pad 0 (used.map (· ^^^ c)) used.length
    (by simp) (by omega)
  refine ⟨v, hv, ?_⟩
  have hall : (used.map (· ^^^ c)).take used.length = used.map (· ^^^ c) :=
    List.take_of_length_le (by simp)
  rw [hbytes, hall, List.take_zero, List.nil_append, Nat.zero_add, hfill, List.map_append,
    List.map_replicate, UInt8.zero_xor]

theorem blockKey_length (key : List UInt8) : (A.blockKey key).length = A.B := by
  have hused : (if A.B < key.length then A.digest key else key).length ≤ A.B := by
    have hsize := digestSize_le (A := A)
    split
    · rw [digest_length]
      exact hsize
    · omega
  rw [blockKey, List.length_append, List.length_replicate]
  omega

end Algorithm

/-! ## Messages -/

/-- What a context stands for after the message `m` under a key. -/
structure HmacCtx.Holds {A : Algorithm} (ctx : HmacCtx A) (key m : List UInt8) : Prop where
  inside : ctx.ctxInside.Holds ((A.blockKey key).map (· ^^^ 0x36) ++ m)
  outside : ctx.ctxOutside.Holds ((A.blockKey key).map (· ^^^ 0x5c))
  insideReinit : ctx.ctxInsideReinit.Holds ((A.blockKey key).map (· ^^^ 0x36))
  outsideReinit : ctx.ctxOutsideReinit.Holds ((A.blockKey key).map (· ^^^ 0x5c))

namespace Algorithm

variable {A : Algorithm} {key m c : List UInt8} {keySize : UInt32} {ctx : HmacCtx A}

/-- A pad that is hashed first. -/
theorem update_pad (stack : Ctx A) (key : List UInt8) (c : UInt8) :
    ∃ ctx, A.update (A.init stack) ((A.blockKey key).map (· ^^^ c)) A.blockSize = some ctx ∧
      ctx.Holds ((A.blockKey key).map (· ^^^ c)) := by
  have hB := B_le (A := A)
  have hlen : ((A.blockKey key).map (· ^^^ c)).length = A.B := by
    rw [List.length_map, blockKey_length]
  have hsize : A.blockSize.toNat = ((A.blockKey key).map (· ^^^ c)).length := hlen.symm
  have hupdate := update_holds (init_holds stack) hsize (by rw [List.length_nil, hlen]; omega)
  rwa [List.nil_append] at hupdate

theorem hmacInit_holds (stack : Ctx A) (ctx : HmacCtx A) (hsize : keySize.toNat = key.length)
    (hkey : key.length < 2 ^ 29) :
    ∃ ctx', A.hmacInit stack ctx key keySize = some ctx' ∧ ctx'.Holds key [] := by
  obtain ⟨used, ipad, opad, hpads, hused, hblock, hifill, hofill⟩ :=
    hmacKey_eq stack ctx hsize hkey
  obtain ⟨ipad', hipad, hibytes⟩ := memcpy_key ipad 0x36 hused hifill
  obtain ⟨opad', hopad, hobytes⟩ := memcpy_key opad 0x5c hused hofill
  rw [← hblock] at hibytes hobytes
  obtain ⟨inside, hin, hinside⟩ := update_pad ctx.ctxInside key 0x36
  obtain ⟨outside, hout, houtside⟩ := update_pad ctx.ctxOutside key 0x5c
  refine ⟨⟨inside, outside, inside, outside, ipad', opad'⟩, ?_, ?_⟩
  · simp only [hmacInit, hpads, hipad, hopad, hibytes, hobytes, hin, hout, Option.bind_eq_bind,
      Option.bind_some]
  · exact ⟨by rwa [List.append_nil], houtside, hinside, houtside⟩

theorem hmacUpdate_holds (hctx : ctx.Holds key m) {len : UInt32} (hc : len.toNat = c.length)
    (hlen : A.B + m.length + c.length < 2 ^ 32) :
    ∃ ctx', A.hmacUpdate ctx c len = some ctx' ∧ ctx'.Holds key (m ++ c) := by
  obtain ⟨inside, hstep, hinside⟩ := update_holds hctx.inside hc
    (by rw [List.length_append, List.length_map, blockKey_length]; exact hlen)
  refine ⟨{ ctx with ctxInside := inside }, ?_, ?_⟩
  · simp only [hmacUpdate, hstep, Option.bind_eq_bind, Option.bind_some]
  · exact ⟨by rwa [← List.append_assoc], hctx.outside, hctx.insideReinit, hctx.outsideReinit⟩

/-- `final` computes the MAC, and `reinit` gives the context back. -/
theorem hmacFinal_eq (hctx : ctx.Holds key m) (hlen : A.B + m.length < 2 ^ 29) {macSize : Nat}
    (hmac : macSize ≤ A.digestSize) :
    ∃ ctx', A.hmacFinal ctx macSize = some (ctx', (A.mac key m).take macSize) ∧
      (A.hmacReinit ctx').Holds key [] := by
  have hB := B_le (A := A)
  have hsize := digestSize_le (A := A)
  obtain ⟨inside, hinside⟩ := final_holds hctx.inside
    (by rw [List.length_append, List.length_map, blockKey_length]; exact hlen)
  have hdigest : (UInt32.ofNat A.digestSize).toNat =
      (A.digest ((A.blockKey key).map (· ^^^ 0x36) ++ m)).length := by
    rw [digest_length]
    exact UInt32.toNat_ofNat_of_lt' (show A.digestSize < 2 ^ 32 by omega)
  obtain ⟨outside, hstep, houtside⟩ := update_holds hctx.outside hdigest
    (by rw [List.length_map, blockKey_length, digest_length]; omega)
  obtain ⟨outside', hfinal⟩ := final_holds houtside
    (by rw [List.length_append, List.length_map, blockKey_length, digest_length]; omega)
  have hmacLen : macSize ≤ (A.mac key m).length := by
    rw [mac, digest_length]
    exact hmac
  refine ⟨{ ctx with ctxInside := inside, ctxOutside := outside' }, ?_, ?_⟩
  · rw [mac] at hmacLen ⊢
    simp only [hmacFinal, hinside, hstep, hfinal, if_pos hmacLen, Option.bind_eq_bind,
      Option.bind_some]
  · exact ⟨by rw [List.append_nil]; exact hctx.insideReinit, hctx.outsideReinit,
      hctx.insideReinit, hctx.outsideReinit⟩

theorem foldlM_hmacUpdate_holds (chunks : List (List UInt8)) (hctx : ctx.Holds key m)
    (hlen : A.B + m.length + chunks.flatten.length < 2 ^ 32) :
    ∃ ctx', chunks.foldlM (fun ctx c => A.hmacUpdate ctx c (UInt32.ofNat c.length)) ctx =
        some ctx' ∧ ctx'.Holds key (m ++ chunks.flatten) := by
  induction chunks generalizing ctx m with
  | nil => exact ⟨ctx, rfl, by simpa using hctx⟩
  | cons c chunks ih =>
      rw [List.flatten_cons, List.length_append] at hlen
      have hc : (UInt32.ofNat c.length).toNat = c.length :=
        UInt32.toNat_ofNat_of_lt' (show c.length < 2 ^ 32 by omega)
      obtain ⟨ctx₁, hstep, hctx₁⟩ := hmacUpdate_holds hctx hc (by omega)
      obtain ⟨ctx₂, hrun, hctx₂⟩ := ih hctx₁ (by rw [List.length_append]; omega)
      refine ⟨ctx₂, ?_, ?_⟩
      · rw [List.foldlM_cons, hstep]
        exact hrun
      · rwa [List.flatten_cons, ← List.append_assoc]

theorem hmacMessage_eq (chunks : List (List UInt8)) (hctx : ctx.Holds key [])
    (hlen : A.B + chunks.flatten.length < 2 ^ 29) {macSize : Nat} (hmac : macSize ≤ A.digestSize) :
    ∃ ctx', A.hmacMessage ctx chunks macSize =
        some (ctx', (A.mac key chunks.flatten).take macSize) ∧
      (A.hmacReinit ctx').Holds key [] := by
  obtain ⟨ctx₁, hrun, hctx₁⟩ := foldlM_hmacUpdate_holds chunks hctx
    (by rw [List.length_nil]; omega)
  rw [List.nil_append] at hctx₁
  obtain ⟨ctx₂, hfinal, hctx₂⟩ := hmacFinal_eq hctx₁ hlen hmac
  refine ⟨ctx₂, ?_, hctx₂⟩
  simp only [hmacMessage, hrun, hfinal, Option.bind_eq_bind, Option.bind_some]

theorem hmacMessages_of_holds {macSize : Nat} (hmac : macSize ≤ A.digestSize)
    (messages : List (List (List UInt8))) (hctx : ctx.Holds key [])
    (hlen : ∀ chunks ∈ messages, A.B + chunks.flatten.length < 2 ^ 29) :
    A.hmacMessages macSize ctx messages =
      some (messages.map fun chunks => (A.mac key chunks.flatten).take macSize) := by
  induction messages generalizing ctx with
  | nil => rfl
  | cons chunks messages ih =>
      obtain ⟨ctx', hmessage, hreinit⟩ :=
        hmacMessage_eq chunks hctx (hlen chunks List.mem_cons_self) hmac
      have hrest := ih hreinit fun chunks' h => hlen chunks' (List.mem_cons_of_mem _ h)
      simp only [hmacMessages, hmessage, hrest, Option.bind_eq_bind, Option.bind_some,
        List.map_cons]

/-- **One key, many messages.**  A context that was set up once computes the MAC of every
message, in whatever pieces each of them comes; `reinit` between them leaves nothing
behind. -/
theorem hmacMessages_eq (A : Algorithm) (stack : Ctx A) (ctx : HmacCtx A) (key : List UInt8)
    (messages : List (List (List UInt8))) (macSize : Nat) (hkey : key.length < 2 ^ 29)
    (hlen : ∀ chunks ∈ messages, A.B + chunks.flatten.length < 2 ^ 29)
    (hmac : macSize ≤ A.digestSize) :
    (A.hmacInit stack ctx key (UInt32.ofNat key.length)).bind
        (fun ctx => A.hmacMessages macSize ctx messages) =
      some (messages.map fun chunks => (A.mac key chunks.flatten).take macSize) := by
  have hsize : (UInt32.ofNat key.length).toNat = key.length :=
    UInt32.toNat_ofNat_of_lt' (show key.length < 2 ^ 32 by omega)
  obtain ⟨ctx', hinit, hctx⟩ := hmacInit_holds stack ctx hsize hkey
  rw [hinit, Option.bind_some, hmacMessages_of_holds hmac messages hctx hlen]

/-- Some bytes on the stack. -/
def dirtyHmacCtx (A : Algorithm) : HmacCtx A :=
  ⟨A.dirtyCtx, A.dirtyCtx, A.dirtyCtx, A.dirtyCtx, Vector.replicate _ 1, Vector.replicate _ 2⟩

/-- Two messages under one key, one in pieces and one empty, both MACs cut to 16 bytes. -/
theorem hmacMessages_eq_jefe :
    (sha256Size.hmacInit sha256Size.dirtyCtx sha256Size.dirtyHmacCtx [0x4a, 0x65, 0x66, 0x65] 4).bind
        (fun ctx => sha256Size.hmacMessages 16 ctx [[[0x77, 0x68], [0x61, 0x74]], [[]]]) =
      some [(sha256Size.mac [0x4a, 0x65, 0x66, 0x65] [0x77, 0x68, 0x61, 0x74]).take 16,
        (sha256Size.mac [0x4a, 0x65, 0x66, 0x65] []).take 16] :=
  hmacMessages_eq sha256Size _ _ [0x4a, 0x65, 0x66, 0x65] [[[0x77, 0x68], [0x61, 0x74]], [[]]] 16
    (by decide) (by decide) (by decide)

/-- `hmac_sha256` and the others. -/
theorem hmac_eq (stack : Ctx A) (ctx : HmacCtx A) {len : UInt32}
    (hsize : keySize.toNat = key.length) (hkey : key.length < 2 ^ 29) (hc : len.toNat = m.length)
    (hlen : A.B + m.length < 2 ^ 29) {macSize : Nat} (hmac : macSize ≤ A.digestSize) :
    A.hmac stack ctx key keySize m len macSize = some ((A.mac key m).take macSize) := by
  obtain ⟨ctx₁, hinit, hctx₁⟩ := hmacInit_holds stack ctx hsize hkey
  obtain ⟨ctx₂, hstep, hctx₂⟩ := hmacUpdate_holds hctx₁ hc (by rw [List.length_nil]; omega)
  obtain ⟨ctx₃, hfinal, -⟩ := hmacFinal_eq hctx₂ hlen hmac
  simp only [Algorithm.hmac, hinit, hstep, hfinal, Option.bind_eq_bind, Option.bind_some,
    List.nil_append]

end Algorithm

end Sha2
