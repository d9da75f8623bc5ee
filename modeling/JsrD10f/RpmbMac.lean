import JsrD10f.MmcRpmb
import JsrD10f.HmacSha2

/-!
# The MAC of RPMB frames

`do_rpmb_read_block` hashes the frames one by one, `do_rpmb_write_block` one frame at
once.  At most 65535 frames of 284 bytes are far from the length that SHA-256 cannot
count here, so both are the MAC of the standard, and what a write sends is what a read
accepts.
-/

namespace MmcUtils

open Sha2

/-- `sizeof(frame) - offsetof(struct rpmb_frame, data)`. -/
def macBytes : UInt32 := 284

/-- The MAC of the standard. -/
def frameMac (key m : List UInt8) : Vector UInt8 32 :=
  ⟨(sha256Size.mac key m).toArray, Algorithm.digest_length (A := sha256Size) _⟩

/-- The MAC that `do_rpmb_read_block` computes over the first `n` frames.  The two contexts
are those on the stack. -/
def readBlockMac (stack : Ctx sha256Size) (ctx : HmacCtx sha256Size) (key : Vector UInt8 32)
    (answer : RpmbAnswer) (n : Nat) : Option (List UInt8) := do
  let ctx ← hmacSha256Init stack ctx key.toList 32
  let ctx ← (List.range n).foldlM
    (fun ctx i => hmacSha256Update ctx (answer.frames i).macInput macBytes) ctx
  let out ← hmacSha256Final ctx 32
  some out.2

/-- The MAC that `do_rpmb_write_block` puts into its frame. -/
def writeBlockMac (stack : Ctx sha256Size) (ctx : HmacCtx sha256Size) (key : Vector UInt8 32)
    (frame : RpmbFrame) : Option (List UInt8) :=
  hmacSha256 stack ctx key.toList 32 frame.macInput macBytes 32

theorem macInput_length (f : RpmbFrame) : f.macInput.length = 284 := by
  simp [RpmbFrame.macInput, bigEndian]

theorem frames_length (frames : Nat → RpmbFrame) (n : Nat) :
    ((List.range n).flatMap fun i => (frames i).macInput).length = 284 * n := by
  induction n with
  | zero => rfl
  | succ n ih =>
      rw [List.range_succ, List.flatMap_append, List.length_append, ih, List.flatMap_singleton,
        macInput_length]
      omega

theorem foldlM_frames_holds {ctx : HmacCtx sha256Size} {key : List UInt8} (answer : RpmbAnswer)
    (hctx : ctx.Holds key []) {n : Nat} (hn : n ≤ 65535) :
    ∃ ctx', (List.range n).foldlM
        (fun ctx i => hmacSha256Update ctx (answer.frames i).macInput macBytes) ctx = some ctx' ∧
      ctx'.Holds key ((List.range n).flatMap fun i => (answer.frames i).macInput) := by
  induction n with
  | zero => exact ⟨ctx, rfl, hctx⟩
  | succ n ih =>
      obtain ⟨ctx₁, hrun, hctx₁⟩ := ih (by omega)
      have hB : sha256Size.B = 64 := rfl
      obtain ⟨ctx₂, hupdate, hctx₂⟩ : ∃ ctx₂,
          hmacSha256Update ctx₁ (answer.frames n).macInput macBytes = some ctx₂ ∧
            ctx₂.Holds key (((List.range n).flatMap fun i => (answer.frames i).macInput) ++
              (answer.frames n).macInput) :=
        Algorithm.hmacUpdate_holds hctx₁ (macInput_length _).symm
          (by rw [frames_length, macInput_length, hB]; omega)
      refine ⟨ctx₂, ?_, ?_⟩
      · rw [List.range_succ, List.foldlM_append, hrun]
        simp only [Option.bind_eq_bind, Option.bind_some, List.foldlM_cons, List.foldlM_nil,
          hupdate]
        rfl
      · rwa [List.range_succ, List.flatMap_append, List.flatMap_singleton]

/-- Both sizes here are those of the standard. -/
theorem frameMac_toList (key m : List UInt8) :
    (frameMac key m).toList = (sha256Size.mac key m).take 32 := by
  have hlen : (sha256Size.mac key m).length = 32 := Algorithm.digest_length _
  rw [List.take_of_length_le (Nat.le_of_eq hlen)]
  rfl

theorem readBlockMac_eq (stack : Ctx sha256Size) (ctx : HmacCtx sha256Size)
    (key : Vector UInt8 32) (answer : RpmbAnswer) {n : Nat} (hn : n ≤ 65535) :
    readBlockMac stack ctx key answer n =
      some (frameMac key.toList
        ((List.range n).flatMap fun i => (answer.frames i).macInput)).toList := by
  have hB : sha256Size.B = 64 := rfl
  have hkey : key.toList.length = 32 := Vector.length_toList
  obtain ⟨ctx₁, hinit, hctx₁⟩ : ∃ ctx₁, hmacSha256Init stack ctx key.toList 32 = some ctx₁ ∧
      ctx₁.Holds key.toList [] :=
    Algorithm.hmacInit_holds stack ctx hkey.symm (by rw [hkey]; decide)
  obtain ⟨ctx₂, hrun, hctx₂⟩ := foldlM_frames_holds answer hctx₁ hn
  obtain ⟨ctx₃, hfinal, -⟩ : ∃ ctx₃, hmacSha256Final ctx₂ 32 = some (ctx₃, _) ∧ _ :=
    Algorithm.hmacFinal_eq hctx₂ (by rw [frames_length, hB]; omega) (by decide)
  rw [readBlockMac, hinit, Option.bind_eq_bind, Option.bind_some, hrun, Option.bind_eq_bind,
    Option.bind_some, hfinal, frameMac_toList]
  rfl

theorem writeBlockMac_eq (stack : Ctx sha256Size) (ctx : HmacCtx sha256Size)
    (key : Vector UInt8 32) (frame : RpmbFrame) :
    writeBlockMac stack ctx key frame = some (frameMac key.toList frame.macInput).toList := by
  have hB : sha256Size.B = 64 := rfl
  have hkey : (32 : UInt32).toNat = key.toList.length := Vector.length_toList.symm
  have hlen : macBytes.toNat = frame.macInput.length := (macInput_length frame).symm
  rw [frameMac_toList]
  exact Algorithm.hmac_eq stack ctx hkey (by rw [← hkey]; decide) hlen
    (by rw [← hlen, hB]; decide) (by decide)

/-- The MAC is not part of what it is computed from. -/
theorem writeBlockFrame_keyMac (addr : UInt16) (cnt : UInt32) (data : Vector UInt8 256)
    (key : Vector UInt8 32) :
    frameMac key.toList (writeBlockFrame frameMac addr cnt data key).macInput =
      (writeBlockFrame frameMac addr cnt data key).keyMac := rfl

/-- **Only authentic data is written.**  With a key, `do_rpmb_read_block` writes nothing
unless the MAC that it computes frame by frame is the one in the last frame. -/
theorem readBlock_output_authentic (stack : Ctx sha256Size) (ctx : HmacCtx sha256Size)
    (addr blocksCnt : UInt16) (run : ReadBlockRun) (key : Vector UInt8 32)
    (hkey : run.key = .given key)
    (hout : (doRpmbReadBlock frameMac (some addr) (some blocksCnt) run).output ≠ []) :
    readBlockMac stack ctx key run.answer blocksCnt.toNat =
        some (run.answer.frames (blocksCnt.toNat - 1)).keyMac.toList ∧
      (run.answer.frames (blocksCnt.toNat - 1)).keyMac = frameMac key.toList
        ((List.range blocksCnt.toNat).flatMap fun i => (run.answer.frames i).macInput) := by
  have haccepted : run.Accepted frameMac blocksCnt.toNat := by
    by_contra hrefused
    exact hout (doRpmbReadBlock_refused frameMac addr hrefused).2
  have hverified := haccepted.verified
  simp only [ReadBlockRun.verifies, hkey, macMatches, decide_eq_true_eq] at hverified
  have hn : blocksCnt.toNat ≤ 65535 := Nat.le_of_lt_succ blocksCnt.toNat_lt
  exact ⟨by rw [readBlockMac_eq stack ctx key run.answer hn, hverified], hverified.symm⟩

/-- A device that sends back the frame that was written. -/
def echoRun (addr : UInt16) (cnt : UInt32) (data : Vector UInt8 256) (key : Vector UInt8 32) :
    ReadBlockRun where
  opens := true
  allocates := true
  opensOutput := true
  key := .given key
  answer := ⟨fun _ => 0, fun _ => writeBlockFrame frameMac addr cnt data key⟩
  room := 256

theorem echoRun_accepted (addr : UInt16) (cnt : UInt32) (data : Vector UInt8 256)
    (key : Vector UInt8 32) : (echoRun addr cnt data key).Accepted frameMac 1 where
  opens := rfl
  blocks := by decide
  allocates := rfl
  opensOutput := rfl
  answered := ⟨Int.le_refl 0, rfl⟩
  result := rfl
  verified := by
    simp only [ReadBlockRun.verifies, echoRun, macMatches, List.range_one, List.flatMap_singleton,
      writeBlockFrame_keyMac, decide_true]

theorem echoRun_output (addr : UInt16) (cnt : UInt32) (data : Vector UInt8 256)
    (key : Vector UInt8 32) :
    (doRpmbReadBlock frameMac (some addr) (some 1) (echoRun addr cnt data key)).output ≠ [] := by
  have hroom : ¬ (echoRun addr cnt data key).room < 256 * (1 : UInt16).toNat := by
    simp [echoRun]
  rw [(doRpmbReadBlock_accepted frameMac addr (echoRun_accepted addr cnt data key)).2,
    if_neg hroom, ← List.length_pos_iff, readData_length]
  decide

theorem readBlock_output_echo :
    let run := echoRun 5 1 (Vector.replicate 256 7) (Vector.replicate 32 0)
    readBlockMac sha256Size.dirtyCtx sha256Size.dirtyHmacCtx (Vector.replicate 32 0) run.answer 1 =
        some (run.answer.frames 0).keyMac.toList ∧
      (run.answer.frames 0).keyMac = frameMac (Vector.replicate 32 0).toList
        ((List.range 1).flatMap fun i => (run.answer.frames i).macInput) :=
  readBlock_output_authentic _ _ 5 1 (echoRun 5 1 _ _) (Vector.replicate 32 0) rfl
    (echoRun_output 5 1 _ _)

/-- **What a write sends, a read accepts.** -/
theorem writeBlockFrame_accepted (stack stack' : Ctx sha256Size) (ctx ctx' : HmacCtx sha256Size)
    (addr : UInt16) (cnt : UInt32) (data : Vector UInt8 256) (key : Vector UInt8 32)
    (ioctl : Nat → Int) :
    let frame := writeBlockFrame frameMac addr cnt data key
    writeBlockMac stack ctx key frame = some frame.keyMac.toList ∧
      readBlockMac stack' ctx' key ⟨ioctl, fun _ => frame⟩ 1 = some frame.keyMac.toList := by
  refine ⟨?_, ?_⟩
  · rw [writeBlockMac_eq, writeBlockFrame_keyMac]
  · rw [readBlockMac_eq _ _ _ _ (by decide), List.range_one, List.flatMap_singleton,
      writeBlockFrame_keyMac]

end MmcUtils
