import JsrD10f.RpmbMac

/-!
# Reading and writing in pieces

`read` and `write` may move fewer bytes than they are asked for, and may be interrupted
before they move any.  `DO_IO` repeats the call until all bytes are moved, the file ends or
a call fails.  The `rpmb` commands read keys and data and write their output through it.

The calls are a list of what the kernel does, one element a call.  The theorems at the end
say that the commands do the same for every such list in which no call fails: how the bytes
were cut does not matter, even if data and key both come from the standard input.
-/

namespace MmcUtils

/-- What one call of `read` or `write` does: it is interrupted, fails, or moves as many
bytes as it can, but no more than `most + 1`. -/
inductive IoCall where
  | eintr
  | failed
  | moves (most : Nat)
deriving DecidableEq, Repr

def IoCall.isMoves : IoCall → Bool
  | .moves _ => true
  | _ => false

section Loop

variable {σ : Type}

/-- `DO_IO`, for a call `func` that moves a number of bytes at an offset or fails.  The
result is `ret` with the calls that are left; it is missing when the calls run out. -/
def doIo (func : σ → Nat → Nat → Option (Nat × σ)) (nbyte : Nat) :
    List IoCall → Nat → σ → Option (Int × List IoCall × σ)
  | [], _, _ => none
  | .eintr :: calls, ret, s =>
      if ret ≠ nbyte then doIo func nbyte calls ret s else some (ret, calls, s)
  | .failed :: calls, _, s => some (-1, calls, s)
  | .moves most :: calls, ret, s =>
      match func s ret (min (most + 1) (nbyte - ret)) with
      | none => some (-1, calls, s)
      | some (r, s) =>
          if r ≠ 0 ∧ ret + r ≠ nbyte then doIo func nbyte calls (ret + r) s
          else some ((ret + r : Nat), calls, s)

/-- The call moves the bytes up to `limit` in order, `after k` being the state behind `k` of
them, and at the limit it reports the end or fails. -/
structure Flow (func : σ → Nat → Nat → Option (Nat × σ)) (after : Nat → σ) (limit : Nat)
    (ends : Bool) : Prop where
  inside : ∀ k want, k < limit → 0 < want →
    func (after k) k want = some (min want (limit - k), after (k + min want (limit - k)))
  atEnd : ∀ want, 0 < want →
    func (after limit) limit want = if ends then some (0, after limit) else none

/-- The value of `DO_IO` when no call fails but for the limit. -/
def flowResult (nbyte limit : Nat) (ends : Bool) : Int :=
  if limit < nbyte ∧ ends = false then -1 else (min nbyte limit : Nat)

/-- **`DO_IO` moves all there is.**  With a call for each byte the loop ends.  It has moved
the bytes up to `nbyte` or the limit, unless a call failed; then it has moved the first
few. -/
theorem doIo_flow {func : σ → Nat → Nat → Option (Nat × σ)} {after : Nat → σ} {limit : Nat}
    {ends : Bool} (h : Flow func after limit ends) {nbyte : Nat} {calls : List IoCall}
    {ret : Nat} (hret : ret < nbyte) (hlimit : ret ≤ limit)
    (henough : nbyte - ret ≤ calls.countP IoCall.isMoves) :
    ∃ value rest k, doIo func nbyte calls ret (after ret) = some (value, rest, after k) ∧
      k ≤ limit ∧ rest ⊆ calls ∧
      ((value = flowResult nbyte limit ends ∧ k = min nbyte limit ∧
          calls.countP IoCall.isMoves ≤ rest.countP IoCall.isMoves + (nbyte - ret)) ∨
        (.failed ∈ calls ∧ value = -1 ∧ k ≤ nbyte)) := by
  induction calls generalizing ret with
  | nil =>
      simp at henough
      omega
  | cons call calls ih =>
      cases call with
      | eintr =>
          have hcount : (IoCall.eintr :: calls).countP IoCall.isMoves =
              calls.countP IoCall.isMoves := List.countP_cons_of_neg (by decide)
          rw [hcount] at henough ⊢
          obtain ⟨value, rest, k, hrun, hk, hsub, hcase⟩ := ih hret hlimit henough
          refine ⟨value, rest, k, ?_, hk, List.subset_cons_of_subset _ hsub, ?_⟩
          · rw [doIo, if_pos (by omega), hrun]
          · rcases hcase with hdone | ⟨hfail, hvalue⟩
            · exact Or.inl hdone
            · exact Or.inr ⟨List.mem_cons_of_mem _ hfail, hvalue⟩
      | failed =>
          exact ⟨-1, calls, ret, by rw [doIo], hlimit, List.subset_cons_self _ _,
            Or.inr ⟨List.mem_cons_self, rfl, by omega⟩⟩
      | moves most =>
          have hcount : (IoCall.moves most :: calls).countP IoCall.isMoves =
              calls.countP IoCall.isMoves + 1 := List.countP_cons_of_pos rfl
          rw [hcount] at henough ⊢
          rcases Nat.lt_or_ge ret limit with hin | hend
          · have hmove := h.inside ret (min (most + 1) (nbyte - ret)) hin (by omega)
            generalize hr : min (min (most + 1) (nbyte - ret)) (limit - ret) = r at hmove
            have hpos : r ≠ 0 := by omega
            by_cases hall : ret + r = nbyte
            · refine ⟨(ret + r : Nat), calls, ret + r, ?_, by omega,
                List.subset_cons_self _ _, Or.inl ⟨?_, by omega, by omega⟩⟩
              · simp [doIo, hmove, hall]
              · have hmin : min nbyte limit = ret + r := by omega
                rw [flowResult, if_neg (by omega), hmin]
            · obtain ⟨value, rest, k, hrun, hk, hsub, hcase⟩ :=
                ih (show ret + r < nbyte by omega) (by omega) (by omega)
              refine ⟨value, rest, k, ?_, hk, List.subset_cons_of_subset _ hsub, ?_⟩
              · simp [doIo, hmove, hpos, hall, hrun]
              · rcases hcase with ⟨hvalue, hmin, hleft⟩ | ⟨hfail, hvalue⟩
                · exact Or.inl ⟨hvalue, hmin, by omega⟩
                · exact Or.inr ⟨List.mem_cons_of_mem _ hfail, hvalue⟩
          · have heq : ret = limit := by omega
            subst heq
            have hmove := h.atEnd (min (most + 1) (nbyte - ret)) (by omega)
            refine ⟨flowResult nbyte ret ends, calls, ret, ?_, Nat.le_refl _,
              List.subset_cons_self _ _, Or.inl ⟨rfl, by omega, by omega⟩⟩
            cases ends with
            | true =>
                have hmin : min nbyte ret = ret := by omega
                simp [doIo, hmove, flowResult, hmin]
            | false => simp [doIo, hmove, flowResult, hret]

end Loop

/-! ## Reading -/

/-- An open file, and the bytes of it that are in the buffer. -/
structure Reader where
  unread : List UInt8
  buf : List UInt8

def Reader.read (f : Reader) (_ : Nat) (want : Nat) : Option (Nat × Reader) :=
  some (min want f.unread.length, ⟨f.unread.drop want, f.buf ++ f.unread.take want⟩)

theorem read_flow (src : List UInt8) :
    Flow Reader.read (fun k => ⟨src.drop k, src.take k⟩) src.length true where
  inside := by
    intro k want _ _
    have hlen : min want (src.drop k).length = min want (src.length - k) := by
      rw [List.length_drop]
    have hdrop : (src.drop k).drop want = src.drop (k + min want (src.length - k)) := by
      rw [List.drop_drop]
      rcases Nat.le_total want (src.length - k) with hle | hge
      · rw [Nat.min_eq_left hle]
      · rw [Nat.min_eq_right hge, List.drop_of_length_le (by omega),
          List.drop_of_length_le (by omega)]
    have htake : src.take k ++ (src.drop k).take want =
        src.take (k + min want (src.length - k)) := by
      rw [← List.take_add]
      rcases Nat.le_total want (src.length - k) with hle | hge
      · rw [Nat.min_eq_left hle]
      · rw [Nat.min_eq_right hge, List.take_of_length_le (by omega),
          List.take_of_length_le (by omega)]
    simp only [Reader.read, hlen, hdrop, htake]
  atEnd := by
    intro want _
    simp [Reader.read]

/-- The bytes, if there are as many. -/
def blockOf (n : Nat) (bytes : List UInt8) : Option (Vector UInt8 n) :=
  if h : (bytes.take n).length = n then some ⟨(bytes.take n).toArray, by simpa using h⟩
  else none

theorem blockOf_take (n : Nat) (bytes : List UInt8) :
    blockOf n (bytes.take n) = blockOf n bytes := by
  simp only [blockOf, List.take_take, Nat.min_self]

/-- A key or data read through `DO_IO`, and none if the value is negative or not the size
asked for.  The calls and the bytes that are left come with it. -/
def readBlock (n : Nat) (calls : List IoCall) (src : List UInt8) :
    Option (Option (Vector UInt8 n) × List IoCall × List UInt8) := do
  let (ret, calls, f) ← doIo Reader.read n calls 0 ⟨src, []⟩
  some (if ret = n then blockOf n f.buf else none, calls, f.unread)

/-- **A block is read whole.**  However the kernel cuts the file, the block read is its
first `n` bytes and the file stands behind them, unless a call failed. -/
theorem readBlock_eq {n : Nat} (hn : 0 < n) {calls : List IoCall} (src : List UInt8)
    (henough : n ≤ calls.countP IoCall.isMoves) :
    ∃ block rest left, readBlock n calls src = some (block, rest, left) ∧ rest ⊆ calls ∧
      ((block = blockOf n src ∧ left = src.drop n ∧
          calls.countP IoCall.isMoves ≤ rest.countP IoCall.isMoves + n) ∨
        (.failed ∈ calls ∧ block = none)) := by
  obtain ⟨value, rest, k, hrun, -, hsub, hcase⟩ := doIo_flow (read_flow src) hn
    (Nat.zero_le _) (show n - 0 ≤ calls.countP IoCall.isMoves from henough)
  simp only [List.drop_zero, List.take_zero] at hrun
  refine ⟨if value = n then blockOf n (src.take k) else none, rest, src.drop k,
    by simp [readBlock, hrun], hsub, ?_⟩
  rcases hcase with ⟨rfl, rfl, hleft⟩ | ⟨hfail, rfl, -⟩
  · refine Or.inl ⟨?_, ?_, hleft⟩
    · have hvalue : flowResult n src.length true = ((min n src.length : Nat) : Int) := by
        simp [flowResult]
      rw [hvalue]
      by_cases hlong : n ≤ src.length
      · rw [Nat.min_eq_left hlong, if_pos rfl, blockOf_take]
      · have hshort : ¬ ((min n src.length : Nat) : Int) = n := by omega
        have hlen : ¬ (src.take n).length = n := by
          rw [List.length_take]
          omega
        rw [if_neg hshort, blockOf, dif_neg hlen]
    · rcases Nat.le_total n src.length with hle | hge
      · rw [Nat.min_eq_left hle]
      · rw [Nat.min_eq_right hge, List.drop_length, List.drop_of_length_le hge]
  · exact Or.inr ⟨hfail, by rw [if_neg (by omega)]⟩

/-! ## Writing -/

/-- The output, and the number of bytes it still takes. -/
structure Writer where
  written : List UInt8
  room : Nat

/-- `write` of the bytes of `buf` from an offset on. -/
def Writer.write (buf : List UInt8) (f : Writer) (off want : Nat) : Option (Nat × Writer) :=
  if f.room = 0 then none
  else some (min want f.room,
    ⟨f.written ++ (buf.drop off).take (min want f.room), f.room - min want f.room⟩)

theorem write_flow (buf : List UInt8) (f : Writer) :
    Flow (Writer.write buf) (fun k => ⟨f.written ++ buf.take k, f.room - k⟩) f.room false where
  inside := by
    intro k want hk _
    have hroom : f.room - k ≠ 0 := by omega
    have hleft : f.room - k - min want (f.room - k) = f.room - (k + min want (f.room - k)) := by
      omega
    simp only [Writer.write, hroom, if_false, hleft, List.append_assoc, ← List.take_add]
  atEnd := by
    intro want _
    simp [Writer.write]

/-- The loop of `do_rpmb_read_block` over the frames: whether it came to its end, and the
output. -/
def writeBlocks : List (List UInt8) → List IoCall → Writer → Option (Bool × Writer)
  | [], _, f => some (true, f)
  | block :: blocks, calls, f => do
      let (ret, calls, f) ← doIo (Writer.write block) block.length calls 0 f
      if ret = block.length then writeBlocks blocks calls f else some (false, f)

/-- **The output is a prefix of the blocks.**  However the kernel cuts the writes, all that
fits is written, unless a call failed; then a part of that is. -/
theorem writeBlocks_eq {blocks : List (List UInt8)} (hne : ∀ b ∈ blocks, b ≠ [])
    {calls : List IoCall} (f : Writer)
    (henough : blocks.flatten.length ≤ calls.countP IoCall.isMoves) :
    ∃ done f', writeBlocks blocks calls f = some (done, f') ∧
      ((done = decide (blocks.flatten.length ≤ f.room) ∧
          f'.written = f.written ++ blocks.flatten.take f.room) ∨
        (.failed ∈ calls ∧ done = false ∧
          f'.written <+: f.written ++ blocks.flatten.take f.room)) := by
  induction blocks generalizing calls f with
  | nil => exact ⟨true, f, rfl, Or.inl ⟨by simp, by simp⟩⟩
  | cons block blocks ih =>
      have hpos : 0 < block.length := List.length_pos_iff.mpr (hne block List.mem_cons_self)
      rw [List.flatten_cons, List.length_append] at henough ⊢
      obtain ⟨value, rest, k, hrun, hk, hsub, hcase⟩ := doIo_flow (write_flow block f)
        hpos (Nat.zero_le _) (show block.length - 0 ≤ calls.countP IoCall.isMoves by omega)
      simp only [List.take_zero, List.append_nil, Nat.sub_zero] at hrun
      rcases hcase with ⟨rfl, rfl, hleft⟩ | ⟨hfail, rfl, hkn⟩
      · by_cases hfits : block.length ≤ f.room
        · have hvalue : flowResult block.length f.room false = (block.length : Int) := by
            rw [flowResult, if_neg (by omega), Nat.min_eq_left hfits]
          rw [Nat.min_eq_left hfits, List.take_length, hvalue] at hrun
          obtain ⟨done, f', hrest, hcase⟩ := ih (fun b hb => hne b (List.mem_cons_of_mem _ hb))
            ⟨f.written ++ block, f.room - block.length⟩
            (show blocks.flatten.length ≤ rest.countP IoCall.isMoves by omega)
          have htake : (block ++ blocks.flatten).take f.room =
              block ++ blocks.flatten.take (f.room - block.length) := by
            rw [List.take_append, List.take_of_length_le hfits]
          refine ⟨done, f', by simp [writeBlocks, hrun, hrest], ?_⟩
          rw [htake, ← List.append_assoc]
          rcases hcase with ⟨hdone, hout⟩ | ⟨hfail, hdone, hout⟩
          · refine Or.inl ⟨?_, hout⟩
            rw [hdone]
            exact decide_eq_decide.mpr (by show _ ≤ f.room - block.length ↔ _; omega)
          · exact Or.inr ⟨hsub hfail, hdone, hout⟩
        · have hvalue : flowResult block.length f.room false = -1 := by
            rw [flowResult, if_pos ⟨by omega, rfl⟩]
          have hmin : min block.length f.room = f.room := by omega
          rw [hvalue, hmin] at hrun
          refine ⟨false, _, by simp only [writeBlocks, hrun]; rfl, Or.inl ⟨?_, ?_⟩⟩
          · exact (decide_eq_false (by omega)).symm
          · show _ = f.written ++ (block ++ blocks.flatten).take f.room
            rw [List.take_append_of_le_length (by omega)]
      · refine ⟨false, _, by simp only [writeBlocks, hrun]; rfl, Or.inr ⟨hfail, rfl, ?_⟩⟩
        refine List.prefix_append_right_inj _ |>.mpr ?_
        rw [List.take_append]
        refine List.IsPrefix.trans ?_ (List.prefix_append _ _)
        exact List.take_prefix_take_left hk

/-! ## The commands -/

/-- A file argument: `-`, or a path with what the file holds if it can be opened. -/
inductive Input where
  | stdin
  | file (content : Option (List UInt8))
deriving DecidableEq

/-- What is read of an argument, with the rest of the standard input. -/
def Input.read (n : Nat) (stdin : List UInt8) (calls : List IoCall) :
    Input → Option (Option (Vector UInt8 n) × List UInt8 × List IoCall)
  | .stdin => do
      let (block, calls, stdin) ← readBlock n calls stdin
      some (block, stdin, calls)
  | .file none => some (none, stdin, calls)
  | .file (some content) => do
      let (block, calls, _) ← readBlock n calls content
      some (block, stdin, calls)

/-- The first bytes of an argument. -/
def Input.block (n : Nat) (stdin : List UInt8) : Input → Option (Vector UInt8 n)
  | .stdin => blockOf n stdin
  | .file content => content.bind (blockOf n)

/-- What is left of the standard input behind them. -/
def Input.leaves (n : Nat) (stdin : List UInt8) : Input → List UInt8
  | .stdin => stdin.drop n
  | .file _ => stdin

theorem Input.read_eq {n : Nat} (hn : 0 < n) (stdin : List UInt8) {calls : List IoCall}
    (input : Input) (henough : n ≤ calls.countP IoCall.isMoves) :
    ∃ block left rest, input.read n stdin calls = some (block, left, rest) ∧ rest ⊆ calls ∧
      ((block = input.block n stdin ∧ left = input.leaves n stdin ∧
          calls.countP IoCall.isMoves ≤ rest.countP IoCall.isMoves + n) ∨
        (.failed ∈ calls ∧ block = none)) := by
  cases input with
  | stdin =>
      obtain ⟨block, rest, left, hrun, hsub, hcase⟩ := readBlock_eq hn stdin henough
      exact ⟨block, left, rest, by simp [Input.read, hrun], hsub, hcase⟩
  | file content =>
      cases content with
      | none => exact ⟨none, stdin, calls, rfl, List.Subset.refl _, Or.inl ⟨rfl, rfl, by omega⟩⟩
      | some content =>
          obtain ⟨block, rest, left, hrun, hsub, hcase⟩ := readBlock_eq hn content henough
          refine ⟨block, stdin, rest, by simp [Input.read, hrun], hsub, ?_⟩
          rcases hcase with ⟨hblock, -, hleft⟩ | hfail
          · exact Or.inl ⟨hblock, rfl, hleft⟩
          · exact Or.inr hfail

section Commands

variable (hmac : List UInt8 → List UInt8 → Vector UInt8 32)

/-- `do_rpmb_write_block` with the files it reads. -/
structure WriteBlockFiles where
  opens : Bool
  counter : RpmbAnswer
  stdin : List UInt8
  data : Input
  key : Input
  answer : RpmbAnswer

def doRpmbWriteBlockIo (addr : Option UInt16) (files : WriteBlockFiles) (calls : List IoCall) :
    Option Outcome :=
  if !files.opens then some (refused [])
  else
    match rpmbReadCounter files.counter, addr with
    | some (_, some cnt), some addr => do
        let (data, stdin, calls) ← files.data.read 256 files.stdin calls
        match data with
        | none => some (refused (counterOp files.counter).2)
        | some data => do
            let (key, _, _) ← files.key.read 32 stdin calls
            match key with
            | none => some (refused (counterOp files.counter).2)
            | some key => some (checkResponse (counterOp files.counter).2
                (doRpmbOp files.answer (writeBlockFrame hmac addr cnt data key) 1)
                (files.answer.frames 0))
    | _, _ => some (refused (counterOp files.counter).2)

/-- The run in which the files are read at once.  A key on the standard input stands behind
the data if these do too. -/
def WriteBlockFiles.whole (files : WriteBlockFiles) : WriteBlockRun where
  opens := files.opens
  counter := files.counter
  data := files.data.block 256 files.stdin
  key := files.key.block 32 (files.data.leaves 256 files.stdin)
  answer := files.answer

/-- **Data and key do not depend on how they are delivered.**  For every way in which the
kernel cuts the reads, `do_rpmb_write_block` does what it does with the first 256 bytes and
the 32 bytes behind them, or of the key file.  If a call fails it may instead give up
before anything is written to the device. -/
theorem writeBlockIo_eq (addr : Option UInt16) (files : WriteBlockFiles) (calls : List IoCall)
    (henough : 288 ≤ calls.countP IoCall.isMoves) :
    ∃ outcome, doRpmbWriteBlockIo hmac addr files calls = some outcome ∧
      (outcome = doRpmbWriteBlock hmac addr files.whole ∨
        (.failed ∈ calls ∧ outcome = refused (counterOp files.counter).2)) := by
  cases hopens : files.opens with
  | false =>
      exact ⟨refused [], by simp [doRpmbWriteBlockIo, hopens],
        Or.inl (by simp [doRpmbWriteBlock, WriteBlockFiles.whole, hopens])⟩
  | true =>
      -- without a counter or an address nothing is read
      have hskip : (∀ r cnt a, ¬ (rpmbReadCounter files.counter = some (r, some cnt) ∧
            addr = some a)) →
          doRpmbWriteBlockIo hmac addr files calls =
              some (refused (counterOp files.counter).2) ∧
            doRpmbWriteBlock hmac addr files.whole = refused (counterOp files.counter).2 := by
        intro hnone
        constructor
        · simp only [doRpmbWriteBlockIo, hopens, Bool.not_true, Bool.false_eq_true, if_false]
          split
          · next r cnt a hcnt =>
              exact absurd ⟨hcnt, rfl⟩ (hnone r cnt a)
          · rfl
        · simp only [doRpmbWriteBlock, WriteBlockFiles.whole, hopens, Bool.not_true,
            Bool.false_eq_true, if_false]
          split
          · next r cnt a data key hcnt _ _ =>
              exact absurd ⟨hcnt, rfl⟩ (hnone r cnt a)
          · rfl
      by_cases hsome : ∃ r cnt a, rpmbReadCounter files.counter = some (r, some cnt) ∧
          addr = some a
      · obtain ⟨r, cnt, a, hcnt, rfl⟩ := hsome
        obtain ⟨data, left, rest, hdata, hsub, hcase⟩ :=
          Input.read_eq (by decide) files.stdin files.data (show 256 ≤ calls.countP IoCall.isMoves by omega)
        rcases hcase with ⟨rfl, rfl, hleft⟩ | ⟨hfail, rfl⟩
        · cases hblock : files.data.block 256 files.stdin with
          | none =>
              refine ⟨refused (counterOp files.counter).2, ?_, Or.inl ?_⟩
              · simp [doRpmbWriteBlockIo, hopens, hcnt, hdata, hblock]
              · simp [doRpmbWriteBlock, WriteBlockFiles.whole, hopens, hblock]
          | some data =>
              obtain ⟨key, left', rest', hkey, -, hcase⟩ := Input.read_eq (by decide)
                (files.data.leaves 256 files.stdin) files.key
                (show 32 ≤ rest.countP IoCall.isMoves by omega)
              rcases hcase with ⟨rfl, -, -⟩ | ⟨hfail, rfl⟩
              · cases hkblock : files.key.block 32 (files.data.leaves 256 files.stdin) with
                | none =>
                    refine ⟨refused (counterOp files.counter).2, ?_, Or.inl ?_⟩
                    · simp [doRpmbWriteBlockIo, hopens, hcnt, hdata, hblock, hkey, hkblock]
                    · simp [doRpmbWriteBlock, WriteBlockFiles.whole, hopens, hkblock]
                | some key =>
                    refine ⟨_, ?_, Or.inl rfl⟩
                    simp [doRpmbWriteBlockIo, doRpmbWriteBlock, WriteBlockFiles.whole, hopens,
                      hcnt, hdata, hblock, hkey, hkblock]
              · refine ⟨refused (counterOp files.counter).2, ?_, Or.inr ⟨hsub hfail, rfl⟩⟩
                simp [doRpmbWriteBlockIo, hopens, hcnt, hdata, hblock, hkey]
        · refine ⟨refused (counterOp files.counter).2, ?_, Or.inr ⟨hfail, rfl⟩⟩
          simp [doRpmbWriteBlockIo, hopens, hcnt, hdata]
      · obtain ⟨hio, hwhole⟩ := hskip (fun r cnt a h => hsome ⟨r, cnt, a, h⟩)
        exact ⟨_, hio, Or.inl hwhole.symm⟩

/-- Every byte comes alone, behind an interruption. -/
def byteByByte (n : Nat) : List IoCall :=
  (List.replicate n [.eintr, .moves 0]).flatten

/-- Data and key on the standard input, and a device that accepts the write. -/
def pipedBlock : WriteBlockFiles where
  opens := true
  counter := ⟨fun _ => 0, fun _ => .request mmcRpmbReadCnt⟩
  stdin := List.replicate 256 7 ++ List.replicate 32 1
  data := .stdin
  key := .stdin
  answer := ⟨fun _ => 0, fun _ => .request mmcRpmbWrite⟩

theorem writeBlockIo_pipedBlock :
    ∃ outcome, doRpmbWriteBlockIo frameMac (some 5) pipedBlock (byteByByte 288) = some outcome ∧
      (outcome = doRpmbWriteBlock frameMac (some 5) pipedBlock.whole ∨
        (.failed ∈ byteByByte 288 ∧ outcome = refused (counterOp pipedBlock.counter).2)) :=
  writeBlockIo_eq frameMac (some 5) pipedBlock (byteByByte 288) (by decide +kernel)

/-- `do_rpmb_read_block` with the key file that it reads, if one is given. -/
structure ReadBlockFiles where
  opens : Bool
  allocates : Bool
  opensOutput : Bool
  stdin : List UInt8
  key : Option Input
  answer : RpmbAnswer
  room : Nat

def keyArgument : Option (Vector UInt8 32) → KeyArgument
  | none => .unreadable
  | some key => .given key

def ReadBlockFiles.readKey (files : ReadBlockFiles) (calls : List IoCall) :
    Option (KeyArgument × List IoCall) :=
  match files.key with
  | none => some (.absent, calls)
  | some input => do
      let (key, _, calls) ← input.read 32 files.stdin calls
      some (keyArgument key, calls)

/-- The run with a key that was read. -/
def ReadBlockFiles.withKey (files : ReadBlockFiles) (key : KeyArgument) : ReadBlockRun where
  opens := files.opens
  allocates := files.allocates
  opensOutput := files.opensOutput
  key := key
  answer := files.answer
  room := files.room

/-- The key of a file that is read at once. -/
def ReadBlockFiles.keyOf (files : ReadBlockFiles) : KeyArgument :=
  match files.key with
  | none => .absent
  | some input => keyArgument (input.block 32 files.stdin)

/-- `do_rpmb_read_block` behind its operation, which has the result `op`. -/
def finishIo (run : ReadBlockRun) (n : Nat) (op : Int × List RpmbIoctl) (calls : List IoCall) :
    Option Outcome :=
  if op.1 ≠ 0 then some (refused op.2)
  else if (run.answer.frames (n - 1)).result ≠ 0 then some (refused op.2)
  else if !run.verifies hmac n then some (refused op.2)
  else do
    let (done, f) ← writeBlocks ((List.range n).map fun i => (run.answer.frames i).data.toList)
      calls ⟨[], run.room⟩
    some ⟨if done then returned 256 else .exit 1, f.written, op.2⟩

def doRpmbReadBlockIo (addr blocksCnt : Option UInt16) (files : ReadBlockFiles)
    (calls : List IoCall) : Option Outcome :=
  if !files.opens then some (refused [])
  else
    match addr, blocksCnt with
    | some addr, some blocksCnt =>
        let n := blocksCnt.toNat
        if n = 0 then some (refused [])
        else if !files.allocates || !files.opensOutput then some (refused [])
        else do
          let (key, calls) ← files.readKey calls
          if key = .unreadable then some (refused [])
          else
            finishIo hmac (files.withKey key) n
              (doRpmbOp files.answer (readBlockFrame addr) n) calls
    | _, _ => some (refused [])

theorem ReadBlockFiles.readKey_eq (files : ReadBlockFiles) {calls : List IoCall}
    (henough : 32 ≤ calls.countP IoCall.isMoves) :
    ∃ key rest, files.readKey calls = some (key, rest) ∧ rest ⊆ calls ∧
      ((key = files.keyOf ∧
          calls.countP IoCall.isMoves ≤ rest.countP IoCall.isMoves + 32) ∨
        (.failed ∈ calls ∧ key = .unreadable)) := by
  cases hkey : files.key with
  | none =>
      exact ⟨.absent, calls, by simp [ReadBlockFiles.readKey, hkey], List.Subset.refl _,
        Or.inl ⟨by simp [ReadBlockFiles.keyOf, hkey], by omega⟩⟩
  | some input =>
      obtain ⟨block, left, rest, hread, hsub, hcase⟩ :=
        Input.read_eq (by decide) files.stdin input henough
      refine ⟨keyArgument block, rest, by simp [ReadBlockFiles.readKey, hkey, hread], hsub, ?_⟩
      rcases hcase with ⟨rfl, -, hleft⟩ | ⟨hfail, rfl⟩
      · exact Or.inl ⟨by simp [ReadBlockFiles.keyOf, hkey], hleft⟩
      · exact Or.inr ⟨hfail, rfl⟩

/-- `outcome` gave up where `whole` went on: it has exit code 1 and wrote a part of the
output. -/
structure GaveUp (outcome whole : Outcome) : Prop where
  ending : outcome.ending = .exit 1
  output : outcome.output <+: whole.output

theorem readData_eq_flatten (answer : RpmbAnswer) (n : Nat) :
    ((List.range n).map fun i => (answer.frames i).data.toList).flatten = answer.readData n := by
  rw [RpmbAnswer.readData, List.flatMap_def]

theorem finishIo_eq (run : ReadBlockRun) (n : Nat) (op : Int × List RpmbIoctl)
    {calls : List IoCall} (henough : 256 * n ≤ calls.countP IoCall.isMoves) :
    ∃ outcome, finishIo hmac run n op calls = some outcome ∧
      (outcome = run.finish hmac n op ∨
        (.failed ∈ calls ∧ GaveUp outcome (run.finish hmac n op))) := by
  unfold finishIo ReadBlockRun.finish
  by_cases hop : op.1 = 0
  swap
  · exact ⟨refused op.2, by rw [if_pos hop], Or.inl (by rw [if_pos hop])⟩
  simp only [hop, ne_eq, not_true_eq_false, if_false]
  by_cases hresult : (run.answer.frames (n - 1)).result = 0
  swap
  · exact ⟨refused op.2, by rw [if_pos hresult], Or.inl (by rw [if_pos hresult])⟩
  simp only [hresult, not_true_eq_false, if_false]
  cases hverified : run.verifies hmac n with
  | false => exact ⟨refused op.2, rfl, Or.inl rfl⟩
  | true =>
      simp only [Bool.not_true, Bool.false_eq_true, if_false]
      have hne : ∀ b ∈ (List.range n).map fun i => (run.answer.frames i).data.toList,
          b ≠ [] := by
        intro b hb
        obtain ⟨i, -, rfl⟩ := List.mem_map.mp hb
        rw [← List.length_pos_iff, Vector.length_toList]
        decide
      have hlength := readData_length run.answer n
      obtain ⟨done, f, hrun, hcase⟩ := writeBlocks_eq hne ⟨[], run.room⟩
        (show _ ≤ calls.countP IoCall.isMoves by rw [readData_eq_flatten]; omega)
      rw [readData_eq_flatten] at hcase
      rw [hrun]
      refine ⟨⟨if done then returned 256 else .exit 1, f.written, op.2⟩, rfl, ?_⟩
      -- both branches of the model of the whole write the same prefix
      have hfinish : (if run.room < 256 * n then
            (⟨.exit 1, (run.answer.readData n).take run.room, op.2⟩ : Outcome)
          else ⟨returned 256, run.answer.readData n, op.2⟩) =
          ⟨if (run.answer.readData n).length ≤ run.room then returned 256 else .exit 1,
            (run.answer.readData n).take run.room, op.2⟩ := by
        by_cases hroom : run.room < 256 * n
        · rw [if_pos hroom, if_neg (by omega)]
        · rw [if_neg hroom, if_pos (by omega), List.take_of_length_le (by omega)]
      rw [hfinish]
      rcases hcase with ⟨rfl, hout⟩ | ⟨hfail, rfl, hout⟩
      · left
        simp [hout]
      · exact Or.inr ⟨hfail, rfl, by simpa using hout⟩

/-- **The output does not depend on how it is taken.**  For every way in which the kernel
cuts the key and the writes, `do_rpmb_read_block` does what it does with a key file that is
read at once and an output that takes its first `room` bytes.  If a call fails it may give
up, with exit code 1 and a part of that output. -/
theorem readBlockIo_eq (addr blocksCnt : Option UInt16) (files : ReadBlockFiles)
    (calls : List IoCall)
    (henough : 32 + 256 * (blocksCnt.getD 0).toNat ≤ calls.countP IoCall.isMoves) :
    ∃ outcome, doRpmbReadBlockIo hmac addr blocksCnt files calls = some outcome ∧
      (outcome = doRpmbReadBlock hmac addr blocksCnt (files.withKey files.keyOf) ∨
        (.failed ∈ calls ∧
          GaveUp outcome (doRpmbReadBlock hmac addr blocksCnt (files.withKey files.keyOf)))) := by
  cases addr with
  | none =>
      exact ⟨refused [], by simp [doRpmbReadBlockIo], Or.inl (by simp [doRpmbReadBlock])⟩
  | some addr =>
      cases blocksCnt with
      | none =>
          exact ⟨refused [], by simp [doRpmbReadBlockIo], Or.inl (by simp [doRpmbReadBlock])⟩
      | some blocksCnt =>
          simp only [Option.getD_some] at henough
          by_cases hready : files.opens = true ∧ blocksCnt.toNat ≠ 0 ∧
              files.allocates = true ∧ files.opensOutput = true
          · obtain ⟨hopens, hblocks, hallocates, hout⟩ := hready
            have hunfold : doRpmbReadBlockIo hmac (some addr) (some blocksCnt) files calls =
                (files.readKey calls).bind fun r =>
                  if r.1 = .unreadable then some (refused [])
                  else finishIo hmac (files.withKey r.1) blocksCnt.toNat
                    (doRpmbOp files.answer (readBlockFrame addr) blocksCnt.toNat) r.2 := by
              simp only [doRpmbReadBlockIo, hopens, hblocks, hallocates, hout, Bool.not_true,
                Bool.false_eq_true, if_false, Bool.or_self]
              rfl
            obtain ⟨key, rest, hread, hsub, hcase⟩ := files.readKey_eq
              (show 32 ≤ calls.countP IoCall.isMoves by omega)
            rw [hunfold, hread, Option.bind_some]
            by_cases hkey : key = .unreadable
            · refine ⟨refused [], by rw [if_pos hkey], ?_⟩
              rcases hcase with ⟨rfl, -⟩ | ⟨hfail, -⟩
              · left
                rw [doRpmbReadBlock_unready hmac addr (fun h => h.key hkey)]
              · exact Or.inr ⟨hfail, rfl, List.nil_prefix⟩
            · rcases hcase with ⟨rfl, hleft⟩ | ⟨-, hunreadable⟩
              · have hr : (files.withKey files.keyOf).Ready blocksCnt.toNat :=
                  ⟨hopens, hblocks, hallocates, hout, hkey⟩
                rw [if_neg hkey, doRpmbReadBlock_ready hmac addr hr]
                obtain ⟨outcome, hrun, hcase⟩ := finishIo_eq hmac (files.withKey files.keyOf)
                  blocksCnt.toNat (doRpmbOp files.answer (readBlockFrame addr) blocksCnt.toNat)
                  (show 256 * blocksCnt.toNat ≤ rest.countP IoCall.isMoves by omega)
                refine ⟨outcome, hrun, ?_⟩
                rcases hcase with hsame | ⟨hfail, hgave⟩
                · exact Or.inl hsame
                · exact Or.inr ⟨hsub hfail, hgave⟩
              · exact absurd hunreadable hkey
          · refine ⟨refused [], ?_, Or.inl ?_⟩
            · unfold doRpmbReadBlockIo
              split
              · rfl
              · rename_i hopens
                dsimp only
                split
                · rfl
                · rename_i hblocks
                  rw [if_pos]
                  simp only [Bool.not_eq_eq_eq_not, Bool.not_true, Bool.not_eq_false] at hopens
                  by_contra hboth
                  simp only [Bool.or_eq_true, Bool.not_eq_eq_eq_not, Bool.not_true, not_or,
                    Bool.not_eq_false] at hboth
                  exact hready ⟨hopens, hblocks, hboth.1, hboth.2⟩
            · exact (doRpmbReadBlock_unready hmac addr fun h =>
                hready ⟨h.opens, h.blocks, h.allocates, h.opensOutput⟩).symm

/-- One block, with the key in a file that ends behind it. -/
def keptKey : ReadBlockFiles where
  opens := true
  allocates := true
  opensOutput := true
  stdin := []
  key := some (.file (some (List.replicate 32 1)))
  answer := ⟨fun _ => 0, fun _ => .request mmcRpmbRead⟩
  room := 1000

theorem readBlockIo_keptKey :
    ∃ outcome, doRpmbReadBlockIo frameMac (some 5) (some 1) keptKey (byteByByte 288) =
        some outcome ∧
      (outcome = doRpmbReadBlock frameMac (some 5) (some 1) (keptKey.withKey keptKey.keyOf) ∨
        (.failed ∈ byteByByte 288 ∧ GaveUp outcome
          (doRpmbReadBlock frameMac (some 5) (some 1) (keptKey.withKey keptKey.keyOf)))) :=
  readBlockIo_eq frameMac (some 5) (some 1) keptKey (byteByByte 288) (by decide +kernel)

end Commands

end MmcUtils
