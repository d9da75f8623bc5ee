import JsrD10f.ParcelCursor
import JsrD10f.MmcNumbers

/-!
# The debug socket

`debugCallback` accepts a connection, receives a count and that many arguments, each
with its length before it, and runs the command that the first argument names.
It gives up at the first `recv` that does not deliver all it was asked for.

What the client sends and what each `recv` makes of it is a `Peer`, and which
allocations succeed is a parameter.  The model keeps a log of the allocations, of the
reads of `args`, of the requests and of the closed descriptors.  A step without a
defined result (a store outside of a buffer, a pointer that was never stored) ends
the log, and the callback does not return.

The three early returns leave the descriptor open, and the last of them the buffer of
the argument it has failed on.  So `debug_safe_iff` comes down to messages that
arrive whole and have the arguments which their command reads.
-/

namespace Libril.DebugSocket

open Parcel

/-! ## Receiving -/

/-- The client's end of the connection: the bytes that are still to come, and what
each `recv` does, which fails or delivers at most some number of bytes. -/
structure Peer where
  stream : List UInt8
  schedule : Nat → Option Nat
  calls : Nat

def recv (p : Peer) (len : Nat) : Option (List UInt8) × Peer :=
  match p.schedule p.calls with
  | none => (none, { p with calls := p.calls + 1 })
  | some limit =>
      (some (p.stream.take (min len limit)),
        { p with stream := p.stream.drop (min len limit), calls := p.calls + 1 })

/-- `recv(fd, &v, sizeof(int), 0) != sizeof(int)` gives up. -/
def recvInt (p : Peer) : Option Int × Peer :=
  match recv p 4 with
  | (some [b₀, b₁, b₂, b₃], p') => (some (decodeInt32 b₀ b₁ b₂ b₃), p')
  | (_, p') => (none, p')

/-- What `recv` returns. -/
def recvResult : Option (List UInt8) → Int
  | none => -1
  | some data => data.length

/-! ## The log -/

/-- What is allocated: `args` and the buffers of the arguments. -/
inductive Block where
  | array
  | arg (i : Nat)
deriving DecidableEq, Repr

/-- The local requests, with their data. -/
inductive Request where
  | resetRadio
  | radioPower (data : Int)
  | oemHookRaw (data : List Int)
  | setNetworkSelectionAutomatic
  | setupDataCall (apn : List UInt8)
  | deactivateDataCall (cid : List UInt8)
  | dial (address : List UInt8) (clir : Int)
  | answer
  | hangup (line : Int)
deriving DecidableEq, Repr

inductive Event where
  | alloc (b : Block)
  | free (b : Block)
  | readArg (j : Nat)
  | issueLocalRequest (r : Request)
  | voiceNetworkStateChanged
  | close (fd : Int)
deriving DecidableEq, Repr

/-- `freeDebugCallbackArgs`. -/
def freeDebugCallbackArgs (number : Nat) : List Event :=
  (List.range number).flatMap (fun i => [.readArg i, .free (.arg i)]) ++ [.free .array]

/-- How the loop over the arguments is left. -/
inductive Exit where
  | complete
  | returned
  | undefined
deriving DecidableEq, Repr

/-! ## The loop -/

/-- One argument: received and terminated, given up, or stored where nothing may be
stored. -/
inductive ArgResult where
  | received (data : List UInt8) (p : Peer)
  | failed
  | undefined

/-- The buffer is allocated with one byte more than the client's length, which may
wrap, and filled.  Without a buffer `recv` can deliver nothing. -/
def recvArg (allocated : Bool) (len : Int) (p : Peer) : ArgResult :=
  let got := recv p (len % 4294967296).toNat
  if allocated then
    -- more bytes than the buffer has
    if ((len + 1) % 4294967296).toNat < (got.1.getD []).length then .undefined
    else if recvResult got.1 ≠ len then .failed
    -- `buf[len] = 0`
    else if len < 0 then .undefined
    else .received (got.1.getD []) got.2
  else if (if got.1 = some [] then 0 else -1) ≠ len then .failed
  else .undefined

/-- The arguments that have arrived, the log and the way out of the loop. -/
structure Loop where
  args : List (List UInt8)
  log : List Event
  exit : Exit

/-- Which allocations succeed, by what is allocated and how many bytes. -/
abbrev Malloc := Block → Nat → Bool

def allocLog (malloc : Malloc) (b : Block) (size : Nat) : List Event :=
  if malloc b size then [.alloc b] else []

/-- The loop with `n` turns left, where `args` has room for `capacity` pointers. -/
def recvArgs (malloc : Malloc) (capacity : Nat) :
    Nat → Peer → List (List UInt8) → List Event → Loop
  | 0, _, args, log => ⟨args, log, .complete⟩
  | n + 1, p, args, log =>
      match recvInt p with
      | (none, _) => ⟨args, log ++ freeDebugCallbackArgs args.length, .returned⟩
      | (some len, p₁) =>
          let i := args.length
          let size := ((len + 1) % 4294967296).toNat
          let log₁ := log ++ allocLog malloc (.arg i) size
          if capacity ≤ i then ⟨args, log₁, .undefined⟩
          else
            match recvArg (malloc (.arg i) size) len p₁ with
            | .undefined => ⟨args, log₁, .undefined⟩
            | .failed => ⟨args, log₁ ++ freeDebugCallbackArgs i, .returned⟩
            | .received data p₂ => recvArgs malloc capacity n p₂ (args ++ [data]) log₁

/-! ## The command -/

/-- `atoi` of a buffer that ends with a zero. -/
def atoi (buf : List UInt8) : Int :=
  MmcUtils.strtol 10 ((buf.takeWhile (· ≠ 0)).map fun b => Char.ofNat b.toNat)

/-- A request with the second argument, which is read as often as the source does.
Without it there is no text to go on with. -/
def withSecondArg (args : List (List UInt8)) (reads : List Event)
    (request : List UInt8 → Request) : List Event × Bool :=
  match args[1]? with
  | none => (reads, false)
  | some arg => (reads ++ [.issueLocalRequest (request arg)], true)

/-- The numbers for the logging tool; the third is the mode. -/
def qxdmData (mode : Int) : List Int :=
  [65536, 16, mode, 32, 0, 8]

/-- The `switch`, and whether its end is reached. -/
def debugCommand (sFdCommand : Int) (args : List (List UInt8)) (command : Int) :
    List Event × Bool :=
  match command with
  | 0 => ([.issueLocalRequest .resetRadio], true)
  | 1 => ([.issueLocalRequest (.radioPower 0), .close sFdCommand], true)
  | 2 => ([.voiceNetworkStateChanged], true)
  | 3 => ([.issueLocalRequest (.oemHookRaw (qxdmData 1))], true)
  | 4 => ([.issueLocalRequest (.oemHookRaw (qxdmData 0))], true)
  | 5 => ([.issueLocalRequest (.radioPower 1),
      .issueLocalRequest .setNetworkSelectionAutomatic], true)
  | 6 => withSecondArg args [.readArg 1, .readArg 1] .setupDataCall
  | 7 => ([.issueLocalRequest (.deactivateDataCall [49])], true)
  | 8 => withSecondArg args [.readArg 1] fun arg => .dial arg 0
  | 9 => ([.issueLocalRequest .answer], true)
  | 10 => ([.issueLocalRequest (.hangup 1)], true)
  | _ => ([], true)

/-- `switch (atoi(args[0]))`. -/
def debugSwitch (sFdCommand : Int) (args : List (List UInt8)) : List Event × Bool :=
  match args[0]? with
  | none => ([.readArg 0], false)
  | some text =>
      let r := debugCommand sFdCommand args (atoi text)
      (.readArg 0 :: r.1, r.2)

/-! ## The callback -/

/-- The count that the client has declared, the number of arguments that arrived, the
log, and whether the callback returns. -/
structure Outcome where
  declared : Option Int
  received : Nat
  log : List Event
  returns : Bool

/-- `debugCallback` behind `accept`. -/
def debugCallback (malloc : Malloc) (sFdCommand acceptFD : Int) (p : Peer) : Outcome :=
  if acceptFD < 0 then ⟨none, 0, [], true⟩
  else
    match recvInt p with
    | (none, _) => ⟨none, 0, [], true⟩
    | (some number, p₁) =>
        let size := (4 * number % 4294967296).toNat
        let capacity := if malloc .array size then size / 4 else 0
        let loop := recvArgs malloc capacity number.toNat p₁ [] (allocLog malloc .array size)
        match loop.exit with
        | .returned => ⟨some number, loop.args.length, loop.log, true⟩
        | .undefined => ⟨some number, loop.args.length, loop.log, false⟩
        | .complete =>
            let r := debugSwitch sFdCommand loop.args
            if r.2 then
              ⟨some number, loop.args.length,
                loop.log ++ r.1 ++ freeDebugCallbackArgs number.toNat ++ [.close acceptFD], true⟩
            else ⟨some number, loop.args.length, loop.log ++ r.1, false⟩

/-! ## What is safe -/

/-- The callback returns with the accepted descriptor closed exactly once and every
allocated block freed exactly once.  It reads only arguments that have arrived, and
makes a request only if all of the message has. -/
structure Safe (acceptFD : Int) (o : Outcome) : Prop where
  returns : o.returns = true
  closed : 0 ≤ acceptFD → o.log.count (.close acceptFD) = 1
  freed : ∀ b, .alloc b ∈ o.log → o.log.count (.free b) = 1
  reads : ∀ j, .readArg j ∈ o.log → j < o.received
  requests : ∀ r, .issueLocalRequest r ∈ o.log → o.declared = some (o.received : Int)

/-- The arguments arrive whole, each after its length. -/
inductive Arrives : Peer → List (List UInt8) → Prop where
  | nil (p : Peer) : Arrives p []
  | cons {p p₁ p₂ : Peer} {data : List UInt8} {rest : List (List UInt8)}
      (length : recvInt p = (some (data.length : Int), p₁))
      (whole : recv p₁ data.length = (some data, p₂)) (tail : Arrives p₂ rest) :
      Arrives p (data :: rest)

/-- There is memory for the buffers of the arguments from number `i` on. -/
def ArgsAllocated (malloc : Malloc) (i : Nat) (args : List (List UInt8)) : Prop :=
  ∀ k data, args[k]? = some data → malloc (.arg (i + k)) (data.length + 1) = true

/-- The command finds what it reads, and does not close the accepted descriptor for
that of the commands. -/
def CommandFits (sFdCommand acceptFD : Int) (args : List (List UInt8)) : Prop :=
  ∃ text, args[0]? = some text ∧ ((atoi text = 6 ∨ atoi text = 8) → 2 ≤ args.length) ∧
    (atoi text = 1 → sFdCommand ≠ acceptFD)

/-- A message that arrives whole, whose pointers fit into the array (the size of which
is computed in 32 bits), with memory for all of it. -/
def Delivered (malloc : Malloc) (p : Peer) (args : List (List UInt8)) : Prop :=
  ∃ p₁, recvInt p = (some (args.length : Int), p₁) ∧ Arrives p₁ args ∧
    args.length < 1073741824 ∧ malloc .array (4 * args.length) = true ∧
    ArgsAllocated malloc 0 args

/-! ## One argument -/

theorem recvInt_isInt32 {p p' : Peer} {v : Int} (h : recvInt p = (some v, p')) : IsInt32 v := by
  unfold recvInt at h
  split at h
  · simp only [Prod.mk.injEq, Option.some.injEq] at h
    rw [← h.1]
    exact isInt32_decodeInt32 _ _ _ _
  · cases h

theorem recv_stream {p p' : Peer} {len : Nat} {data : List UInt8}
    (h : recv p len = (some data, p')) : p.stream = data ++ p'.stream := by
  unfold recv at h
  split at h
  · cases h
  · cases h
    exact (List.take_append_drop _ _).symm

theorem recvInt_stream {p p' : Peer} {v : Int} (h : recvInt p = (some v, p')) :
    p.stream = encodeInt32 v ++ p'.stream := by
  unfold recvInt at h
  split at h
  · rename_i b₀ b₁ b₂ b₃ q hrecv
    simp only [Prod.mk.injEq, Option.some.injEq] at h
    obtain ⟨rfl, rfl⟩ := h
    rw [encodeInt32_decodeInt32]
    exact recv_stream hrecv
  · cases h

/-- An argument is received exactly if there is a buffer and `recv` delivers the bytes
that the length says. -/
theorem recvArg_received_iff {allocated : Bool} {len : Int} {p p' : Peer} {data : List UInt8}
    (hlen : IsInt32 len) :
    recvArg allocated len p = .received data p' ↔
      allocated = true ∧ len = data.length ∧ recv p data.length = (some data, p') := by
  obtain ⟨hlow, hhigh⟩ := hlen
  constructor
  · intro h
    unfold recvArg at h
    dsimp only at h
    split at h
    · rename_i hallocated
      split at h
      · cases h
      · split at h
        · cases h
        · rename_i hwhole
          split at h
          · cases h
          · rename_i hnonneg
            cases hgot : recv p (len % 4294967296).toNat with
            | mk bytes q =>
                rw [hgot] at h hwhole
                cases bytes with
                | none =>
                    have hminus : (-1 : Int) = len := not_not.mp hwhole
                    omega
                | some bytes =>
                    have hlength : (bytes.length : Int) = len := not_not.mp hwhole
                    cases h
                    refine ⟨hallocated, hlength.symm, ?_⟩
                    have hwanted : (len % 4294967296).toNat = bytes.length := by omega
                    rw [hwanted] at hgot
                    exact hgot
    · generalize (if (recv p (len % 4294967296).toNat).1 = some [] then (0 : Int) else -1) = r at h
      split at h
      · cases h
      · cases h
  · rintro ⟨hallocated, hlength, hgot⟩
    have hwanted : (len % 4294967296).toNat = data.length := by omega
    have hroom : ¬ ((len + 1) % 4294967296).toNat < data.length := by omega
    have hnonneg : ¬ len < 0 := by omega
    simp only [recvArg, hallocated, if_true, hwanted, hgot, Option.getD_some, if_neg hroom,
      recvResult, ← hlength, ne_eq, not_true_eq_false, if_false, if_neg hnonneg]

/-- What a client has to send for some arguments. -/
def message (args : List (List UInt8)) : List UInt8 :=
  encodeInt32 args.length ++ args.flatMap fun arg => encodeInt32 arg.length ++ arg

theorem Arrives.stream {p : Peer} {args : List (List UInt8)} (h : Arrives p args) :
    ∃ rest, p.stream = (args.flatMap fun arg => encodeInt32 arg.length ++ arg) ++ rest := by
  induction h with
  | nil p => exact ⟨p.stream, rfl⟩
  | cons length whole tail ih =>
      obtain ⟨rest, hrest⟩ := ih
      refine ⟨rest, ?_⟩
      rw [recvInt_stream length, recv_stream whole, hrest]
      simp only [List.flatMap_cons, List.append_assoc]

/-- A message that is accepted is well formed. -/
theorem Delivered.stream {malloc : Malloc} {p : Peer} {args : List (List UInt8)}
    (h : Delivered malloc p args) : ∃ rest, p.stream = message args ++ rest := by
  obtain ⟨p₁, hcount, harrives, -⟩ := h
  obtain ⟨rest, hrest⟩ := harrives.stream
  refine ⟨rest, ?_⟩
  rw [recvInt_stream hcount, hrest, message, List.append_assoc]

/-! ## The loop -/

/-- The log of the buffers for `n` arguments from number `i` on. -/
def allocs (i n : Nat) : List Event :=
  (List.range n).map fun k => .alloc (.arg (i + k))

theorem allocs_succ (i n : Nat) : allocs i (n + 1) = .alloc (.arg i) :: allocs (i + 1) n := by
  simp only [allocs, List.range_succ_eq_map, List.map_cons, List.map_map, Nat.add_zero,
    List.cons.injEq, true_and]
  apply List.map_congr_left
  intro k _
  simp only [Function.comp_apply]
  rw [Nat.add_right_comm, Nat.add_assoc]

theorem argsAllocated_cons (malloc : Malloc) (i : Nat) (data : List UInt8)
    (rest : List (List UInt8)) : ArgsAllocated malloc i (data :: rest) ↔
      malloc (.arg i) (data.length + 1) = true ∧ ArgsAllocated malloc (i + 1) rest := by
  constructor
  · intro h
    refine ⟨h 0 data rfl, fun k d hk => ?_⟩
    rw [Nat.add_right_comm, Nat.add_assoc]
    exact h (k + 1) d hk
  · rintro ⟨hfirst, hrest⟩ k d hk
    cases k with
    | zero =>
        cases hk
        exact hfirst
    | succ k =>
        rw [← Nat.add_assoc, Nat.add_right_comm]
        exact hrest k d hk

/-- What a loop that ran to its end has received. -/
structure Complete (malloc : Malloc) (capacity n : Nat) (p : Peer) (args new : List (List UInt8))
    : Prop where
  length : new.length = n
  arrives : Arrives p new
  allocated : ArgsAllocated malloc args.length new
  room : n = 0 ∨ args.length + n ≤ capacity

/-- The length that the client sends is that of the buffer without its last byte. -/
theorem bufferSize {data : List UInt8} (h : IsInt32 (data.length : Int)) :
    (((data.length : Int) + 1) % 4294967296).toNat = data.length + 1 := by
  obtain ⟨-, hhigh⟩ := h
  omega

theorem recvArgs_of_arrives {malloc : Malloc} {capacity n : Nat} {p : Peer}
    {args new : List (List UInt8)} (log : List Event)
    (h : Complete malloc capacity n p args new) :
    recvArgs malloc capacity n p args log =
      ⟨args ++ new, log ++ allocs args.length n, .complete⟩ := by
  obtain ⟨rfl, harrives, hallocated, hroom⟩ := h
  induction harrives generalizing args log with
  | nil p => simp [recvArgs, allocs]
  | @cons p p₁ p₂ data rest length whole tail ih =>
      obtain ⟨hfirst, hrest⟩ := (argsAllocated_cons malloc _ data rest).mp hallocated
      have hint := recvInt_isInt32 length
      have hreceived := (recvArg_received_iff hint).mpr ⟨rfl, rfl, whole⟩
      simp only [List.length_cons] at hroom
      have hindex : ¬ capacity ≤ args.length := by omega
      simp only [List.length_cons, recvArgs, length, if_neg hindex, bufferSize hint, hfirst,
        hreceived]
      have hlength : (args ++ [data]).length = args.length + 1 := List.length_append
      rw [ih _ (by rwa [hlength]) (by omega)]
      simp only [allocLog, hfirst, if_true, allocs_succ, List.length_append, List.length_singleton,
        List.append_assoc, List.singleton_append]

theorem complete_of_recvArgs {malloc : Malloc} {capacity n : Nat} {p : Peer}
    {args : List (List UInt8)} {log : List Event}
    (h : (recvArgs malloc capacity n p args log).exit = .complete) :
    ∃ new, Complete malloc capacity n p args new := by
  induction n generalizing p args log with
  | zero =>
      refine ⟨[], rfl, .nil p, ?_, .inl rfl⟩
      intro k data hk
      cases hk
  | succ n ih =>
      simp only [recvArgs] at h
      split at h
      · cases h
      · rename_i len p₁ hlength
        split at h
        · cases h
        · rename_i hindex
          split at h
          · cases h
          · cases h
          · rename_i data p₂ hreceived
            obtain ⟨hallocated, rfl, hwhole⟩ :=
              (recvArg_received_iff (recvInt_isInt32 hlength)).mp hreceived
            rw [bufferSize (recvInt_isInt32 hlength)] at hallocated
            obtain ⟨new, hnew⟩ := ih h
            have hrest := hnew.allocated
            have hroom := hnew.room
            simp only [List.length_append, List.length_singleton] at hrest hroom
            refine ⟨data :: new, ?_, .cons hlength hwhole hnew.arrives,
              (argsAllocated_cons malloc _ data new).mpr ⟨hallocated, hrest⟩, .inr ?_⟩
            · rw [List.length_cons, hnew.length]
            · omega

theorem close_notMem_freeDebugCallbackArgs (fd : Int) (number : Nat) :
    .close fd ∉ freeDebugCallbackArgs number := by
  simp [freeDebugCallbackArgs]

theorem close_notMem_allocLog (fd : Int) (malloc : Malloc) (b : Block) (size : Nat) :
    .close fd ∉ allocLog malloc b size := by
  unfold allocLog
  split
  · simp
  · exact List.not_mem_nil

/-- No way out of the loop closes a descriptor. -/
theorem close_notMem_recvArgs {fd : Int} {malloc : Malloc} {capacity n : Nat} {p : Peer}
    {args : List (List UInt8)} {log : List Event} (h : .close fd ∉ log) :
    .close fd ∉ (recvArgs malloc capacity n p args log).log := by
  have happend {l₁ l₂ : List Event} (h₁ : .close fd ∉ l₁) (h₂ : .close fd ∉ l₂) :
      .close fd ∉ l₁ ++ l₂ := fun hmem => (List.mem_append.mp hmem).elim h₁ h₂
  induction n generalizing p args log with
  | zero => exact h
  | succ n ih =>
      simp only [recvArgs]
      split
      · exact happend h (close_notMem_freeDebugCallbackArgs fd _)
      · rename_i len p₁ _
        have hlog := happend h (close_notMem_allocLog fd malloc (.arg args.length)
          ((len + 1) % 4294967296).toNat)
        split
        · exact hlog
        · split
          · exact hlog
          · exact happend hlog (close_notMem_freeDebugCallbackArgs fd _)
          · exact ih hlog

/-! ## The command -/

theorem withSecondArg_returns_iff (args : List (List UInt8)) (reads : List Event)
    (request : List UInt8 → Request) :
    (withSecondArg args reads request).2 = true ↔ 2 ≤ args.length := by
  unfold withSecondArg
  split
  · rename_i hnone
    have hlength := List.getElem?_eq_none_iff.mp hnone
    simp only [Bool.false_eq_true, false_iff]
    omega
  · rename_i arg hsome
    obtain ⟨hlength, -⟩ := List.getElem?_eq_some_iff.mp hsome
    simp only [true_iff]
    omega

theorem mem_withSecondArg {args : List (List UInt8)} {reads : List Event}
    {request : List UInt8 → Request} {e : Event}
    (he : e ∈ (withSecondArg args reads request).1) :
    e ∈ reads ∨ ∃ r, e = .issueLocalRequest r := by
  unfold withSecondArg at he
  split at he
  · exact .inl he
  · rcases List.mem_append.mp he with hread | hrequest
    · exact .inl hread
    · exact .inr ⟨_, List.mem_singleton.mp hrequest⟩

/-- The end of the switch is reached unless a command misses its argument. -/
theorem debugCommand_returns_iff (sFdCommand : Int) (args : List (List UInt8)) (command : Int) :
    (debugCommand sFdCommand args command).2 = true ↔
      ((command = 6 ∨ command = 8) → 2 ≤ args.length) := by
  unfold debugCommand
  split
  all_goals simp_all [withSecondArg_returns_iff]

/-- What the switch can log. -/
theorem mem_debugCommand {sFdCommand : Int} {args : List (List UInt8)} {command : Int} {e : Event}
    (he : e ∈ (debugCommand sFdCommand args command).1) :
    (e = .readArg 1 ∧ (command = 6 ∨ command = 8)) ∨ (∃ r, e = .issueLocalRequest r) ∨
      e = .voiceNetworkStateChanged ∨ (e = .close sFdCommand ∧ command = 1) := by
  unfold debugCommand at he
  split at he
  case h_2 =>
      rcases List.mem_pair.mp he with hrequest | hclose
      · exact .inr (.inl ⟨_, hrequest⟩)
      · exact .inr (.inr (.inr ⟨hclose, rfl⟩))
  case h_6 =>
      rcases List.mem_pair.mp he with hpower | hselection
      · exact .inr (.inl ⟨_, hpower⟩)
      · exact .inr (.inl ⟨_, hselection⟩)
  case h_7 =>
      rcases mem_withSecondArg he with hread | hrequest
      · simp only [List.mem_cons, List.not_mem_nil, or_false, or_self] at hread
        exact .inl ⟨hread, .inl rfl⟩
      · exact .inr (.inl hrequest)
  case h_9 =>
      rcases mem_withSecondArg he with hread | hrequest
      · exact .inl ⟨List.mem_singleton.mp hread, .inr rfl⟩
      · exact .inr (.inl hrequest)
  all_goals simp_all

/-- One command closes a descriptor. -/
theorem close_mem_debugCommand_iff (fd sFdCommand : Int) (args : List (List UInt8))
    (command : Int) :
    .close fd ∈ (debugCommand sFdCommand args command).1 ↔ command = 1 ∧ sFdCommand = fd := by
  constructor
  · intro he
    rcases mem_debugCommand he with ⟨hread, -⟩ | ⟨r, hrequest⟩ | hvoice | ⟨hclose, hcommand⟩
    · cases hread
    · cases hrequest
    · cases hvoice
    · cases hclose
      exact ⟨hcommand, rfl⟩
  · rintro ⟨rfl, rfl⟩
    exact List.mem_cons_of_mem _ List.mem_cons_self

/-- The switch is left, and the accepted descriptor is still open, exactly for a
command that fits. -/
theorem debugSwitch_iff (sFdCommand acceptFD : Int) (args : List (List UInt8)) :
    ((debugSwitch sFdCommand args).2 = true ∧
      .close acceptFD ∉ (debugSwitch sFdCommand args).1) ↔
      CommandFits sFdCommand acceptFD args := by
  unfold debugSwitch CommandFits
  cases htext : args[0]? with
  | none => simp
  | some text =>
      simp only [debugCommand_returns_iff, List.mem_cons, reduceCtorEq, false_or,
        close_mem_debugCommand_iff, Option.some.injEq, exists_eq_left', not_and, ne_eq]

/-- Every argument that the switch reads has arrived. -/
theorem readArg_mem_debugSwitch {sFdCommand : Int} {args : List (List UInt8)} {j : Nat}
    (h : (debugSwitch sFdCommand args).2 = true)
    (hj : .readArg j ∈ (debugSwitch sFdCommand args).1) : j < args.length := by
  unfold debugSwitch at h hj
  split at h
  · cases h
  · rename_i text htext
    obtain ⟨hlength, -⟩ := List.getElem?_eq_some_iff.mp htext
    rw [htext] at hj
    rcases List.mem_cons.mp hj with hfirst | hcommand
    · cases hfirst
      exact hlength
    · rcases mem_debugCommand hcommand with ⟨hread, hnumber⟩ | ⟨r, hrequest⟩ | hvoice | ⟨hclose, -⟩
      · cases hread
        exact (debugCommand_returns_iff _ _ _).mp h hnumber
      · cases hrequest
      · cases hvoice
      · cases hclose

/-- The switch neither allocates nor frees. -/
theorem block_notMem_debugSwitch (sFdCommand : Int) (args : List (List UInt8)) (b : Block) :
    .alloc b ∉ (debugSwitch sFdCommand args).1 ∧ .free b ∉ (debugSwitch sFdCommand args).1 := by
  have hcommand {e : Event} {command : Int}
      (he : e ∈ .readArg 0 :: (debugCommand sFdCommand args command).1) :
      e ≠ .alloc b ∧ e ≠ .free b := by
    rcases List.mem_cons.mp he with rfl | he
    · simp
    · rcases mem_debugCommand he with ⟨rfl, -⟩ | ⟨r, rfl⟩ | rfl | ⟨rfl, -⟩
      all_goals simp
  unfold debugSwitch
  split
  · simp
  · exact ⟨fun he => (hcommand he).1 rfl, fun he => (hcommand he).2 rfl⟩

/-! ## The callback -/

theorem count_free_args (n i : Nat) :
    ((List.range n).flatMap fun k => [Event.readArg k, .free (.arg k)]).count (.free (.arg i)) =
      if i < n then 1 else 0 := by
  induction n with
  | zero => rfl
  | succ n ih =>
      rw [List.range_succ, List.flatMap_append, List.count_append, ih]
      rcases Nat.lt_trichotomy i n with hlt | rfl | hgt
      · have hne : n ≠ i := Nat.ne_of_gt hlt
        simp [hlt, Nat.lt_succ_of_lt hlt, hne]
      · simp
      · have hle : ¬ i < n := Nat.not_lt.mpr (Nat.le_of_lt hgt)
        have hsucc : ¬ i < n + 1 := by omega
        have hne : n ≠ i := Nat.ne_of_lt hgt
        simp [hle, hsucc, hne]

/-- Each block of a message with `number` arguments is freed once. -/
theorem count_free_freeDebugCallbackArgs {number : Nat} {b : Block}
    (h : ∀ i, b = .arg i → i < number) :
    (freeDebugCallbackArgs number).count (.free b) = 1 := by
  unfold freeDebugCallbackArgs
  rw [List.count_append]
  cases b with
  | array =>
      rw [List.count_eq_zero_of_not_mem (by simp)]
      rfl
  | arg i =>
      rw [count_free_args, if_pos (h i rfl)]
      rfl

/-- The log of a message that was received and run. -/
def fullLog (sFdCommand acceptFD : Int) (args : List (List UInt8)) : List Event :=
  [.alloc .array] ++ allocs 0 args.length ++ (debugSwitch sFdCommand args).1 ++
    freeDebugCallbackArgs args.length ++ [.close acceptFD]

theorem count_close_fullLog (sFdCommand acceptFD : Int) (args : List (List UInt8)) :
    (fullLog sFdCommand acceptFD args).count (.close acceptFD) =
      (debugSwitch sFdCommand args).1.count (.close acceptFD) + 1 := by
  have halloc : (allocs 0 args.length).count (.close acceptFD) = 0 := by
    apply List.count_eq_zero_of_not_mem
    simp [allocs]
  have hfree := List.count_eq_zero_of_not_mem
    (close_notMem_freeDebugCallbackArgs acceptFD args.length)
  simp [fullLog, List.count_append, halloc, hfree]

theorem alloc_mem_fullLog {sFdCommand acceptFD : Int} {args : List (List UInt8)} {b : Block}
    (h : .alloc b ∈ fullLog sFdCommand acceptFD args) : ∀ i, b = .arg i → i < args.length := by
  have hswitch := (block_notMem_debugSwitch sFdCommand args b).1
  simp only [fullLog, allocs, freeDebugCallbackArgs, List.mem_append, List.mem_cons, List.mem_map,
    List.mem_range, List.mem_flatMap, List.not_mem_nil, or_false, Event.alloc.injEq, reduceCtorEq,
    and_false, exists_false, or_self, hswitch, Nat.zero_add] at h
  rintro i rfl
  rcases h with h | ⟨k, hk, hb⟩
  · cases h
  · cases hb
    exact hk

theorem count_free_fullLog {sFdCommand acceptFD : Int} {args : List (List UInt8)} {b : Block}
    (h : ∀ i, b = .arg i → i < args.length) :
    (fullLog sFdCommand acceptFD args).count (.free b) = 1 := by
  have hswitch := List.count_eq_zero_of_not_mem (block_notMem_debugSwitch sFdCommand args b).2
  have halloc : (allocs 0 args.length).count (.free b) = 0 := by
    apply List.count_eq_zero_of_not_mem
    simp [allocs]
  simp [fullLog, List.count_append, halloc, hswitch, count_free_freeDebugCallbackArgs h]

theorem readArg_mem_fullLog {sFdCommand acceptFD : Int} {args : List (List UInt8)} {j : Nat}
    (hreturns : (debugSwitch sFdCommand args).2 = true)
    (h : .readArg j ∈ fullLog sFdCommand acceptFD args) : j < args.length := by
  simp only [fullLog, allocs, freeDebugCallbackArgs, List.mem_append, List.mem_cons, List.mem_map,
    List.mem_range, List.mem_flatMap, List.not_mem_nil, or_false, Event.readArg.injEq,
    reduceCtorEq, and_false, exists_false, false_or] at h
  rcases h with h | ⟨i, hi, rfl⟩
  · exact readArg_mem_debugSwitch hreturns h
  · exact hi

/-- The room that a count of pointers finds, computed in 32 bits. -/
theorem capacity_iff {number : Nat} (hnumber : number < 2147483648) (hpos : 0 < number)
    (allocated : Bool) :
    number ≤ (if allocated then (4 * (number : Int) % 4294967296).toNat / 4 else 0) ↔
      allocated = true ∧ number < 1073741824 := by
  cases allocated with
  | false =>
      simp
      omega
  | true =>
      simp
      omega

theorem debugCallback_of_delivered {malloc : Malloc} {sFdCommand acceptFD : Int} {p : Peer}
    {args : List (List UInt8)} (hfd : 0 ≤ acceptFD) (h : Delivered malloc p args)
    (hreturns : (debugSwitch sFdCommand args).2 = true) :
    debugCallback malloc sFdCommand acceptFD p =
      ⟨some args.length, args.length, fullLog sFdCommand acceptFD args, true⟩ := by
  obtain ⟨p₁, hcount, harrives, hfew, harray, hallocated⟩ := h
  have hsize : (4 * (args.length : Int) % 4294967296).toNat = 4 * args.length := by omega
  have hroom : args.length = 0 ∨ 0 + args.length ≤ 4 * args.length / 4 := by omega
  have hloop := recvArgs_of_arrives (allocLog malloc .array (4 * args.length))
    (show Complete malloc (4 * args.length / 4) args.length p₁ [] args from
      ⟨rfl, harrives, hallocated, hroom⟩)
  simp only [debugCallback, if_neg (Int.not_lt.mpr hfd), hcount, hsize, Int.toNat_natCast, harray,
    if_true, hloop, List.nil_append, hreturns, List.length_nil]
  simp only [allocLog, harray, if_true, fullLog]

theorem safe_of_delivered {malloc : Malloc} {sFdCommand acceptFD : Int} {p : Peer}
    {args : List (List UInt8)} (hfd : 0 ≤ acceptFD) (h : Delivered malloc p args)
    (hcommand : CommandFits sFdCommand acceptFD args) :
    Safe acceptFD (debugCallback malloc sFdCommand acceptFD p) := by
  obtain ⟨hreturns, hopen⟩ := (debugSwitch_iff sFdCommand acceptFD args).mpr hcommand
  rw [debugCallback_of_delivered hfd h hreturns]
  constructor
  · rfl
  · intro _
    rw [count_close_fullLog, List.count_eq_zero_of_not_mem hopen]
  · intro b hb
    exact count_free_fullLog (alloc_mem_fullLog hb)
  · intro j hj
    exact readArg_mem_fullLog hreturns hj
  · intro r _
    rfl

/-- The descriptor is open when the loop is left early. -/
theorem not_safe_of_close_notMem {acceptFD : Int} {o : Outcome} (hfd : 0 ≤ acceptFD)
    (h : .close acceptFD ∉ o.log) : ¬ Safe acceptFD o := by
  intro hsafe
  have hcount := hsafe.closed hfd
  rw [List.count_eq_zero_of_not_mem h] at hcount
  cases hcount

/-- A loop over no turn, or with room for its pointers, has the count that was sent. -/
theorem delivered_of_complete {malloc : Malloc} {number : Int} {p p₁ : Peer}
    {args : List (List UInt8)} (hcount : recvInt p = (some number, p₁)) (hpos : 0 < args.length)
    (h : Complete malloc (if malloc .array (4 * number % 4294967296).toNat then
      (4 * number % 4294967296).toNat / 4 else 0) number.toNat p₁ [] args) :
    number = args.length ∧ Delivered malloc p args := by
  have hnumber : number = args.length := by
    have hlength := h.length
    omega
  subst hnumber
  have hint := recvInt_isInt32 hcount
  have hroom : args.length ≤ (if malloc .array (4 * (args.length : Int) % 4294967296).toNat then
      (4 * (args.length : Int) % 4294967296).toNat / 4 else 0) := by
    rcases h.room with hzero | hle
    · omega
    · simpa using hle
  obtain ⟨harray, hfew⟩ := (capacity_iff (Int.ofNat_lt.mp hint.2) hpos _).mp hroom
  have hsize : (4 * (args.length : Int) % 4294967296).toNat = 4 * args.length := by omega
  rw [hsize] at harray
  exact ⟨rfl, p₁, hcount, h.arrives, hfew, harray, h.allocated⟩

theorem delivered_of_safe {malloc : Malloc} {sFdCommand acceptFD : Int} {p : Peer}
    (hfd : 0 ≤ acceptFD) (h : Safe acceptFD (debugCallback malloc sFdCommand acceptFD p)) :
    ∃ args, Delivered malloc p args ∧ CommandFits sFdCommand acceptFD args := by
  have hcallback := h
  unfold debugCallback at h
  rw [if_neg (Int.not_lt.mpr hfd)] at h
  split at h
  · exact absurd h (not_safe_of_close_notMem hfd List.not_mem_nil)
  · rename_i number p₁ hcount
    dsimp only at h
    split at h
    · exact absurd h (not_safe_of_close_notMem hfd (close_notMem_recvArgs
        (close_notMem_allocLog acceptFD malloc .array _)))
    · exact absurd h.returns Bool.false_ne_true
    · rename_i hcomplete
      obtain ⟨args, hargs⟩ := complete_of_recvArgs hcomplete
      rw [recvArgs_of_arrives _ hargs] at h
      dsimp only at h
      split at h
      · rename_i hreturns
        rw [List.nil_append] at hreturns
        have hlength : 0 < args.length := by
          cases args with
          | nil => cases hreturns
          | cons text rest => exact Nat.succ_pos rest.length
        obtain ⟨-, hdelivered⟩ := delivered_of_complete hcount hlength hargs
        refine ⟨args, hdelivered, (debugSwitch_iff sFdCommand acceptFD args).mp ⟨hreturns, ?_⟩⟩
        -- the last event closes the descriptor, so the switch may not
        rw [debugCallback_of_delivered hfd hdelivered hreturns] at hcallback
        have hclosed := hcallback.closed hfd
        rw [count_close_fullLog] at hclosed
        exact List.count_eq_zero.mp (Nat.succ.inj hclosed)
      · exact absurd h.returns Bool.false_ne_true

/-- **The debug socket.**  The callback closes the descriptor, frees the buffers, reads
only arguments that have arrived and makes requests only for whole messages exactly
if there was no connection, or if the message arrives whole, with an argument at
least and a second one for the commands 6 and 8, and with memory for all of it. -/
theorem debug_safe_iff (malloc : Malloc) (sFdCommand acceptFD : Int) (p : Peer) :
    Safe acceptFD (debugCallback malloc sFdCommand acceptFD p) ↔
      acceptFD < 0 ∨
        ∃ args, Delivered malloc p args ∧ CommandFits sFdCommand acceptFD args := by
  by_cases hfd : acceptFD < 0
  · have hnone : debugCallback malloc sFdCommand acceptFD p = ⟨none, 0, [], true⟩ := by
      rw [debugCallback, if_pos hfd]
    rw [hnone]
    refine iff_of_true ?_ (.inl hfd)
    exact ⟨rfl, fun hge => absurd hfd (Int.not_lt.mpr hge), fun b hb => absurd hb List.not_mem_nil,
      fun j hj => absurd hj List.not_mem_nil, fun r hr => absurd hr List.not_mem_nil⟩
  · have hge := Int.not_lt.mp hfd
    rw [or_iff_right hfd]
    constructor
    · exact delivered_of_safe hge
    · rintro ⟨args, hdelivered, hcommand⟩
      exact safe_of_delivered hge hdelivered hcommand

/-- A client that sends some bytes, all of which can be had at once. -/
def client (stream : List UInt8) : Peer :=
  ⟨stream, fun _ => some 4096, 0⟩

/-- A client that closes at once leaves the descriptor open.  One that closes in the
middle of its argument leaves the buffer allocated too.  A count of zero and a number
to dial that is missing are not noticed. -/
theorem debug_unsafe :
    ¬ Safe 9 (debugCallback (fun _ _ => true) 5 9 (client [])) ∧
    ¬ Safe 9 (debugCallback (fun _ _ => true) 5 9 (client [1, 0, 0, 0, 3, 0, 0, 0, 48])) ∧
    ¬ Safe 9 (debugCallback (fun _ _ => true) 5 9 (client [0, 0, 0, 0])) ∧
    ¬ Safe 9 (debugCallback (fun _ _ => true) 5 9 (client [1, 0, 0, 0, 1, 0, 0, 0, 56])) := by
  refine ⟨fun h => ?_, fun h => ?_, fun h => ?_, fun h => ?_⟩
  · exact absurd (h.closed (by decide)) (by decide)
  · exact absurd (h.freed (.arg 0) (by decide)) (by decide)
  · exact absurd (h.reads 0 (by decide)) (by decide)
  · exact absurd (h.reads 1 (by decide)) (by decide)

end Libril.DebugSocket
