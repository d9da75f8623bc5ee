import JsrD10f.DispatchAccepts
import JsrD10f.PendingRequests
import JsrD10f.Runs

/-!
# Requests and their answers

`processCommandBuffer` reads the request code and the token of a command, links
a `RequestInfo` into the pending list and calls the dispatch function.  The
vendor RIL answers through `RIL_onRequestComplete`, which takes the request off
the list and sends a frame with its token.  A run is any order of commands and
completions, with the client connected and its socket taking every write; the
vendor completes each of its calls once, with whatever `reply` says for that
command.

`invalidCommandBlock` and the branch for an unknown message format do not answer
the request, and `sendResponseRaw` drops a frame that is too long.  `Answerable`
says which commands escape all three; `commands_answered` says that these and no
others get their one answer.  Commands are numbered in the order of their
arrival; the number is kept in the ghost field of the request and with each
frame written.
-/

namespace Libril

open Parcel Runs LinkChain

/-- The entries 1 to 108 of `s_commands`, ten to a row. -/
def baseCommands : List Dispatch :=
  [.void, .strings, .strings, .strings, .strings, .strings, .strings, .strings, .void, .dial,
    .strings, .ints, .void, .void, .void, .void, .void, .void, .void, .void,
    .void, .void, .ints, .string, .strings, .strings, .dataCall, .simIo false, .string, .void,
    .void, .ints, .callForward, .callForward, .ints, .ints, .ints, .void, .void, .void,
    .strings, .strings, .strings, .strings, .void, .void, .string, .void, .string, .void,
    .void, .ints, .ints, .void, .void, .void, .void, .void, .raw, .strings,
    .ints, .ints, .smsWrite, .ints, .ints, .void, .void, .string, .string, .string,
    .ints, .void, .ints, .void, .void, .ints, .ints, .ints, .void, .ints,
    .void, .ints, .void, .string, .strings, .string, .cdmaSms, .cdmaSmsAck, .void, .gsmBrSmsCnf,
    .ints, .void, .cdmaBrSmsCnf, .ints, .void, .rilCdmaSmsWriteArgs, .ints, .void, .void, .void,
    .string, .ints, .void, .cdmaSubscriptionSource, .string, .strings, .string, .voiceRadioTech]

/-- The entries from `RIL_REQUEST_SET_INITIAL_ATTACH_APN` to
`RIL_REQUEST_SIM_TRANSMIT_CHANNEL`. -/
def laterCommands : List Dispatch :=
  [.setInitialAttachApn, .void, .imsSms, .ints, .uiccSubscripton, .void, .simIo true, .string,
    .ints, .simIo true]

/-- The requests of the cell information list. -/
def cellInfoCommands : List Dispatch :=
  [.void, .ints]

def commandEntries (b : Build) : List Dispatch :=
  baseCommands ++ (if b.noCellInfoList then [] else cellInfoCommands) ++ laterCommands ++
    (if b.variantLegacy then [] else [.ints])

/-- `s_commands`.  Entry 0 has no dispatch function. -/
def sCommands (b : Build) : List (Option Dispatch) :=
  none :: (commandEntries b).map some

def maxCommandBytes : Nat := 8192

/-- A record from the command socket, and the radio state at that time. -/
structure Command where
  buffer : List UInt8
  state : RadioState
deriving DecidableEq, Repr

/-- The data of a solicited response. -/
def solicited (token error : Int) (payload : List UInt8) : List UInt8 :=
  encodeInt32 0 ++ encodeInt32 token ++ encodeInt32 error ++ payload

/-- The parcel that `RIL_onRequestComplete` fills.  After an error of the
response function it goes back and writes over the error code. -/
def replyData (token : Int) (r : Reply) : List UInt8 :=
  match r.response with
  | none => solicited token r.error []
  | some m => solicited token (if m.ret ≠ 0 then m.ret else r.error) m.written

/-- `calls` are the requests that the vendor has still to complete, `commands`
all commands so far and `written` the frames sent, both oldest first. -/
structure Service (α : Type) where
  requests : Requests α Nat
  calls : List α
  radio : RadioVars
  commands : List Command
  written : List (Nat × List UInt8)
  crashed : Bool

variable {α : Type} [DecidableEq α]

def Service.start : Service α :=
  { requests := Requests.empty, calls := [], radio := ⟨none, none, none⟩, commands := []
    written := [], crashed := false }

/-- `sendResponse` on behalf of command `i`. -/
def Service.sendResponse (s : Service α) (i : Nat) (data : List UInt8) : Service α :=
  if maxCommandBytes < data.length then s
  else { s with written := s.written ++ [(i, data)] }

/-- `RIL_onRequestComplete`.  The pending list has at most one entry for each
command. -/
def onRequestComplete (a : α) (r : Reply) (s : Service α) : Option (Service α) := do
  let (found, q) ← checkAndDequeueRequestInfo (s.commands.length + 1) (some a) s.requests
  if !found then some s
  else do
    let v ← q.heap a
    let s := { s with requests := q }
    let s := if v.isLocal || v.cancelled then s else s.sendResponse v.ghost (replyData v.token r)
    some { s with requests := s.requests.free a }

/-- The answers that a dispatch function gives by itself. -/
def completeAll (a : α) : List Reply → Service α → Option (Service α)
  | [], s => some s
  | r :: rs, s => do
      let s ← onRequestComplete a r s
      completeAll a rs s

/-- What follows from the result of a dispatch function. -/
def afterDispatch (a : α) (s : Service α) : CallResult → Option (Service α)
  | .dispatched (.onRequest _) => some { s with calls := a :: s.calls }
  | .dispatched .invalidCommandBlock => some s
  | .dispatched .unknownFormat => some s
  | .dispatched .overrun => some { s with crashed := true }
  | .answered replies => completeAll a replies s

def processCommandBuffer (b : Build) (a : α) (cmd : Command) (s : Service α) :
    Option (Service α) :=
  let i := s.commands.length
  let s := { s with commands := s.commands ++ [cmd] }
  let (request, c) := readInt32 b.junk ⟨cmd.buffer, true⟩
  let (token, c) := readInt32 b.junk c
  if !c.ok then some s
  else if request < 1 ∨ (sCommands b).length ≤ request then
    some (s.sendResponse i (solicited token 2 []))
  else do
    let d ← ((sCommands b)[request.toNat]?).join
    let q := s.requests.alloc a ⟨token, request.toNat, none, false, false, i⟩
    let q ← q.link a
    let (result, radio) := d.call b cmd.state s.radio c
    afterDispatch a { s with requests := q, radio := radio } result

inductive ServiceLabel (α : Type) where
  | command (a : α) (cmd : Command)
  | complete (a : α)

def serviceStep (b : Build) (reply : Nat → Reply) (s : Service α) :
    ServiceLabel α → Option (Service α)
  | .command a cmd => processCommandBuffer b a cmd s
  | .complete a => do
      let v ← s.requests.heap a
      let s ← onRequestComplete a (reply v.ghost) s
      some { s with calls := s.calls.erase a }

/-- The process is alive, `calloc` returns unused memory, and the vendor
completes a call that it has been given. -/
def ServiceLabel.Legal (s : Service α) : ServiceLabel α → Prop
  | .command a _ => s.crashed = false ∧ s.requests.heap a = none
  | .complete a => s.crashed = false ∧ a ∈ s.calls

/-- The frames written for a command. -/
def Service.answers (s : Service α) (i : Nat) : List (List UInt8) :=
  (s.written.filter (fun w => w.1 == i)).map Prod.snd

/-- The request code and the token can be read. -/
def Command.Readable (cmd : Command) : Prop :=
  8 ≤ cmd.buffer.length

def Command.request (cmd : Command) : Int :=
  int32At cmd.buffer

def Command.token (cmd : Command) : Int :=
  int32At (cmd.buffer.drop 4)

def Command.payload (cmd : Command) : List UInt8 :=
  cmd.buffer.drop 8

/-- The size of the data of a response. -/
def Reply.size (r : Reply) : Nat :=
  12 + (r.response.map (·.written.length)).getD 0

/-- The command has an unknown request code, or is answered without the vendor,
or has an accepted payload and a response that fits into a frame. -/
def Answerable (b : Build) (r : Reply) (cmd : Command) : Prop :=
  cmd.request < 1 ∨ (sCommands b).length ≤ cmd.request ∨
    ∃ d, (sCommands b)[cmd.request.toNat]? = some (some d) ∧
      (d.AnswersItself cmd.state ∨
        d.Accepts b cmd.state cmd.payload ∧ r.size ≤ maxCommandBytes)

/-! ## The invariant -/

/-- What a pending request remembers of its command, which has no answer yet. -/
structure Waiting (s : Service α) (v : RequestInfo α Nat) (cmd : Command) : Prop where
  command : s.commands[v.ghost]? = some cmd
  readable : cmd.Readable
  token : v.token = cmd.token
  remote : v.isLocal = false
  active : v.cancelled = false
  unanswered : s.answers v.ghost = []

/-- One answer if the command is answerable, else none. -/
def Settled (b : Build) (r : Reply) (cmd : Command) (frames : List (List UInt8)) : Prop :=
  (Answerable b r cmd ∧ ∃ error payload, frames = [solicited cmd.token error payload]) ∨
    (¬ Answerable b r cmd ∧ frames = [])

/-- The pending list is `l`, and of its members those in `openCalls` will be
completed.  The others stay there for good, and their commands are not
answerable; the commands that are not on the list are settled.  For a call of
the vendor it only matters whether the response fits. -/
structure ServiceCore (b : Build) (reply : Nat → Reply) (s : Service α) (l openCalls : List α) :
    Prop where
  pending : Pending s.requests l
  length_le : l.length ≤ s.commands.length
  open_nodup : openCalls.Nodup
  open_sub : ∀ a ∈ openCalls, a ∈ l
  record : ∀ a ∈ l, ∀ v, s.requests.info a = some v → ∃ cmd, Waiting s v cmd
  leaked : ∀ a ∈ l, a ∉ openCalls → ∀ v, s.requests.info a = some v →
    ∀ cmd, Waiting s v cmd → ¬ Answerable b (reply v.ghost) cmd
  distinct : ∀ a ∈ l, ∀ a' ∈ l, ∀ v v', s.requests.info a = some v →
    s.requests.info a' = some v' → v.ghost = v'.ghost → a = a'
  settled : ∀ i cmd, s.commands[i]? = some cmd → cmd.Readable →
    (∀ a ∈ l, ∀ v, s.requests.info a = some v → v.ghost ≠ i) →
    Settled b (reply i) cmd (s.answers i)
  written : ∀ w ∈ s.written, w.1 < s.commands.length
  forwarded : ∀ a ∈ l, a ∈ s.calls → ∀ v, s.requests.info a = some v →
    ∀ cmd, Waiting s v cmd →
    ((reply v.ghost).size ≤ maxCommandBytes ↔ Answerable b (reply v.ghost) cmd)

section Steps

variable {b : Build} {reply : Nat → Reply} {s : Service α} {l openCalls : List α}

omit [DecidableEq α] in
theorem sendResponse_answers (s : Service α) (i j : Nat) (data : List UInt8) :
    (s.sendResponse i data).answers j =
      if i = j ∧ data.length ≤ maxCommandBytes then s.answers j ++ [data] else s.answers j := by
  unfold Service.sendResponse
  by_cases hlen : maxCommandBytes < data.length
  · have hnot : ¬ (i = j ∧ data.length ≤ maxCommandBytes) := by omega
    rw [if_pos hlen, if_neg hnot]
  · rw [if_neg hlen]
    by_cases hij : i = j
    · rw [if_pos ⟨hij, by omega⟩]
      simp [Service.answers, hij]
    · rw [if_neg (fun h => hij h.1)]
      simp [Service.answers, hij]

omit [DecidableEq α] in
theorem sendResponse_fields (s : Service α) (i : Nat) (data : List UInt8) :
    (s.sendResponse i data).requests = s.requests ∧ (s.sendResponse i data).calls = s.calls ∧
      (s.sendResponse i data).commands = s.commands ∧
      (s.sendResponse i data).crashed = s.crashed ∧
      ∀ w ∈ (s.sendResponse i data).written, w ∈ s.written ∨ w.1 = i := by
  unfold Service.sendResponse
  split
  · exact ⟨rfl, rfl, rfl, rfl, fun w hw => Or.inl hw⟩
  · refine ⟨rfl, rfl, rfl, rfl, fun w hw => ?_⟩
    rcases List.mem_append.mp hw with hw | hw
    · exact Or.inl hw
    · exact Or.inr (by rw [List.mem_singleton.mp hw])

theorem free_info {q : Requests α Nat} {a x : α} (hx : x ≠ a) :
    (q.free a).info x = q.info x := by
  simp [Requests.free, Requests.info, hx]

theorem replyData_eq (token : Int) (r : Reply) :
    ∃ error payload, replyData token r = solicited token error payload := by
  unfold replyData
  cases r.response with
  | none => exact ⟨_, _, rfl⟩
  | some m => exact ⟨_, _, rfl⟩

theorem solicited_length (token error : Int) (payload : List UInt8) :
    (solicited token error payload).length = 12 + payload.length := by
  simp [solicited, encodeInt32]
  omega

theorem replyData_length (token : Int) (r : Reply) : (replyData token r).length = r.size := by
  unfold replyData Reply.size
  cases r.response with
  | none => rw [solicited_length]; rfl
  | some m => rw [solicited_length]; rfl

/-- What `RIL_onRequestComplete` does with a pending request of a client that is
still there: it takes it off the list, sends the response and frees it. -/
theorem onRequestComplete_eq (hpending : Pending s.requests l)
    (hlength : l.length ≤ s.commands.length) {a : α} (ha : a ∈ l) {v : RequestInfo α Nat}
    (hv : s.requests.info a = some v) (hremote : v.isLocal = false)
    (hactive : v.cancelled = false) (r : Reply) :
    ∃ q, Pending q (l.erase a) ∧ q.info = s.requests.info ∧
      onRequestComplete a r s = some
        { Service.sendResponse { s with requests := q } v.ghost (replyData v.token r) with
          requests := (Service.sendResponse { s with requests := q } v.ghost
            (replyData v.token r)).requests.free a } := by
  obtain ⟨q, hdeq, hrest, hinfo⟩ :=
    (checkAndDequeueRequestInfo_spec hpending (Nat.lt_succ_of_le hlength) (some a)).2 a ha rfl
  obtain ⟨w, hw, rfl⟩ := heap_of_info (q := q) (by rw [hinfo]; exact hv)
  have hlocal : w.isLocal = false := hremote
  have hcancelled : w.cancelled = false := hactive
  refine ⟨q, hrest, hinfo, ?_⟩
  simp only [onRequestComplete, hdeq, Option.bind_eq_bind, Option.bind_some, hw, hlocal,
    hcancelled, Bool.not_true, Bool.or_self, Bool.false_eq_true, if_false]

/-- A request leaves the list.  Everything else stays as it was, and the command of the
request is settled. -/
theorem ServiceCore.remove (h : ServiceCore b reply s l openCalls) {a : α} (ha : a ∈ l)
    {v : RequestInfo α Nat} (hv : s.requests.info a = some v) {cmd : Command}
    (hcmd : Waiting s v cmd) {t : Service α} (hpending : Pending t.requests (l.erase a))
    (hcommands : t.commands = s.commands) (hcalls : t.calls = s.calls)
    (hinfo : ∀ x, x ≠ a → t.requests.info x = s.requests.info x)
    (hanswers : ∀ j, j ≠ v.ghost → t.answers j = s.answers j)
    (hsettled : Settled b (reply v.ghost) cmd (t.answers v.ghost))
    (hwritten : ∀ w ∈ t.written, w ∈ s.written ∨ w.1 = v.ghost) :
    ServiceCore b reply t (l.erase a) (openCalls.erase a) := by
  have hnodup := chain_nodup h.pending.chain
  have hother : ∀ x ∈ l.erase a, x ∈ l ∧ x ≠ a := by
    intro x hx
    exact ⟨List.mem_of_mem_erase hx, fun hxa => hnodup.not_mem_erase (hxa ▸ hx)⟩
  -- the records of the other requests, and the commands they wait for
  have hold : ∀ x ∈ l.erase a, ∀ u, t.requests.info x = some u →
      x ∈ l ∧ s.requests.info x = some u ∧ u.ghost ≠ v.ghost := by
    intro x hx u hu
    obtain ⟨hxl, hxa⟩ := hother x hx
    rw [hinfo x hxa] at hu
    exact ⟨hxl, hu, fun heq => hxa (h.distinct x hxl a ha u v hu hv heq)⟩
  have hwaits : ∀ {u c}, u.ghost ≠ v.ghost → (Waiting t u c ↔ Waiting s u c) := by
    intro u c hne
    constructor
    · intro hc
      exact ⟨hcommands ▸ hc.command, hc.readable, hc.token, hc.remote, hc.active,
        hanswers _ hne ▸ hc.unanswered⟩
    · intro hc
      exact ⟨hcommands ▸ hc.command, hc.readable, hc.token, hc.remote, hc.active,
        (hanswers _ hne).trans hc.unanswered⟩
  constructor
  · exact hpending
  · rw [hcommands]
    exact Nat.le_trans List.length_erase_le h.length_le
  · exact h.open_nodup.erase a
  · intro x hx
    have hxa : x ≠ a := fun hxa => h.open_nodup.not_mem_erase (hxa ▸ hx)
    exact (List.mem_erase_of_ne hxa).mpr (h.open_sub x (List.mem_of_mem_erase hx))
  · intro x hx u hu
    obtain ⟨hxl, hu, hne⟩ := hold x hx u hu
    obtain ⟨c, hc⟩ := h.record x hxl u hu
    exact ⟨c, (hwaits hne).mpr hc⟩
  · intro x hx hxo u hu c hc
    obtain ⟨hxl, hu, hne⟩ := hold x hx u hu
    have hxo : x ∉ openCalls := fun hmem => hxo ((List.mem_erase_of_ne (hother x hx).2).mpr hmem)
    exact h.leaked x hxl hxo u hu c ((hwaits hne).mp hc)
  · intro x hx x' hx' u u' hu hu' heq
    obtain ⟨hxl, hu, -⟩ := hold x hx u hu
    obtain ⟨hxl', hu', -⟩ := hold x' hx' u' hu'
    exact h.distinct x hxl x' hxl' u u' hu hu' heq
  · intro i c hc hread hnone
    rw [hcommands] at hc
    by_cases hi : i = v.ghost
    · subst hi
      have hcc : c = cmd := Option.some.inj (hc.symm.trans hcmd.command)
      rw [hcc]
      exact hsettled
    · rw [hanswers i hi]
      apply h.settled i c hc hread
      intro x hx u hu
      by_cases hxa : x = a
      · rw [hxa, hv] at hu
        cases hu
        exact Ne.symm hi
      · exact hnone x ((List.mem_erase_of_ne hxa).mpr hx) u ((hinfo x hxa).trans hu)
  · intro w hw
    rw [hcommands]
    rcases hwritten w hw with hold | hnew
    · exact h.written w hold
    · rw [hnew]
      exact (List.getElem?_eq_some_iff.mp hcmd.command).1
  · intro x hx hxc u hu c hc
    obtain ⟨hxl, hu, hne⟩ := hold x hx u hu
    exact h.forwarded x hxl (hcalls ▸ hxc) u hu c ((hwaits hne).mp hc)

/-- **The completion of a pending request.**  The request leaves the list, and
its command is settled. -/
theorem complete_core (h : ServiceCore b reply s l openCalls) {a : α} (ha : a ∈ l)
    {v : RequestInfo α Nat} (hv : s.requests.info a = some v) {cmd : Command}
    (hcmd : Waiting s v cmd) {r : Reply}
    (hr : r.size ≤ maxCommandBytes ↔ Answerable b (reply v.ghost) cmd) :
    ∃ s', onRequestComplete a r s = some s' ∧ s'.calls = s.calls ∧ s'.crashed = s.crashed ∧
      ServiceCore b reply s' (l.erase a) (openCalls.erase a) := by
  have hnodup := chain_nodup h.pending.chain
  obtain ⟨q, hpending, hinfo, heq⟩ :=
    onRequestComplete_eq h.pending h.length_le ha hv hcmd.remote hcmd.active r
  rw [hcmd.token] at heq
  let s₁ : Service α := Service.sendResponse { s with requests := q } v.ghost
    (replyData cmd.token r)
  obtain ⟨hreq, hcalls, hcommands, hcrashed, hwritten⟩ :=
    sendResponse_fields { s with requests := q } v.ghost (replyData cmd.token r)
  have hanswers : ∀ j, s₁.answers j = if v.ghost = j ∧ r.size ≤ maxCommandBytes then
      s.answers j ++ [replyData cmd.token r] else s.answers j := by
    intro j
    rw [← replyData_length cmd.token r]
    exact sendResponse_answers { s with requests := q } v.ghost j (replyData cmd.token r)
  have hsettled : Settled b (reply v.ghost) cmd (s₁.answers v.ghost) := by
    rw [hanswers, hcmd.unanswered, List.nil_append]
    by_cases hfit : r.size ≤ maxCommandBytes
    · rw [if_pos ⟨rfl, hfit⟩]
      obtain ⟨error, payload, heq⟩ := replyData_eq cmd.token r
      exact Or.inl ⟨hr.mp hfit, error, payload, by rw [heq]⟩
    · rw [if_neg (fun hg => hfit hg.2)]
      exact Or.inr ⟨hr.not.mp hfit, rfl⟩
  refine ⟨{ s₁ with requests := s₁.requests.free a }, heq, hcalls, hcrashed,
    h.remove ha hv hcmd ?_ hcommands hcalls ?_ ?_ hsettled hwritten⟩
  · show Pending (s₁.requests.free a) (l.erase a)
    rw [hreq]
    exact hpending.write_other hnodup.not_mem_erase none
  · intro x hx
    show (s₁.requests.free a).info x = s.requests.info x
    rw [free_info hx, hreq, ← hinfo]
  · intro j hj
    show s₁.answers j = s.answers j
    rw [hanswers, if_neg (fun hg => hj hg.1.symm)]

omit [DecidableEq α] in
theorem getElem?_concat_cases {l : List Command} {cmd c : Command} {i : Nat}
    (h : (l ++ [cmd])[i]? = some c) : l[i]? = some c ∨ (i = l.length ∧ c = cmd) := by
  by_cases hi : i < l.length
  · left
    rwa [List.getElem?_append_left hi] at h
  · have hlen := (List.getElem?_eq_some_iff.mp h).1
    have hi : i = l.length := by
      rw [List.length_append, List.length_singleton] at hlen
      omega
    subst hi
    rw [List.getElem?_concat_length] at h
    exact Or.inr ⟨rfl, (Option.some.inj h).symm⟩

omit [DecidableEq α] in
/-- A command that has not arrived has no answer. -/
theorem ServiceCore.answers_new (h : ServiceCore b reply s l openCalls) :
    s.answers s.commands.length = [] := by
  rw [Service.answers, List.map_eq_nil_iff, List.filter_eq_nil_iff]
  intro w hw
  have hlt := h.written w hw
  simp only [beq_iff_eq]
  omega

omit [DecidableEq α] in
theorem Waiting.ghost_lt {v : RequestInfo α Nat} {cmd : Command} (h : Waiting s v cmd) :
    v.ghost < s.commands.length :=
  (List.getElem?_eq_some_iff.mp h.command).1

omit [DecidableEq α] in
/-- More commands and more answers to them do not disturb a request. -/
theorem Waiting.mono {s' : Service α} {v : RequestInfo α Nat} {cmd new : Command}
    (h : Waiting s v cmd) (hcommands : s'.commands = s.commands ++ [new])
    (hanswers : s'.answers v.ghost = s.answers v.ghost) : Waiting s' v cmd := by
  refine ⟨?_, h.readable, h.token, h.remote, h.active, hanswers.trans h.unanswered⟩
  rw [hcommands, List.getElem?_append_left h.ghost_lt]
  exact h.command

omit [DecidableEq α] in
theorem Waiting.unique {v : RequestInfo α Nat} {cmd cmd' : Command} (h : Waiting s v cmd)
    (h' : Waiting s v cmd') : cmd = cmd' :=
  Option.some.inj (h.command.symm.trans h'.command)

omit [DecidableEq α] in
/-- A command that does not reach the pending list. -/
theorem ServiceCore.aside (h : ServiceCore b reply s l openCalls) {s' : Service α}
    {cmd : Command} (hreq : s'.requests = s.requests) (hcalls : s'.calls = s.calls)
    (hcommands : s'.commands = s.commands ++ [cmd])
    (hanswers : ∀ i, i ≠ s.commands.length → s'.answers i = s.answers i)
    (hwritten : ∀ w ∈ s'.written, w ∈ s.written ∨ w.1 = s.commands.length)
    (hnew : cmd.Readable →
      Settled b (reply s.commands.length) cmd (s'.answers s.commands.length)) :
    ServiceCore b reply s' l openCalls := by
  have hlen : s'.commands.length = s.commands.length + 1 := by
    rw [hcommands, List.length_append, List.length_singleton]
  have hold : ∀ v cmd', Waiting s v cmd' → Waiting s' v cmd' := by
    intro v cmd' hw
    exact hw.mono hcommands (hanswers _ (Nat.ne_of_lt hw.ghost_lt))
  constructor
  · rw [hreq]
    exact h.pending
  · rw [hlen]
    exact Nat.le_succ_of_le h.length_le
  · exact h.open_nodup
  · exact h.open_sub
  · intro a ha v hv
    rw [hreq] at hv
    obtain ⟨cmd', hw⟩ := h.record a ha v hv
    exact ⟨cmd', hold v cmd' hw⟩
  · intro a ha hopen v hv cmd' hw
    rw [hreq] at hv
    obtain ⟨c, hc⟩ := h.record a ha v hv
    rw [hw.unique (hold v c hc)]
    exact h.leaked a ha hopen v hv c hc
  · rw [hreq]
    exact h.distinct
  · intro i c hc hread hnone
    rw [hreq] at hnone
    rw [hcommands] at hc
    rcases getElem?_concat_cases hc with hc | ⟨hi, hcc⟩
    · rw [hanswers i (Nat.ne_of_lt (List.getElem?_eq_some_iff.mp hc).1)]
      exact h.settled i c hc hread hnone
    · rw [hi, hcc]
      exact hnew (hcc ▸ hread)
  · intro w hw
    rw [hlen]
    rcases hwritten w hw with hw | hw
    · exact Nat.lt_succ_of_lt (h.written w hw)
    · omega
  · intro a ha hopen v hv cmd' hw
    rw [hreq] at hv
    rw [hcalls] at hopen
    obtain ⟨c, hc⟩ := h.record a ha v hv
    rw [hw.unique (hold v c hc)]
    exact h.forwarded a ha hopen v hv c hc

/-- A new record at `a`, on the list. -/
theorem alloc_link_spec (h : ServiceCore b reply s l openCalls) {a : α}
    (hfree : s.requests.heap a = none) (v : RequestInfo α Nat) :
    ∃ q, (s.requests.alloc a v).link a = some q ∧ Pending q (a :: l) ∧
      q.info a = some { v with pNext := none } ∧
      ∀ x, x ≠ a → q.info x = s.requests.info x := by
  have hal : a ∉ l := by
    intro hal
    have := h.pending.live a hal
    rw [hfree] at this
    cases this
  have hpending : Pending (s.requests.alloc a v) l := h.pending.write_other hal (some v)
  have hheap : (s.requests.alloc a v).heap a = some v := Function.update_self ..
  obtain ⟨q, hlink, hq, hinfo⟩ := link_spec hpending (by rw [hheap]; rfl) hal
  refine ⟨q, hlink, hq, ?_, ?_⟩
  · rw [hinfo]
    exact info_of_heap hheap
  · intro x hx
    rw [hinfo]
    exact info_alloc_of_ne hx v

omit [DecidableEq α] in
/-- **A command on the pending list.**  Nothing is said yet about whether it
will be completed, so its request counts as open. -/
theorem ServiceCore.listed (h : ServiceCore b reply s l openCalls) {a : α} {cmd : Command}
    (hcalls : a ∉ s.calls) (hread : cmd.Readable) {q : Requests α Nat} (hpending : Pending q (a :: l))
    {request : Nat}
    (hinfo : q.info a = some ⟨cmd.token, request, none, false, false, s.commands.length⟩)
    (hother : ∀ x, x ≠ a → q.info x = s.requests.info x) (radio : RadioVars) :
    ServiceCore b reply
      { s with requests := q, radio := radio, commands := s.commands ++ [cmd] }
      (a :: l) (a :: openCalls) := by
  have hal : a ∉ l := (List.nodup_cons.mp (chain_nodup hpending.chain)).1
  have hne : ∀ x ∈ l, x ≠ a := fun x hx hxa => hal (hxa ▸ hx)
  have hold : ∀ v cmd', Waiting s v cmd' → Waiting
      { s with requests := q, radio := radio, commands := s.commands ++ [cmd] } v cmd' :=
    fun v cmd' hw => hw.mono rfl rfl
  have hnew : Waiting { s with requests := q, radio := radio, commands := s.commands ++ [cmd] }
      ⟨cmd.token, request, none, false, false, s.commands.length⟩ cmd :=
    ⟨List.getElem?_concat_length, hread, rfl, rfl, rfl, h.answers_new⟩
  -- a record of the new list is that of the command, or an older one
  have hcases : ∀ x ∈ a :: l, ∀ u, q.info x = some u →
      (x = a ∧ u = ⟨cmd.token, request, none, false, false, s.commands.length⟩) ∨
      (x ∈ l ∧ s.requests.info x = some u ∧ u.ghost < s.commands.length) := by
    intro x hx u hu
    rcases List.mem_cons.mp hx with hxa | hxl
    · rw [hxa, hinfo] at hu
      exact Or.inl ⟨hxa, (Option.some.inj hu).symm⟩
    · rw [hother x (hne x hxl)] at hu
      obtain ⟨c, hc⟩ := h.record x hxl u hu
      exact Or.inr ⟨hxl, hu, hc.ghost_lt⟩
  constructor
  · exact hpending
  · show (a :: l).length ≤ (s.commands ++ [cmd]).length
    rw [List.length_append, List.length_cons]
    exact Nat.succ_le_succ h.length_le
  · exact List.nodup_cons.mpr ⟨fun hao => hal (h.open_sub a hao), h.open_nodup⟩
  · intro x hx
    rcases List.mem_cons.mp hx with hx | hx
    · exact hx ▸ List.mem_cons_self
    · exact List.mem_cons_of_mem _ (h.open_sub x hx)
  · intro x hx u hu
    rcases hcases x hx u hu with ⟨-, rfl⟩ | ⟨hxl, hu, -⟩
    · exact ⟨cmd, hnew⟩
    · obtain ⟨c, hc⟩ := h.record x hxl u hu
      exact ⟨c, hold u c hc⟩
  · intro x hx hopen u hu c hc
    obtain ⟨hxa, hxo⟩ := List.ne_and_not_mem_of_not_mem_cons hopen
    rcases hcases x hx u hu with ⟨heq, -⟩ | ⟨hxl, hu, -⟩
    · exact absurd heq hxa
    · obtain ⟨c', hc'⟩ := h.record x hxl u hu
      rw [hc.unique (hold u c' hc')]
      exact h.leaked x hxl hxo u hu c' hc'
  · intro x hx x' hx' u u' hu hu' heq
    rcases hcases x hx u hu with ⟨hxa, rfl⟩ | ⟨hxl, hu, hlt⟩
    · rcases hcases x' hx' u' hu' with ⟨hxa', -⟩ | ⟨-, -, hlt'⟩
      · rw [hxa, hxa']
      · exact absurd heq.symm (Nat.ne_of_lt hlt')
    · rcases hcases x' hx' u' hu' with ⟨-, rfl⟩ | ⟨hxl', hu', -⟩
      · exact absurd heq (Nat.ne_of_lt hlt)
      · exact h.distinct x hxl x' hxl' u u' hu hu' heq
  · intro i c hc hread' hnone
    rcases getElem?_concat_cases hc with hc | ⟨hi, -⟩
    · apply h.settled i c hc hread'
      intro x hx u hu
      exact hnone x (List.mem_cons_of_mem _ hx) u ((hother x (hne x hx)).trans hu)
    · exact absurd hi.symm (hnone a List.mem_cons_self _ hinfo)
  · intro w hw
    show w.1 < (s.commands ++ [cmd]).length
    rw [List.length_append]
    exact Nat.lt_add_right _ (h.written w hw)
  · intro x hx hxc u hu c hc
    rcases hcases x hx u hu with ⟨hxa, -⟩ | ⟨hxl, hu, -⟩
    · exact absurd (hxa ▸ hxc) hcalls
    · obtain ⟨c', hc'⟩ := h.record x hxl u hu
      rw [hc.unique (hold u c' hc')]
      exact h.forwarded x hxl hxc u hu c' hc'

omit [DecidableEq α] in
/-- A request that nobody will complete stays on the list. -/
theorem ServiceCore.leak {a : α} (h : ServiceCore b reply s (a :: l) (a :: openCalls))
    {v : RequestInfo α Nat} (hv : s.requests.info a = some v) {cmd : Command}
    (hw : Waiting s v cmd) (hnot : ¬ Answerable b (reply v.ghost) cmd) :
    ServiceCore b reply s (a :: l) openCalls where
  pending := h.pending
  length_le := h.length_le
  open_nodup := (List.nodup_cons.mp h.open_nodup).2
  open_sub := fun x hx => h.open_sub x (List.mem_cons_of_mem _ hx)
  record := h.record
  leaked := by
    intro x hx hopen u hu c hc
    by_cases hxa : x = a
    · rw [hxa, hv] at hu
      cases hu
      rw [hc.unique hw]
      exact hnot
    · exact h.leaked x hx (List.not_mem_cons_of_ne_of_not_mem hxa hopen) u hu c hc
  distinct := h.distinct
  settled := h.settled
  written := h.written
  forwarded := h.forwarded

omit [DecidableEq α] in
/-- The vendor's calls may change as long as the new ones are known. -/
theorem ServiceCore.recall (h : ServiceCore b reply s l openCalls) {calls : List α}
    (crashed : Bool)
    (hcalls : ∀ a ∈ l, a ∈ calls → a ∉ s.calls → ∀ v, s.requests.info a = some v →
      ∀ cmd, Waiting s v cmd →
      ((reply v.ghost).size ≤ maxCommandBytes ↔ Answerable b (reply v.ghost) cmd)) :
    ServiceCore b reply { s with calls := calls, crashed := crashed } l openCalls := by
  have hback : ∀ {v cmd}, Waiting { s with calls := calls, crashed := crashed } v cmd →
      Waiting s v cmd :=
    fun hw => ⟨hw.command, hw.readable, hw.token, hw.remote, hw.active, hw.unanswered⟩
  refine ⟨h.pending, h.length_le, h.open_nodup, h.open_sub, ?_, ?_, h.distinct, h.settled,
    h.written, ?_⟩
  · intro a ha v hv
    obtain ⟨cmd, hw⟩ := h.record a ha v hv
    exact ⟨cmd, hw.command, hw.readable, hw.token, hw.remote, hw.active, hw.unanswered⟩
  · intro a ha hopen v hv cmd hw
    exact h.leaked a ha hopen v hv cmd (hback hw)
  · intro a ha hmem v hv cmd hw
    by_cases hold : a ∈ s.calls
    · exact h.forwarded a ha hold v hv cmd (hback hw)
    · exact hcalls a ha hmem hold v hv cmd (hback hw)

/-- A token that is not on the list is ignored. -/
theorem onRequestComplete_unknown (h : ServiceCore b reply s l openCalls) {a : α} (ha : a ∉ l)
    (r : Reply) : onRequestComplete a r s = some s := by
  have hfuel : l.length < s.commands.length + 1 := Nat.lt_succ_of_le h.length_le
  have hdeq := (checkAndDequeueRequestInfo_spec h.pending hfuel (some a)).1
    (fun x hx heq => ha (Option.some.inj heq ▸ hx))
  simp [onRequestComplete, hdeq]

theorem completeAll_unknown (h : ServiceCore b reply s l openCalls) {a : α} (ha : a ∉ l)
    (rs : List Reply) : completeAll a rs s = some s := by
  induction rs with
  | nil => rfl
  | cons r rs ih =>
      rw [completeAll, onRequestComplete_unknown h ha]
      exact ih

theorem sCommands_entry (b : Build) {n : Nat} (hpos : 1 ≤ n) (hlen : n < (sCommands b).length) :
    ∃ d, (sCommands b)[n]? = some (some d) := by
  obtain ⟨k, rfl⟩ : ∃ k, n = k + 1 := ⟨n - 1, by omega⟩
  have hk : k < (commandEntries b).length := by
    simpa [sCommands] using hlen
  exact ⟨(commandEntries b)[k], by simp [sCommands, hk]⟩

/-- A command in the range of the table is answerable through its dispatch
function. -/
theorem answerable_iff {cmd : Command} {d : Dispatch} {r : Reply} (hpos : ¬ cmd.request < 1)
    (hlen : ¬ (sCommands b).length ≤ cmd.request)
    (hd : (sCommands b)[cmd.request.toNat]? = some (some d)) :
    Answerable b r cmd ↔ d.AnswersItself cmd.state ∨
      d.Accepts b cmd.state cmd.payload ∧ r.size ≤ maxCommandBytes := by
  constructor
  · intro hans
    rcases hans with hlow | hhigh | ⟨d', hd', hans⟩
    · exact absurd hlow hpos
    · exact absurd hhigh hlen
    · rw [hd] at hd'
      cases hd'
      exact hans
  · exact fun hans => Or.inr (Or.inr ⟨d, hd, hans⟩)

/-- **After the dispatch function.**  The request of the new command is at the
head of the list; what happens to it depends on the dispatch function. -/
theorem afterDispatch_core {a : α} {cmd : Command} {d : Dispatch} {v : RequestInfo α Nat}
    (h : ServiceCore b reply s (a :: l) (a :: s.calls)) (hv : s.requests.info a = some v)
    (hw : Waiting s v cmd) {radio : RadioVars} {c : Cursor} (hc : Alike c.rest cmd.payload)
    (hiff : ∀ r, Answerable b r cmd ↔ d.AnswersItself cmd.state ∨
      d.Accepts b cmd.state cmd.payload ∧ r.size ≤ maxCommandBytes) :
    ∃ s' l', afterDispatch a s (d.call b cmd.state radio c).1 = some s' ∧
      ServiceCore b reply s' l' s'.calls := by
  have hrequest := @call_isRequest b cmd.state radio _ _ hc d
  rcases call_cases b cmd.state radio c d with ⟨hself, r, rs, heq, hsize⟩ | ⟨hself, r, heq⟩
  · have hfit : r.size ≤ maxCommandBytes ↔ Answerable b (reply v.ghost) cmd :=
      iff_of_true (Nat.le_trans (Nat.add_le_add_left hsize 12) (by decide))
        ((hiff _).mpr (Or.inl hself))
    obtain ⟨s', hrun, hcalls, -, hcore⟩ := complete_core h List.mem_cons_self hv hw hfit
    rw [List.erase_cons_head, List.erase_cons_head] at hcore
    have hal : a ∉ l := (List.nodup_cons.mp (chain_nodup h.pending.chain)).1
    refine ⟨s', l, ?_, hcalls ▸ hcore⟩
    rw [heq, afterDispatch, completeAll, hrun]
    exact completeAll_unknown hcore hal rs
  · rw [heq] at hrequest ⊢
    have hleak : ¬ d.Accepts b cmd.state cmd.payload → ServiceCore b reply s (a :: l) s.calls := by
      intro hnot
      apply h.leak hv hw
      rw [hiff]
      intro hans
      rcases hans with hans | ⟨hans, -⟩
      · exact hself hans
      · exact hnot hans
    cases r with
    | onRequest data =>
        have hacc := hrequest.mp rfl
        refine ⟨{ s with calls := a :: s.calls }, a :: l, rfl, h.recall s.crashed ?_⟩
        intro x hx hmem hold u hu c' hc'
        have hxa : x = a := (List.mem_cons.mp hmem).resolve_right hold
        rw [hxa, hv] at hu
        cases hu
        rw [hc'.unique hw, hiff]
        constructor
        · exact fun hfit => Or.inr ⟨hacc, hfit⟩
        · exact fun hans => (hans.resolve_left hself).2
    | invalidCommandBlock =>
        exact ⟨s, a :: l, rfl, hleak (hrequest.not.mp (by decide))⟩
    | unknownFormat =>
        exact ⟨s, a :: l, rfl, hleak (hrequest.not.mp (by decide))⟩
    | overrun =>
        have hcore := hleak (hrequest.not.mp (by decide))
        refine ⟨{ s with crashed := true }, a :: l, rfl, hcore.recall true ?_⟩
        exact fun x _ hmem hnot => absurd hmem hnot

/-- The two numbers at the front of a command. -/
theorem readHeader {cmd : Command} {request token : Int} {c₁ c₂ : Cursor}
    (hr₁ : readInt32 b.junk ⟨cmd.buffer, true⟩ = (request, c₁))
    (hr₂ : readInt32 b.junk c₁ = (token, c₂)) :
    (c₂.ok = true ↔ cmd.Readable) ∧ Alike c₂.rest cmd.payload ∧
      (cmd.Readable → request = cmd.request ∧ token = cmd.token) := by
  obtain ⟨h₁, -, hrequest⟩ := readInt32_spec (Alike.refl cmd.buffer) hr₁
  obtain ⟨h₂, hok, htoken⟩ := readInt32_spec h₁ hr₂
  rw [drop_length_iff _ (by omega)] at hok htoken
  rw [List.drop_drop] at h₂
  refine ⟨hok, h₂, fun hread => ?_⟩
  have hlen : 8 ≤ cmd.buffer.length := hread
  exact ⟨hrequest (by omega), htoken hlen⟩

omit [DecidableEq α] in
/-- A request code outside the table is answered at once. -/
theorem unsupported_core (h : ServiceCore b reply s l s.calls) {cmd : Command}
    (hans : Answerable b (reply s.commands.length) cmd) :
    ServiceCore b reply
      (Service.sendResponse { s with commands := s.commands ++ [cmd] } s.commands.length
        (solicited cmd.token 2 [])) l s.calls := by
  obtain ⟨hreq, hcalls, hcommands, -, hwritten⟩ := sendResponse_fields
    { s with commands := s.commands ++ [cmd] } s.commands.length (solicited cmd.token 2 [])
  have hanswers := fun j => sendResponse_answers { s with commands := s.commands ++ [cmd] }
    s.commands.length j (solicited cmd.token 2 [])
  have hsize : (solicited cmd.token 2 []).length ≤ maxCommandBytes := by
    rw [solicited_length]
    decide
  apply h.aside hreq hcalls hcommands
  · intro i hi
    rw [hanswers, if_neg (fun hg => hi hg.1.symm)]
    rfl
  · exact hwritten
  · intro _
    rw [hanswers, if_pos ⟨rfl, hsize⟩]
    left
    refine ⟨hans, 2, [], ?_⟩
    show s.answers s.commands.length ++ _ = _
    rw [h.answers_new, List.nil_append]

/-- A supported request is linked into the list and dispatched. -/
theorem supported_core (h : ServiceCore b reply s l s.calls) {a : α} {cmd : Command}
    (hfree : s.requests.heap a = none) (hread : cmd.Readable) {d : Dispatch} {c : Cursor}
    (hc : Alike c.rest cmd.payload) (hpos : ¬ cmd.request < 1)
    (hlen : ¬ (sCommands b).length ≤ cmd.request)
    (hd : (sCommands b)[cmd.request.toNat]? = some (some d)) :
    ∃ q s' l', (s.requests.alloc a
        ⟨cmd.token, cmd.request.toNat, none, false, false, s.commands.length⟩).link a = some q ∧
      afterDispatch a
        { s with
          requests := q
          radio := (d.call b cmd.state s.radio c).2
          commands := s.commands ++ [cmd] }
        (d.call b cmd.state s.radio c).1 = some s' ∧
      ServiceCore b reply s' l' s'.calls := by
  obtain ⟨q, hlink, hpending, hinfo, hother⟩ := alloc_link_spec h hfree
    ⟨cmd.token, cmd.request.toNat, none, false, false, s.commands.length⟩
  have hac : a ∉ s.calls := by
    intro hac
    have hlive := h.pending.live a (h.open_sub a hac)
    rw [hfree] at hlive
    cases hlive
  have hcore := h.listed hac hread hpending hinfo hother (d.call b cmd.state s.radio c).2
  have hwaiting : Waiting { s with
      requests := q
      radio := (d.call b cmd.state s.radio c).2
      commands := s.commands ++ [cmd] }
      ⟨cmd.token, cmd.request.toNat, none, false, false, s.commands.length⟩ cmd :=
    ⟨List.getElem?_concat_length, hread, rfl, rfl, rfl, h.answers_new⟩
  obtain ⟨s', l', hrun, hcore'⟩ := afterDispatch_core (d := d) (c := c)
    hcore hinfo hwaiting hc (fun r => answerable_iff hpos hlen hd)
  exact ⟨q, s', l', hlink, hrun, hcore'⟩

/-- A command arrives. -/
theorem command_core (h : ServiceCore b reply s l s.calls) {a : α} (cmd : Command)
    (hfree : s.requests.heap a = none) :
    ∃ s' l', processCommandBuffer b a cmd s = some s' ∧ ServiceCore b reply s' l' s'.calls := by
  rcases hr₁ : readInt32 b.junk ⟨cmd.buffer, true⟩ with ⟨request, c₁⟩
  rcases hr₂ : readInt32 b.junk c₁ with ⟨token, c₂⟩
  obtain ⟨hok, hc, hheader⟩ := readHeader hr₁ hr₂
  by_cases hread : cmd.Readable
  · obtain ⟨rfl, rfl⟩ := hheader hread
    by_cases hrange : cmd.request < 1 ∨ (sCommands b).length ≤ cmd.request
    · refine ⟨Service.sendResponse { s with commands := s.commands ++ [cmd] } s.commands.length
        (solicited cmd.token 2 []), l, ?_, ?_⟩
      · simp only [processCommandBuffer, hr₁, hr₂, hok.mpr hread, hrange, Bool.not_true,
          Bool.false_eq_true, if_false, if_true]
      · rw [(sendResponse_fields { s with commands := s.commands ++ [cmd] } s.commands.length
          (solicited cmd.token 2 [])).2.1]
        apply unsupported_core h
        rcases hrange with hlow | hhigh
        · exact Or.inl hlow
        · exact Or.inr (Or.inl hhigh)
    · obtain ⟨d, hd⟩ := sCommands_entry b (n := cmd.request.toNat) (by omega) (by omega)
      obtain ⟨q, s', l', hlink, hrun, hcore⟩ := supported_core h hfree hread hc
        (fun hlow => hrange (Or.inl hlow)) (fun hhigh => hrange (Or.inr hhigh)) hd
      refine ⟨s', l', ?_, hcore⟩
      simp only [processCommandBuffer, hr₁, hr₂, hok.mpr hread, hrange, Bool.not_true,
        Bool.false_eq_true, if_false, hd, Option.join_some, Option.bind_eq_bind,
        Option.bind_some, hlink]
      exact hrun
  · refine ⟨{ s with commands := s.commands ++ [cmd] }, l, ?_, ?_⟩
    · have hbad : c₂.ok = false := Bool.eq_false_iff.mpr (hok.not.mpr hread)
      simp only [processCommandBuffer, hr₁, hr₂, hbad, Bool.not_false, if_true]
    · exact h.aside rfl rfl rfl
        (fun i _ => rfl) (fun w hw => Or.inl hw) (fun hr => absurd hr hread)

/-- Every move that the environment can make. -/
theorem serviceStep_core (h : ServiceCore b reply s l s.calls) {label : ServiceLabel α}
    (hlegal : label.Legal s) :
    ∃ s' l', serviceStep b reply s label = some s' ∧ ServiceCore b reply s' l' s'.calls := by
  cases label with
  | command a cmd => exact command_core h cmd hlegal.2
  | complete a =>
      have hac : a ∈ s.calls := hlegal.2
      have hal := h.open_sub a hac
      obtain ⟨w, hw⟩ := Option.isSome_iff_exists.mp (h.pending.live a hal)
      have hv := info_of_heap hw
      obtain ⟨cmd, hcmd⟩ := h.record a hal _ hv
      obtain ⟨s', hrun, hcalls, -, hcore⟩ :=
        complete_core h hal hv hcmd (h.forwarded a hal hac _ hv cmd hcmd)
      refine ⟨{ s' with calls := s'.calls.erase a }, l.erase a, ?_, ?_⟩
      · simp only [serviceStep, hw, Option.bind_eq_bind, Option.bind_some]
        rw [hrun]
        rfl
      · rw [← hcalls] at hcore
        apply hcore.recall s'.crashed
        exact fun x _ hmem hnot => absurd (List.mem_of_mem_erase hmem) hnot

end Steps

omit [DecidableEq α] in
theorem start_core (b : Build) (reply : Nat → Reply) :
    ServiceCore b reply (Service.start : Service α) [] [] := by
  constructor <;> simp [Service.start, Requests.empty]
  exact ⟨rfl, by simp⟩

/-- No call for command `i` is left to the vendor. -/
def Service.Completed (s : Service α) (i : Nat) : Prop :=
  ∀ a ∈ s.calls, ∀ v, s.requests.heap a = some v → v.ghost ≠ i

/-- The client has exactly one answer to its command, a solicited response with
the token, and no request is left on the pending list `l`. -/
def Service.Answered (s : Service α) (l : List α) (i : Nat) (cmd : Command) : Prop :=
  (∃ error payload, s.answers i = [solicited cmd.token error payload]) ∧
    ∀ a ∈ l, ∀ v, s.requests.heap a = some v → v.ghost ≠ i

omit [DecidableEq α] in
theorem ServiceCore.answered_iff {b : Build} {reply : Nat → Reply} {s : Service α} {l : List α}
    (h : ServiceCore b reply s l s.calls) {i : Nat} {cmd : Command}
    (hcmd : s.commands[i]? = some cmd) (hread : cmd.Readable) (hdone : s.Completed i) :
    s.Answered l i cmd ↔ Answerable b (reply i) cmd := by
  constructor
  · intro hans
    obtain ⟨⟨error, payload, hanswer⟩, hnone⟩ := hans
    rcases h.settled i cmd hcmd hread (fun a ha v hv => by
      obtain ⟨w, hw, rfl⟩ := heap_of_info hv
      exact hnone a ha w hw) with ⟨hA, -⟩ | ⟨-, hnil⟩
    · exact hA
    · rw [hnil] at hanswer
      cases hanswer
  · intro hA
    have hnone : ∀ a ∈ l, ∀ v, s.requests.heap a = some v → v.ghost ≠ i := by
      intro a ha v hv hi
      have hinfo := info_of_heap hv
      obtain ⟨c, hc⟩ := h.record a ha _ hinfo
      have hcc : c = cmd := by
        have hcommand : s.commands[v.ghost]? = some c := hc.command
        rw [hi, hcmd] at hcommand
        exact (Option.some.inj hcommand).symm
      by_cases hopen : a ∈ s.calls
      · exact hdone a hopen v hv hi
      · apply h.leaked a ha hopen _ hinfo c hc
        rw [hcc]
        show Answerable b (reply v.ghost) cmd
        rw [hi]
        exact hA
    rcases h.settled i cmd hcmd hread (fun a ha v hv => by
      obtain ⟨w, hw, rfl⟩ := heap_of_info hv
      exact hnone a ha w hw) with ⟨-, hanswer⟩ | ⟨hnot, -⟩
    · exact ⟨hanswer, hnone⟩
    · exact absurd hA hnot

theorem service_every_run (b : Build) (reply : Nat → Reply) (labels : List (ServiceLabel α))
    (hlegal : Along (serviceStep b reply) (fun s label => label.Legal s) Service.start labels) :
    ∃ (s : Service α) (l : List α), exec (serviceStep b reply) Service.start labels = some s ∧
      ServiceCore b reply s l s.calls := by
  obtain ⟨s, hrun, l, hcore⟩ := exec_progress
    (fun s : Service α => ∃ l, ServiceCore b reply s l s.calls)
    (fun s label hinv hok => by
      obtain ⟨l, hcore⟩ := hinv
      obtain ⟨s', l', hstep, hcore'⟩ := serviceStep_core hcore hok
      exact ⟨s', hstep, l', hcore'⟩)
    ⟨[], start_core b reply⟩ hlegal
  exact ⟨s, l, hrun, hcore⟩

/-- **Which requests are answered.**  In every run, a command whose code and
token can be read and whose call the vendor has completed, if there was one, is
answered exactly if it is answerable. -/
theorem commands_answered (b : Build) (reply : Nat → Reply) (labels : List (ServiceLabel α))
    (hlegal : Along (serviceStep b reply) (fun s label => label.Legal s) Service.start labels) :
    ∃ (s : Service α) (l : List α), exec (serviceStep b reply) Service.start labels = some s ∧
      Pending s.requests l ∧
      ∀ i cmd, s.commands[i]? = some cmd → cmd.Readable → s.Completed i →
        (s.Answered l i cmd ↔ Answerable b (reply i) cmd) := by
  obtain ⟨s, l, hrun, hcore⟩ := service_every_run b reply labels hlegal
  exact ⟨s, l, hrun, hcore.pending, fun i cmd hcmd hread hdone =>
    hcore.answered_iff hcmd hread hdone⟩

instance (s : Service α) : (label : ServiceLabel α) → Decidable (label.Legal s)
  | .command a _ => inferInstanceAs (Decidable (s.crashed = false ∧ s.requests.heap a = none))
  | .complete a => inferInstanceAs (Decidable (s.crashed = false ∧ a ∈ s.calls))

/-- A build without the vendor's extensions, and a stack of one megabyte. -/
def someBuild : Build :=
  { version := 9, variantLegacy := true, noCellInfoList := false, stack := 1048576
    junk := 0, junkByte := 0 }

/-- `RIL_REQUEST_HANGUP` of call 1 with token 7. -/
def hangup : Command :=
  ⟨[12, 0, 0, 0, 7, 0, 0, 0, 1, 0, 0, 0, 1, 0, 0, 0], .on⟩

/-- The same request with an empty list of numbers. -/
def hangupNothing : Command :=
  ⟨[12, 0, 0, 0, 7, 0, 0, 0, 0, 0, 0, 0], .on⟩

/-- `RIL_REQUEST_IMS_SEND_SMS` with the format 3, which does not exist. -/
def imsSendSms : Command :=
  ⟨[113, 0, 0, 0, 8, 0, 0, 0, 3, 0, 0, 0, 0, 0, 0, 0, 0, 0, 0, 0], .on⟩

/-- `RIL_REQUEST_GET_IMEI`. -/
def getImei : Command :=
  ⟨[38, 0, 0, 0, 9, 0, 0, 0], .on⟩

def voidReply : Nat → Reply :=
  fun _ => ⟨0, none⟩

theorem commands_answered_hangup :
    ∃ (s : Service Nat) (l : List Nat),
      exec (serviceStep someBuild voidReply) Service.start
        [.command 16 hangup, .command 32 hangupNothing, .complete 16] = some s ∧
      Pending s.requests l ∧
      ∀ i cmd, s.commands[i]? = some cmd → cmd.Readable → s.Completed i →
        (s.Answered l i cmd ↔ Answerable someBuild (voidReply i) cmd) :=
  commands_answered someBuild voidReply _ (by decide +kernel)

/-- An identity of 4089 zeros, which is 8184 bytes as a string of a parcel and with the
header a little more than a frame. -/
def longReply : Nat → Reply :=
  fun _ => ⟨0, some ⟨0, encodeString (List.replicate 4089 48)⟩⟩

/-- At the end of the run the vendor owes nothing, and the first command has no
answer. -/
def Lost (reply : Nat → Reply) (labels : List (ServiceLabel Nat)) (cmd : Command) : Prop :=
  Along (serviceStep someBuild reply) (fun s label => label.Legal s) Service.start labels ∧
    ∃ s, exec (serviceStep someBuild reply) Service.start labels = some s ∧
      s.commands[0]? = some cmd ∧ cmd.Readable ∧ s.Completed 0 ∧ ∀ l, ¬ s.Answered l 0 cmd

theorem lost_of_eval {reply : Nat → Reply} {labels : List (ServiceLabel Nat)} {cmd : Command}
    (hlegal : Along (serviceStep someBuild reply) (fun s label => label.Legal s) Service.start
      labels)
    (heval : (exec (serviceStep someBuild reply) Service.start labels).map
      (fun s => (s.calls, s.commands, s.answers 0)) = some ([], [cmd], []))
    (hread : 8 ≤ cmd.buffer.length) : Lost reply labels cmd := by
  obtain ⟨s, hrun, hs⟩ := Option.map_eq_some_iff.mp heval
  have hcalls : s.calls = [] := congrArg Prod.fst hs
  have hcommands : s.commands = [cmd] := congrArg (fun x => x.2.1) hs
  have hanswers : s.answers 0 = [] := congrArg (fun x => x.2.2) hs
  refine ⟨hlegal, s, hrun, ?_, hread, ?_, ?_⟩
  · rw [hcommands]
    rfl
  · intro a ha
    rw [hcalls] at ha
    cases ha
  · intro l hans
    obtain ⟨⟨error, payload, hanswer⟩, -⟩ := hans
    rw [hanswers] at hanswer
    cases hanswer

/-- **Requests get lost.**  An empty list of numbers, an unknown message format
and a long response leave the client without an answer; in the first two cases
the request stays on the pending list as well. -/
theorem requests_lost :
    Lost voidReply [.command 16 hangupNothing] hangupNothing ∧
      Lost voidReply [.command 16 imsSendSms] imsSendSms ∧
      Lost longReply [.command 16 getImei, .complete 16] getImei ∧
      (exec (serviceStep someBuild voidReply) Service.start
        [.command 16 hangupNothing, .command 32 imsSendSms]).map
          (fun s => (s.calls, s.requests.pending, s.requests.load (some 32))) =
        some ([], some 32, some (some 16)) := by
  refine ⟨?_, ?_, ?_, by decide +kernel⟩
  · exact lost_of_eval (by decide +kernel) (by decide +kernel) (by decide)
  · exact lost_of_eval (by decide +kernel) (by decide +kernel) (by decide)
  · exact lost_of_eval (by decide +kernel) (by decide +kernel) (by decide)

end Libril
