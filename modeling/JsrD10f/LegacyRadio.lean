import Mathlib.Data.List.Basic
import JsrD10f.Runs
import JsrD10f.Dispatch

/-!
# The voice technology of an old vendor RIL

A vendor RIL that does not know `RADIO_STATE_ON` knows nothing of the voice radio
technology and of the CDMA subscription source either.  The daemon makes both up
from the radio state: it answers the two requests for them itself, and when the
radio state changes it notifies the client of what has changed.  The two values
are cached in globals that both paths write.

A step here is a whole request, a whole state change, or the vendor's answer to a
request that was forwarded.  `client` is what the client receives, and the pending
requests are the list that `checkAndDequeueRequestInfo` searches.  When the radio
is off a request is answered and then goes on as if it were not, which overwrites
the cache: this is where the reports go wrong later.
-/

namespace Libril

open Runs Parcel

/-- The two values that are made up. -/
inductive LegacyKind where
  | voiceRadioTech
  | cdmaSubscriptionSource
deriving DecidableEq, Repr

/-- A request with its place among all of them. -/
structure LegacyRequest where
  number : Nat
  kind : LegacyKind
deriving DecidableEq, Repr

/-- What the client receives.  `byVendor` says who completed the request. -/
inductive Message where
  | changed (kind : LegacyKind) (value : Int)
  | simStatusChanged
  | radioStateChanged (state : RadioState)
  | response (request : LegacyRequest) (byVendor : Bool) (reply : Reply)
deriving DecidableEq, Repr

/-- The value as the `int` that the code has; -1 stands for none. -/
def legacyInt (value : Option Int) : Int := value.getD (-1)

/-- The cached value of a kind. -/
def LegacyKind.cached (radio : RadioVars) : LegacyKind → Option Int
  | .voiceRadioTech => radio.voiceRadioTech.map RadioTech.value
  | .cdmaSubscriptionSource => radio.cdmaSubscriptionSource.map CdmaSubscriptionSource.value

/-- The value that a radio state stands for. -/
def LegacyKind.decode (state : RadioState) : LegacyKind → Option Int
  | .voiceRadioTech => (decodeVoiceRadioTechnology state).map RadioTech.value
  | .cdmaSubscriptionSource =>
      (decodeCdmaSubscriptionSource state).map CdmaSubscriptionSource.value

def LegacyKind.dispatch (state : RadioState) (radio : RadioVars) :
    LegacyKind → CallResult × RadioVars
  | .voiceRadioTech => dispatchVoiceRadioTech state radio
  | .cdmaSubscriptionSource => dispatchCdmaSubscriptionSource state radio

/-- The first part of `processRadioState`. -/
def reportVoiceRadioTech (state : RadioState) (radio : RadioVars) : List Message × RadioVars :=
  let new := decodeVoiceRadioTechnology state
  if new ≠ radio.voiceRadioTech then
    ([.changed .voiceRadioTech (legacyInt (new.map RadioTech.value))],
      { radio with voiceRadioTech := new })
  else ([], radio)

/-- The second part, for technologies of 3GPP2 only. -/
def reportCdmaSubscriptionSource (state : RadioState) (radio : RadioVars) :
    List Message × RadioVars :=
  let new := decodeCdmaSubscriptionSource state
  if is3gpp2 (decodeVoiceRadioTechnology state) ∧ new ≠ radio.cdmaSubscriptionSource then
    ([.changed .cdmaSubscriptionSource (legacyInt (new.map CdmaSubscriptionSource.value))],
      { radio with cdmaSubscriptionSource := new })
  else ([], radio)

/-- The third part. -/
def reportSimStatus (state : RadioState) (radio : RadioVars) : List Message × RadioVars :=
  let new := decodeSimStatus state
  if new ≠ radio.simRuimStatus then ([.simStatusChanged], { radio with simRuimStatus := new })
  else ([], radio)

/-- `processRadioState` and the response that it is called for. -/
def processRadioState (state : RadioState) (radio : RadioVars) : List Message × RadioVars :=
  if state.isOld then
    let (voice, radio) := reportVoiceRadioTech state radio
    let (cdma, radio) := reportCdmaSubscriptionSource state radio
    let (sim, radio) := reportSimStatus state radio
    (voice ++ cdma ++ sim ++ [.radioStateChanged .on], radio)
  else ([.radioStateChanged state], radio)

/-- `asked` has the requests with the radio state that was found, `forwarded` those
that were handed to the vendor. -/
structure Legacy where
  radio : RadioVars
  pending : List LegacyRequest
  asked : List (LegacyRequest × RadioState)
  forwarded : List LegacyRequest
  client : List Message
deriving DecidableEq, Repr

def Legacy.start : Legacy where
  radio := ⟨none, none, none⟩
  pending := []
  asked := []
  forwarded := []
  client := []

/-- `state` is what `onStateRequest` returns. -/
inductive LegacyLabel where
  | request (kind : LegacyKind) (state : RadioState)
  | stateChanged (state : RadioState)
  | complete (r : LegacyRequest) (reply : Reply)
deriving DecidableEq, Repr

/-- `RIL_onRequestComplete`: a token that is not pending is ignored. -/
def Legacy.complete (s : Legacy) (r : LegacyRequest) (byVendor : Bool) (reply : Reply) : Legacy :=
  if r ∈ s.pending then
    { s with pending := s.pending.erase r,
             client := s.client ++ [.response r byVendor reply] }
  else s

/-- The next request. -/
def Legacy.next (s : Legacy) (kind : LegacyKind) : LegacyRequest := ⟨s.asked.length, kind⟩

/-- A request as it is linked into the list. -/
def Legacy.ask (s : Legacy) (kind : LegacyKind) (state : RadioState) : Legacy :=
  { s with pending := s.next kind :: s.pending, asked := s.asked ++ [(s.next kind, state)] }

/-- A request, from the call of its dispatch function on. -/
def Legacy.request (s : Legacy) (kind : LegacyKind) (state : RadioState) : Legacy :=
  match kind.dispatch state s.radio with
  | (.answered replies, radio) =>
      replies.foldl (fun s' reply => s'.complete (s.next kind) false reply)
        { s.ask kind state with radio := radio }
  | (.dispatched _, radio) =>
      { s.ask kind state with radio := radio, forwarded := s.forwarded ++ [s.next kind] }

/-- A notification of a new radio state. -/
def Legacy.stateChanged (s : Legacy) (state : RadioState) : Legacy :=
  let (messages, radio) := processRadioState state s.radio
  { s with radio := radio, client := s.client ++ messages }

/-- One step.  The vendor completes what it was given and has not completed. -/
def legacyStep (s : Legacy) : LegacyLabel → Option Legacy
  | .request kind state => some (s.request kind state)
  | .stateChanged state => some (s.stateChanged state)
  | .complete r reply =>
      if r ∈ s.pending then some (s.complete r true reply) else none

/-- The number that the client reads from a response. -/
def Reply.value (r : Reply) : Option Int :=
  if r.error ≠ 0 then none
  else
    match r.response with
    | none => none
    | some m => if m.ret ≠ 0 then none
        else ((takeInt32 m.written).bind (fun x => takeInt32 x.2)).map Prod.fst

/-- What a message tells the client about a kind, and whether the vendor said it. -/
def Message.gives (kind : LegacyKind) : Message → Option (Int × Bool)
  | .changed k value => if k = kind then some (value, false) else none
  | .response r byVendor reply =>
      if r.kind = kind then reply.value.map (fun v => (v, byVendor)) else none
  | _ => none

/-- The last that the client has been told about a kind. -/
def lastGiven (kind : LegacyKind) (client : List Message) : Option (Int × Bool) :=
  (client.filterMap (Message.gives kind)).getLast?

/-- The responses to a request. -/
def answersTo (r : LegacyRequest) (client : List Message) : List Message :=
  client.filter fun m =>
    match m with
    | .response r' _ _ => r' = r
    | _ => false

/-- The kinds that an old radio state says something about. -/
def LegacyKind.reported (state : RadioState) : LegacyKind → Bool
  | .voiceRadioTech => state.isOld
  | .cdmaSubscriptionSource => state.isOld && is3gpp2 (decodeVoiceRadioTechnology state)

/-- The vendor's own answer was the last to tell the client about the kind. -/
def saidByVendor (kind : LegacyKind) (client : List Message) : Bool :=
  (lastGiven kind client).any Prod.snd

/-- A request while the radio is off or unavailable finds no cached value of its
kind; and an old radio state is reported only when the client does not have its
last value of that kind from the vendor. -/
def LegacyLabel.Careful (s : Legacy) : LegacyLabel → Prop
  | .request kind state => state = .off ∨ state = .unavailable → kind.cached s.radio = none
  | .stateChanged state =>
      ∀ kind : LegacyKind, kind.reported state = true → saidByVendor kind s.client = false
  | .complete _ _ => True

instance legacyCarefulDecidable (s : Legacy) (l : LegacyLabel) : Decidable (l.Careful s) := by
  cases l with
  | request kind state =>
      exact inferInstanceAs
        (Decidable (state = .off ∨ state = .unavailable → kind.cached s.radio = none))
  | stateChanged state =>
      refine decidable_of_iff
        ((LegacyKind.voiceRadioTech.reported state = true →
            saidByVendor .voiceRadioTech s.client = false) ∧
          (LegacyKind.cdmaSubscriptionSource.reported state = true →
            saidByVendor .cdmaSubscriptionSource s.client = false)) ?_
      constructor
      · intro h kind
        cases kind with
        | voiceRadioTech => exact h.1
        | cdmaSubscriptionSource => exact h.2
      · intro h
        exact ⟨h .voiceRadioTech, h .cdmaSubscriptionSource⟩
  | complete r reply => exact isTrue trivial

/-! ## What the client knows -/

theorem lastGiven_append (kind : LegacyKind) (client : List Message) (m : Message) :
    lastGiven kind (client ++ [m]) = (m.gives kind).or (lastGiven kind client) := by
  unfold lastGiven
  rw [List.filterMap_append]
  cases h : m.gives kind with
  | none => simp [h]
  | some x => simp [h]

/-- No notification repeats what the client knows. -/
def NoRepeat (client : List Message) : Prop :=
  ∀ earlier later kind value, client = earlier ++ .changed kind value :: later →
    (lastGiven kind earlier).map Prod.fst ≠ some value

theorem noRepeat_append {client : List Message} {m : Message} (h : NoRepeat client)
    (hm : ∀ kind value, m = .changed kind value →
      (lastGiven kind client).map Prod.fst ≠ some value) : NoRepeat (client ++ [m]) := by
  intro earlier later kind value heq
  rcases List.eq_nil_or_concat later with rfl | ⟨later, x, rfl⟩
  · obtain ⟨rfl, hlast⟩ := List.append_inj' heq rfl
    exact hm kind value (List.cons.inj hlast).1
  · rw [List.concat_eq_append, ← List.cons_append, ← List.append_assoc] at heq
    exact h earlier later kind value (List.append_inj' heq rfl).1

/-- What the daemon told the client last is what it has cached. -/
structure Honest (client : List Message) (radio : RadioVars) : Prop where
  noRepeat : NoRepeat client
  mirrored : ∀ kind v, lastGiven kind client = some (v, false) → kind.cached radio = some v

/-- A message that tells nothing and changes nothing. -/
theorem Honest.aside {client : List Message} {radio radio' : RadioVars} (h : Honest client radio)
    {m : Message} (hm : ∀ kind, m.gives kind = none)
    (hradio : ∀ kind : LegacyKind, kind.cached radio' = kind.cached radio) :
    Honest (client ++ [m]) radio' := by
  constructor
  · apply noRepeat_append h.noRepeat
    rintro kind value rfl
    have := hm kind
    simp [Message.gives] at this
  · intro kind v hv
    rw [lastGiven_append, hm kind] at hv
    rw [hradio]
    exact h.mirrored kind v hv

/-- The daemon tells the client a value that it caches. -/
theorem Honest.tell {client : List Message} {radio radio' : RadioVars} (h : Honest client radio)
    {m : Message} {kind : LegacyKind} {v : Int} (hgives : m.gives kind = some (v, false))
    (hother : ∀ k, k ≠ kind → m.gives k = none) (hcached : kind.cached radio' = some v)
    (hradio : ∀ k : LegacyKind, k ≠ kind → k.cached radio' = k.cached radio)
    (hm : ∀ value, m = .changed kind value →
      (lastGiven kind client).map Prod.fst ≠ some value) :
    Honest (client ++ [m]) radio' := by
  constructor
  · apply noRepeat_append h.noRepeat
    intro k value hk
    by_cases hkind : k = kind
    · subst hkind
      exact hm value hk
    · have := hother k hkind
      simp [hk, Message.gives] at this
  · intro k w hw
    rw [lastGiven_append] at hw
    by_cases hkind : k = kind
    · subst hkind
      rw [hgives, Option.some_or, Option.some.injEq, Prod.mk.injEq] at hw
      rw [hcached, hw.1]
    · rw [hother k hkind, Option.none_or] at hw
      rw [hradio k hkind]
      exact h.mirrored k w hw

/-- A notification of a value that is not the cached one is news. -/
theorem Honest.news {client : List Message} {radio : RadioVars} (h : Honest client radio)
    {kind : LegacyKind} (hvendor : saidByVendor kind client = false) {v : Int}
    (hne : kind.cached radio ≠ some v) : (lastGiven kind client).map Prod.fst ≠ some v := by
  intro hv
  obtain ⟨⟨w, byVendor⟩, hw, rfl⟩ := Option.map_eq_some_iff.mp hv
  cases byVendor with
  | true => simp [saidByVendor, hw] at hvendor
  | false => exact hne (h.mirrored kind w hw)

/-! ## State changes -/

theorem decodeVoiceRadioTechnology_old {state : RadioState} (h : state.isOld = true) :
    ∃ tech, decodeVoiceRadioTechnology state = some tech := by
  cases state <;> simp [RadioState.isOld, decodeVoiceRadioTechnology] at h ⊢

theorem decodeCdmaSubscriptionSource_old {state : RadioState} (h : state.isOld = true) :
    ∃ source, decodeCdmaSubscriptionSource state = some source := by
  cases state <;> simp [RadioState.isOld, decodeCdmaSubscriptionSource] at h ⊢

theorem RadioTech.value_inj {a b : RadioTech} (h : a.value = b.value) : a = b := by
  cases a <;> cases b <;> first | rfl | cases h

theorem CdmaSubscriptionSource.value_inj {a b : CdmaSubscriptionSource}
    (h : a.value = b.value) : a = b := by
  cases a <;> cases b <;> first | rfl | cases h

theorem cached_voice_ne {radio : RadioVars} {tech : RadioTech}
    (h : some tech ≠ radio.voiceRadioTech) :
    LegacyKind.voiceRadioTech.cached radio ≠ some tech.value := by
  intro heq
  obtain ⟨t, ht, hvalue⟩ := Option.map_eq_some_iff.mp heq
  rw [ht, RadioTech.value_inj hvalue] at h
  exact h rfl

theorem cached_cdma_ne {radio : RadioVars} {source : CdmaSubscriptionSource}
    (h : some source ≠ radio.cdmaSubscriptionSource) :
    LegacyKind.cdmaSubscriptionSource.cached radio ≠ some source.value := by
  intro heq
  obtain ⟨t, ht, hvalue⟩ := Option.map_eq_some_iff.mp heq
  rw [ht, CdmaSubscriptionSource.value_inj hvalue] at h
  exact h rfl

theorem Honest.voice {client : List Message} {radio : RadioVars} {state : RadioState}
    (h : Honest client radio) (hold : state.isOld = true)
    (hvendor : saidByVendor .voiceRadioTech client = false) :
    Honest (client ++ (reportVoiceRadioTech state radio).1) (reportVoiceRadioTech state radio).2 := by
  obtain ⟨tech, htech⟩ := decodeVoiceRadioTechnology_old hold
  by_cases hnew : some tech ≠ radio.voiceRadioTech
  · simp only [reportVoiceRadioTech, htech, if_pos hnew]
    have hgives : Message.gives .voiceRadioTech (.changed .voiceRadioTech tech.value) =
        some (tech.value, false) := rfl
    apply h.tell hgives
    · intro k hk
      simp [Message.gives, Ne.symm hk]
    · rfl
    · intro k hk
      cases k with
      | voiceRadioTech => exact absurd rfl hk
      | cdmaSubscriptionSource => rfl
    · rintro value heq
      obtain ⟨-, rfl⟩ := Message.changed.inj heq
      exact h.news hvendor (cached_voice_ne hnew)
  · simp only [reportVoiceRadioTech, htech, if_neg hnew, List.append_nil]
    exact h

theorem Honest.cdma {client : List Message} {radio : RadioVars} {state : RadioState}
    (h : Honest client radio) (hold : state.isOld = true)
    (hvendor : is3gpp2 (decodeVoiceRadioTechnology state) = true →
      saidByVendor .cdmaSubscriptionSource client = false) :
    Honest (client ++ (reportCdmaSubscriptionSource state radio).1)
      (reportCdmaSubscriptionSource state radio).2 := by
  obtain ⟨source, hsource⟩ := decodeCdmaSubscriptionSource_old hold
  by_cases hnew : is3gpp2 (decodeVoiceRadioTechnology state) = true ∧
      some source ≠ radio.cdmaSubscriptionSource
  · simp only [reportCdmaSubscriptionSource, hsource, if_pos hnew]
    have hgives : Message.gives .cdmaSubscriptionSource
        (.changed .cdmaSubscriptionSource source.value) = some (source.value, false) := rfl
    apply h.tell hgives
    · intro k hk
      simp [Message.gives, Ne.symm hk]
    · rfl
    · intro k hk
      cases k with
      | voiceRadioTech => rfl
      | cdmaSubscriptionSource => exact absurd rfl hk
    · rintro value heq
      obtain ⟨-, rfl⟩ := Message.changed.inj heq
      exact h.news (hvendor hnew.1) (cached_cdma_ne hnew.2)
  · simp only [reportCdmaSubscriptionSource, hsource, if_neg hnew, List.append_nil]
    exact h

theorem Honest.simStatus {client : List Message} {radio : RadioVars}
    (h : Honest client radio) (state : RadioState) :
    Honest (client ++ (reportSimStatus state radio).1) (reportSimStatus state radio).2 := by
  by_cases hnew : decodeSimStatus state ≠ radio.simRuimStatus
  · simp only [reportSimStatus, if_pos hnew]
    apply h.aside
    · intro k
      rfl
    · intro k
      cases k <;> rfl
  · simp only [reportSimStatus, if_neg hnew, List.append_nil]
    exact h

/-- The report on the technology leaves the other kind alone. -/
theorem saidByVendor_voice (client : List Message) (state : RadioState) (radio : RadioVars) :
    saidByVendor .cdmaSubscriptionSource (client ++ (reportVoiceRadioTech state radio).1) =
      saidByVendor .cdmaSubscriptionSource client := by
  by_cases hnew : decodeVoiceRadioTechnology state ≠ radio.voiceRadioTech
  · simp only [reportVoiceRadioTech, if_pos hnew, saidByVendor, lastGiven_append]
    rfl
  · simp only [reportVoiceRadioTech, if_neg hnew, List.append_nil]

theorem Honest.stateChanged {s : Legacy} {state : RadioState} (h : Honest s.client s.radio)
    (hcareful : LegacyLabel.Careful s (.stateChanged state)) :
    Honest (s.stateChanged state).client (s.stateChanged state).radio := by
  unfold Legacy.stateChanged processRadioState
  cases hold : state.isOld with
  | false => exact h.aside (fun _ => rfl) (fun _ => rfl)
  | true =>
      have hvoice := h.voice hold (hcareful .voiceRadioTech hold)
      have hcdma := hvoice.cdma hold (by
        intro h3gpp2
        rw [saidByVendor_voice]
        apply hcareful .cdmaSubscriptionSource
        simp [LegacyKind.reported, hold, h3gpp2])
      have hsim := hcdma.simStatus state
      have hall := hsim.aside (m := .radioStateChanged .on) (fun _ => rfl) (fun _ => rfl)
      simpa [List.append_assoc] using hall

/-! ## Requests -/

/-- The cache after a request that is not forwarded. -/
def LegacyKind.write (state : RadioState) (radio : RadioVars) : LegacyKind → RadioVars
  | .voiceRadioTech => { radio with voiceRadioTech := decodeVoiceRadioTechnology state }
  | .cdmaSubscriptionSource =>
      { radio with cdmaSubscriptionSource := decodeCdmaSubscriptionSource state }

theorem cached_write (kind : LegacyKind) (state : RadioState) (radio : RadioVars) :
    kind.cached (kind.write state radio) = kind.decode state := by
  cases kind <;> rfl

theorem cached_write_other {kind k : LegacyKind} (hk : k ≠ kind) (state : RadioState)
    (radio : RadioVars) : k.cached (kind.write state radio) = k.cached radio := by
  cases kind <;> cases k <;> first | rfl | exact absurd rfl hk

/-- A value that is not cached cannot be overwritten with none. -/
theorem write_unchanged {kind : LegacyKind} {state : RadioState} {radio : RadioVars}
    (hnone : kind.cached radio = none) (hdecode : kind.decode state = none) :
    kind.write state radio = radio := by
  cases kind with
  | voiceRadioTech =>
      have hold := Option.map_eq_none_iff.mp hnone
      have hnew := Option.map_eq_none_iff.mp hdecode
      simp only [LegacyKind.write, hnew, ← hold]
  | cdmaSubscriptionSource =>
      have hold := Option.map_eq_none_iff.mp hnone
      have hnew := Option.map_eq_none_iff.mp hdecode
      simp only [LegacyKind.write, hnew, ← hold]

theorem dispatch_on (kind : LegacyKind) (radio : RadioVars) :
    kind.dispatch .on radio = (.dispatched dispatchVoid, radio) := by
  cases kind <;> rfl

theorem dispatch_old {state : RadioState} (h : state ≠ .on) (kind : LegacyKind)
    (radio : RadioVars) :
    kind.dispatch state radio =
      (.answered (oldAnswers state (kind.decode state)), kind.write state radio) := by
  cases kind with
  | voiceRadioTech => simp [LegacyKind.dispatch, dispatchVoiceRadioTech, h, LegacyKind.decode,
      LegacyKind.write]
  | cdmaSubscriptionSource => simp [LegacyKind.dispatch, dispatchCdmaSubscriptionSource, h,
      LegacyKind.decode, LegacyKind.write]

/-- The radio is off or unavailable. -/
def RadioState.isDown (state : RadioState) : Prop := state = .off ∨ state = .unavailable

theorem decode_down {state : RadioState} (h : state.isDown) (kind : LegacyKind) :
    kind.decode state = none := by
  rcases h with rfl | rfl <;> cases kind <;> rfl

/-- Every other state but `RADIO_STATE_ON` stands for a value. -/
theorem decode_old {state : RadioState} (h : ¬state.isDown) (hon : state ≠ .on)
    (kind : LegacyKind) :
    ∃ v, kind.decode state = some v ∧ -2147483648 ≤ v ∧ v < 2147483648 := by
  unfold RadioState.isDown at h
  cases state <;> cases kind <;>
    simp_all [LegacyKind.decode, decodeVoiceRadioTechnology, decodeCdmaSubscriptionSource,
      RadioTech.value, CdmaSubscriptionSource.value]

/-- The reply that the client gets for a request that is not forwarded. -/
def LegacyKind.answer (state : RadioState) (kind : LegacyKind) : Reply :=
  match kind.decode state with
  | some v => ⟨0, some (responseInts [v])⟩
  | none => ⟨1, none⟩

theorem oldAnswers_eq {state : RadioState} (hon : state ≠ .on) (kind : LegacyKind) :
    ∃ more, oldAnswers state (kind.decode state) = kind.answer state :: more := by
  by_cases hdown : state.isDown
  · refine ⟨[⟨2, none⟩], ?_⟩
    have hdown' : state = .unavailable ∨ state = .off := hdown.symm
    simp [oldAnswers, LegacyKind.answer, decode_down hdown, hdown']
  · obtain ⟨v, hv, -⟩ := decode_old hdown hon kind
    have hdown' : ¬(state = .unavailable ∨ state = .off) := fun h => hdown h.symm
    refine ⟨[], ?_⟩
    simp [oldAnswers, LegacyKind.answer, hv, hdown']

theorem complete_absent {s : Legacy} {r : LegacyRequest} (h : r ∉ s.pending) (byVendor : Bool)
    (reply : Reply) : s.complete r byVendor reply = s := by
  rw [Legacy.complete, if_neg h]

theorem foldl_complete_absent {s : Legacy} {r : LegacyRequest} (h : r ∉ s.pending)
    (replies : List Reply) :
    replies.foldl (fun s' reply => s'.complete r false reply) s = s := by
  induction replies with
  | nil => rfl
  | cons reply replies ih => rw [List.foldl_cons, complete_absent h, ih]

/-- Of the answers that the dispatch function gives only the first one counts. -/
theorem request_old {s : Legacy} {kind : LegacyKind} {state : RadioState}
    (hfresh : s.next kind ∉ s.pending) (hon : state ≠ .on) :
    s.request kind state =
      { s with radio := kind.write state s.radio,
               asked := s.asked ++ [(s.next kind, state)],
               client := s.client ++ [.response (s.next kind) false (kind.answer state)] } := by
  obtain ⟨more, hmore⟩ := oldAnswers_eq hon kind
  unfold Legacy.request
  rw [dispatch_old hon, hmore]
  dsimp only
  rw [List.foldl_cons]
  have hfirst : Legacy.complete { s.ask kind state with radio := kind.write state s.radio }
      (s.next kind) false (kind.answer state) =
      { s with radio := kind.write state s.radio,
               asked := s.asked ++ [(s.next kind, state)],
               client := s.client ++ [.response (s.next kind) false (kind.answer state)] } := by
    simp [Legacy.complete, Legacy.ask]
  rw [hfirst, foldl_complete_absent]
  exact hfresh

theorem request_on (s : Legacy) (kind : LegacyKind) :
    s.request kind .on =
      { s.ask kind .on with forwarded := s.forwarded ++ [s.next kind] } := by
  unfold Legacy.request
  rw [dispatch_on]
  rfl

theorem value_answer_down {state : RadioState} (h : state.isDown) (kind : LegacyKind) :
    (kind.answer state).value = none := by
  simp [LegacyKind.answer, decode_down h, Reply.value]

theorem value_answer_old {state : RadioState} {kind : LegacyKind} {v : Int}
    (hv : kind.decode state = some v) (hlow : -2147483648 ≤ v) (hhigh : v < 2147483648) :
    (kind.answer state).value = some v := by
  have hcount : takeInt32 (encodeInt32 1 ++ encodeInt32 v) = some (1, encodeInt32 v) :=
    takeInt32_encodeInt32 (by decide) (by decide) _
  have hvalue : takeInt32 (encodeInt32 v) = some (v, []) := by
    have h := takeInt32_encodeInt32 hlow hhigh []
    rwa [List.append_nil] at h
  simp [LegacyKind.answer, hv, Reply.value, responseInts, hcount, hvalue]

theorem Honest.request {s : Legacy} {kind : LegacyKind} {state : RadioState}
    (h : Honest s.client s.radio) (hfresh : s.next kind ∉ s.pending)
    (hcareful : LegacyLabel.Careful s (.request kind state)) :
    Honest (s.request kind state).client (s.request kind state).radio := by
  by_cases hon : state = .on
  · subst hon
    rw [request_on]
    exact h
  · rw [request_old hfresh hon]
    by_cases hdown : state.isDown
    · have hradio := write_unchanged (hcareful hdown) (decode_down hdown kind)
      apply h.aside
      · intro k
        simp [Message.gives, value_answer_down hdown]
      · intro k
        simp only [hradio]
    · obtain ⟨v, hv, hlow, hhigh⟩ := decode_old hdown hon kind
      have hgives : Message.gives kind (.response (s.next kind) false (kind.answer state)) =
          some (v, false) := by
        simp [Message.gives, Legacy.next, value_answer_old hv hlow hhigh]
      apply h.tell hgives
      · intro k hk
        simp [Message.gives, Legacy.next, Ne.symm hk]
      · show kind.cached (kind.write state s.radio) = some v
        rw [cached_write, hv]
      · intro k hk
        exact cached_write_other hk state s.radio
      · intro value heq
        cases heq

theorem Honest.complete {s : Legacy} (h : Honest s.client s.radio) (r : LegacyRequest)
    (reply : Reply) :
    Honest (s.complete r true reply).client (s.complete r true reply).radio := by
  unfold Legacy.complete
  split
  · constructor
    · apply noRepeat_append h.noRepeat
      intro kind value heq
      cases heq
    · intro kind v hv
      rw [lastGiven_append] at hv
      apply h.mirrored kind v
      -- the vendor's answer is marked as such, so it is not what `hv` speaks of
      by_cases hkind : r.kind = kind
      · cases hvalue : reply.value with
        | none => simpa [Message.gives, hkind, hvalue] using hv
        | some w => simp [Message.gives, hkind, hvalue] at hv
      · simpa [Message.gives, hkind] using hv
  · exact h

/-! ## One answer for each request -/

/-- A message that is not a response to `r`. -/
def Message.AsideOf (r : LegacyRequest) (m : Message) : Prop :=
  ∀ byVendor reply, m ≠ .response r byVendor reply

theorem answersTo_append_other {r : LegacyRequest} {m : Message} (h : m.AsideOf r)
    (client : List Message) : answersTo r (client ++ [m]) = answersTo r client := by
  unfold answersTo
  rw [List.filter_append]
  cases m with
  | response r' byVendor reply =>
      have hne : r' ≠ r := by
        rintro rfl
        exact h byVendor reply rfl
      simp [hne]
  | changed => simp
  | simStatusChanged => simp
  | radioStateChanged => simp

theorem answersTo_append_self (r : LegacyRequest) (byVendor : Bool) (reply : Reply)
    (client : List Message) :
    answersTo r (client ++ [.response r byVendor reply]) =
      answersTo r client ++ [.response r byVendor reply] := by
  simp [answersTo, List.filter_append]

theorem answersTo_append {r : LegacyRequest} {messages : List Message}
    (h : ∀ m ∈ messages, m.AsideOf r) (client : List Message) :
    answersTo r (client ++ messages) = answersTo r client := by
  induction messages generalizing client with
  | nil => rw [List.append_nil]
  | cons m messages ih =>
      rw [List.append_cons, ih (fun m' hm' => h m' (List.mem_cons_of_mem m hm')),
        answersTo_append_other (h m List.mem_cons_self)]

/-- A request in `RADIO_STATE_ON` is forwarded once and answered by the vendor at
most once.  Any other is answered once, by the daemon. -/
def Handled (s : Legacy) (r : LegacyRequest) (state : RadioState) : Prop :=
  if state = .on then
    s.forwarded.count r = 1 ∧ (answersTo r s.client).length + s.pending.count r = 1 ∧
      ∀ m ∈ answersTo r s.client, ∃ reply, m = .response r true reply
  else
    s.forwarded.count r = 0 ∧ s.pending.count r = 0 ∧
      ∃ reply, answersTo r s.client = [.response r false reply]

/-- Nothing is known of a request that has not been made. -/
structure Accounted (s : Legacy) : Prop where
  numbered : ∀ p ∈ s.asked, p.1.number < s.asked.length
  fresh : ∀ r : LegacyRequest, s.asked.length ≤ r.number →
    s.forwarded.count r = 0 ∧ s.pending.count r = 0 ∧ answersTo r s.client = []
  handled : ∀ r state, (r, state) ∈ s.asked → Handled s r state

theorem Accounted.next_absent {s : Legacy} (h : Accounted s) (kind : LegacyKind) :
    s.next kind ∉ s.pending := by
  have hcount := (h.fresh (s.next kind) (Nat.le_refl _)).2.1
  exact List.count_eq_zero.mp hcount

/-- A step that touches no request. -/
theorem Accounted.aside {s : Legacy} (h : Accounted s) {messages : List Message}
    (hmessages : ∀ r, ∀ m ∈ messages, m.AsideOf r) (radio : RadioVars) :
    Accounted { s with radio := radio, client := s.client ++ messages } := by
  constructor
  · exact h.numbered
  · intro r hr
    rw [answersTo_append (hmessages r)]
    exact h.fresh r hr
  · intro r state hr
    unfold Handled
    rw [answersTo_append (hmessages r)]
    exact h.handled r state hr

/-- The reports are no responses. -/
theorem report_aside (state : RadioState) (radio : RadioVars) (r : LegacyRequest) {m : Message}
    (hm : m ∈ (reportVoiceRadioTech state radio).1 ∨
      m ∈ (reportCdmaSubscriptionSource state radio).1 ∨ m ∈ (reportSimStatus state radio).1) :
    m.AsideOf r := by
  rintro byVendor reply rfl
  rcases hm with hm | hm | hm
  · unfold reportVoiceRadioTech at hm
    dsimp only at hm
    split at hm <;> simp at hm
  · unfold reportCdmaSubscriptionSource at hm
    dsimp only at hm
    split at hm <;> simp at hm
  · unfold reportSimStatus at hm
    dsimp only at hm
    split at hm <;> simp at hm

theorem processRadioState_aside (state : RadioState) (radio : RadioVars) (r : LegacyRequest) :
    ∀ m ∈ (processRadioState state radio).1, m.AsideOf r := by
  intro m hm
  have hlast : ∀ new, (Message.radioStateChanged new).AsideOf r := by
    rintro new byVendor reply heq
    cases heq
  unfold processRadioState at hm
  split at hm
  · simp only [List.mem_append, List.mem_singleton] at hm
    rcases hm with ((hm | hm) | hm) | rfl
    · exact report_aside _ _ r (.inl hm)
    · exact report_aside _ _ r (.inr (.inl hm))
    · exact report_aside _ _ r (.inr (.inr hm))
    · exact hlast .on
  · rw [List.mem_singleton.mp hm]
    exact hlast state

theorem Accounted.stateChanged {s : Legacy} (h : Accounted s) (state : RadioState) :
    Accounted (s.stateChanged state) :=
  h.aside (processRadioState_aside state s.radio) _

/-- A new request leaves the older ones as they are. -/
theorem Accounted.extend {s s' : Legacy} (h : Accounted s) (kind : LegacyKind)
    (state : RadioState) (hasked : s'.asked = s.asked ++ [(s.next kind, state)])
    (hother : ∀ r, r ≠ s.next kind → s'.forwarded.count r = s.forwarded.count r ∧
      s'.pending.count r = s.pending.count r ∧ answersTo r s'.client = answersTo r s.client)
    (hnew : Handled s' (s.next kind) state) : Accounted s' := by
  have hnumber : ∀ r : LegacyRequest, r.number ≠ s.asked.length → r ≠ s.next kind := by
    rintro r hr rfl
    exact hr rfl
  constructor
  · intro p hp
    rw [hasked, List.length_append, List.length_singleton]
    rw [hasked] at hp
    rcases List.mem_append.mp hp with hp | hp
    · exact Nat.lt_succ_of_lt (h.numbered p hp)
    · rw [List.mem_singleton.mp hp]
      exact Nat.lt_succ_self _
  · intro r hr
    rw [hasked, List.length_append, List.length_singleton] at hr
    obtain ⟨hf, hp, ha⟩ := hother r (hnumber r (by omega))
    rw [hf, hp, ha]
    exact h.fresh r (by omega)
  · intro r st hr
    rw [hasked] at hr
    rcases List.mem_append.mp hr with hr | hr
    · obtain ⟨hf, hp, ha⟩ := hother r (hnumber r (Nat.ne_of_lt (h.numbered _ hr)))
      unfold Handled
      rw [hf, hp, ha]
      exact h.handled r st hr
    · obtain ⟨rfl, rfl⟩ := Prod.mk.inj (List.mem_singleton.mp hr)
      exact hnew

theorem Accounted.request {s : Legacy} (h : Accounted s) (kind : LegacyKind)
    (state : RadioState) : Accounted (s.request kind state) := by
  obtain ⟨hforwarded, hpending, hanswers⟩ := h.fresh (s.next kind) (Nat.le_refl _)
  by_cases hon : state = .on
  · subst hon
    rw [request_on]
    apply h.extend kind .on rfl
    · intro r hr
      refine ⟨?_, ?_, rfl⟩
      · simp [List.count_append, Ne.symm hr]
      · simp [Legacy.ask, Ne.symm hr]
    · unfold Handled
      rw [if_pos rfl]
      refine ⟨?_, ?_, ?_⟩
      · simp [List.count_append, hforwarded]
      · simp [Legacy.ask, hanswers, hpending]
      · simp [Legacy.ask, hanswers]
  · rw [request_old (h.next_absent kind) hon]
    apply h.extend kind state rfl
    · intro r hr
      refine ⟨rfl, rfl, ?_⟩
      apply answersTo_append_other
      intro byVendor reply heq
      exact hr (Message.response.inj heq).1.symm
    · unfold Handled
      rw [if_neg hon]
      refine ⟨hforwarded, hpending, kind.answer state, ?_⟩
      rw [answersTo_append_self, hanswers, List.nil_append]

theorem Accounted.complete {s : Legacy} (h : Accounted s) {r : LegacyRequest}
    (hr : r ∈ s.pending) (reply : Reply) : Accounted (s.complete r true reply) := by
  have hpos : 0 < s.pending.count r := List.count_pos_iff.mpr hr
  have hother : ∀ r', r' ≠ r →
      answersTo r' (s.client ++ [.response r true reply]) = answersTo r' s.client := by
    intro r' hne
    apply answersTo_append_other
    intro byVendor reply' heq
    exact hne (Message.response.inj heq).1.symm
  unfold Legacy.complete
  rw [if_pos hr]
  constructor
  · exact h.numbered
  · intro r' hr'
    have hold := h.fresh r' hr'
    have hne : r' ≠ r := by
      rintro rfl
      omega
    simp only [hother r' hne, List.count_erase_of_ne hne]
    exact hold
  · intro r' state hr'
    have hold := h.handled r' state hr'
    unfold Handled at hold ⊢
    by_cases hne : r' = r
    · subst hne
      by_cases hon : state = .on
      · simp only [if_pos hon] at hold ⊢
        obtain ⟨hforwarded, hcount, hvendor⟩ := hold
        have hnone : answersTo r' s.client = [] := by
          apply List.eq_nil_of_length_eq_zero
          omega
        refine ⟨hforwarded, ?_, ?_⟩
        · rw [answersTo_append_self, hnone, List.count_erase_self]
          simp only [List.nil_append, List.length_singleton]
          omega
        · intro m hm
          rw [answersTo_append_self, hnone, List.nil_append] at hm
          exact ⟨reply, List.mem_singleton.mp hm⟩
      · simp only [if_neg hon] at hold
        omega
    · simp only [hother r' hne, List.count_erase_of_ne hne]
      exact hold

/-! ## Whole runs -/

theorem legacyStep_accounted {s s' : Legacy} {l : LegacyLabel} (h : Accounted s)
    (hstep : legacyStep s l = some s') : Accounted s' := by
  cases l with
  | request kind state =>
      obtain rfl := Option.some.inj hstep
      exact h.request kind state
  | stateChanged state =>
      obtain rfl := Option.some.inj hstep
      exact h.stateChanged state
  | complete r reply =>
      simp only [legacyStep] at hstep
      split at hstep
      · rename_i hr
        obtain rfl := Option.some.inj hstep
        exact h.complete hr reply
      · cases hstep

theorem legacyStep_honest {s s' : Legacy} {l : LegacyLabel} (haccounted : Accounted s)
    (h : Honest s.client s.radio) (hcareful : l.Careful s) (hstep : legacyStep s l = some s') :
    Honest s'.client s'.radio := by
  cases l with
  | request kind state =>
      obtain rfl := Option.some.inj hstep
      exact h.request (haccounted.next_absent kind) hcareful
  | stateChanged state =>
      obtain rfl := Option.some.inj hstep
      exact h.stateChanged hcareful
  | complete r reply =>
      simp only [legacyStep] at hstep
      split at hstep
      · obtain rfl := Option.some.inj hstep
        exact h.complete r reply
      · cases hstep

theorem accounted_start : Accounted Legacy.start where
  numbered := by simp [Legacy.start]
  fresh := by simp [Legacy.start, answersTo]
  handled := by simp [Legacy.start]

theorem honest_start : Honest Legacy.start.client Legacy.start.radio where
  noRepeat := by
    intro earlier later kind value heq
    simp [Legacy.start] at heq
  mirrored := by
    intro kind v hv
    simp [Legacy.start, lastGiven] at hv

theorem run_accounted {labels : List LegacyLabel} {s : Legacy}
    (hrun : exec legacyStep Legacy.start labels = some s) : Accounted s :=
  exec_invariant (fun _ _ _ hs _ hstep => legacyStep_accounted hs hstep) accounted_start
    (along_true legacyStep Legacy.start labels) hrun

theorem run_honest {labels : List LegacyLabel} {s : Legacy}
    (hcareful : Along legacyStep (fun s l => l.Careful s) Legacy.start labels)
    (hrun : exec legacyStep Legacy.start labels = some s) : Honest s.client s.radio :=
  (@exec_invariant _ _ legacyStep _ (fun s => Accounted s ∧ Honest s.client s.radio)
    (fun _ _ _ hs hok hstep =>
      ⟨legacyStep_accounted hs.1 hstep, legacyStep_honest hs.1 hs.2 hok hstep⟩)
    _ _ labels ⟨accounted_start, honest_start⟩ hcareful hrun).2

/-- **Reports for an old vendor RIL.**  In every run each request is answered
exactly once, or forwarded once in `RADIO_STATE_ON`.  In a run of careful steps a
request that finds the radio off or unavailable is answered so and leaves the
caches alone, and no notification repeats the last value that the client has. -/
theorem legacy_radio_reported {labels : List LegacyLabel} {s : Legacy}
    (hrun : exec legacyStep Legacy.start labels = some s) :
    (∀ r state, (r, state) ∈ s.asked → Handled s r state) ∧
    (Along legacyStep (fun s l => l.Careful s) Legacy.start labels →
      (∀ kind state, state.isDown → LegacyLabel.Careful s (.request kind state) →
        (s.request kind state).radio = s.radio ∧
          (s.request kind state).client =
            s.client ++ [.response (s.next kind) false ⟨1, none⟩]) ∧
      NoRepeat s.client) := by
  have haccounted := run_accounted hrun
  refine ⟨haccounted.handled, ?_⟩
  intro hcareful
  refine ⟨?_, (run_honest hcareful hrun).noRepeat⟩
  intro kind state hdown hnone
  have hon : state ≠ .on := by
    rintro rfl
    rcases hdown with h | h <;> cases h
  rw [request_old (haccounted.next_absent kind) hon]
  refine ⟨write_unchanged (hnone hdown) (decode_down hdown kind), ?_⟩
  simp only [LegacyKind.answer, decode_down hdown]

/-- The radio comes up, first with a SIM and then with a RUIM, and is asked about
its technology before, between and after. -/
def comesUp : List LegacyLabel :=
  [.request .voiceRadioTech .off, .stateChanged .simNotReady, .stateChanged .simReady,
    .request .voiceRadioTech .simReady, .stateChanged .ruimReady,
    .request .cdmaSubscriptionSource .ruimReady]

theorem legacy_radio_reported_comesUp :
    ∃ s, exec legacyStep Legacy.start comesUp = some s ∧
      Handled s ⟨0, .voiceRadioTech⟩ .off ∧ NoRepeat s.client ∧
      lastGiven .voiceRadioTech s.client = some (6, false) := by
  obtain ⟨s, hrun, hasked, hlast⟩ : ∃ s, exec legacyStep Legacy.start comesUp = some s ∧
      (⟨0, .voiceRadioTech⟩, .off) ∈ s.asked ∧
        lastGiven .voiceRadioTech s.client = some (6, false) := by
    refine ⟨_, rfl, ?_, ?_⟩ <;> decide +kernel
  have hcareful : Along legacyStep (fun s l => l.Careful s) Legacy.start comesUp := by
    decide +kernel
  obtain ⟨hhandled, hreported⟩ := legacy_radio_reported hrun
  exact ⟨s, hrun, hhandled _ _ hasked, (hreported hcareful).2, hlast⟩

/-- A request while the radio is off wipes out the cached technology, and the next
state change tells the client again what it knows. -/
theorem cache_wiped_and_repeated :
    (¬∀ labels s, exec legacyStep Legacy.start labels = some s → ∀ kind state, state.isDown →
      (s.request kind state).radio = s.radio) ∧
    ¬∀ labels s, exec legacyStep Legacy.start labels = some s → NoRepeat s.client := by
  constructor
  · intro hall
    have h := hall [.stateChanged .simReady] _ rfl .voiceRadioTech .off (.inl rfl)
    revert h
    decide
  · intro hall
    have h := hall [.stateChanged .simReady, .request .voiceRadioTech .off,
      .stateChanged .simReady] _ rfl
    apply h [.changed .voiceRadioTech 3, .simStatusChanged, .radioStateChanged .on,
      .response ⟨0, .voiceRadioTech⟩ false ⟨1, none⟩] [.radioStateChanged .on] .voiceRadioTech 3
    · decide
    · decide

end Libril
