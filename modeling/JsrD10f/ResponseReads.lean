import JsrD10f.VendorMemory

/-!
# Reads of the response functions

Four response functions trust the buffer more than its length allows.
`responseSimStatus` checks the length but not the number of applications in it.
`responseGetDataCallProfile` bounds the number of profiles by the length, but by the
whole length and not by what is behind the count.  `responseCdmaCallWaiting` and
`responseSimRefresh` look at a structure without a check of the length, and all of
them but the first follow a null pointer whose length is zero.

Each function is modelled over the bytes with its accesses.  `responses_inside_iff`
says for which pointers, lengths and contents all of them stay inside the buffer.
-/

namespace Libril.ResponseReads

open Parcel Responses VendorMemory

/-! ## Layouts -/

/-- `RIL_AppStatus`. -/
structure AppLayout where
  size : Nat
  appType : Nat
  appState : Nat
  persoSubstate : Nat
  aidPtr : Nat
  appLabelPtr : Nat
  pin1Replaced : Nat
  pin1 : Nat
  pin2 : Nat
  fields_inside : ∀ off ∈ [appType, appState, persoSubstate, aidPtr, appLabelPtr, pin1Replaced,
    pin1, pin2], off + 4 ≤ size

/-- `RIL_CardStatus_v5` and `RIL_CardStatus_v6`, which end with an array of
applications.  The old one has no `ims_subscription_app_index`. -/
structure CardLayout (app : AppLayout) (maxApps : Nat) where
  size : Nat
  cardState : Nat
  universalPinState : Nat
  gsmUmtsSubscriptionAppIndex : Nat
  cdmaSubscriptionAppIndex : Nat
  imsSubscriptionAppIndex : Option Nat
  numApplications : Nat
  applications : Nat
  fields_inside : ∀ off ∈ [cardState, universalPinState, gsmUmtsSubscriptionAppIndex,
    cdmaSubscriptionAppIndex, numApplications], off + 4 ≤ size
  ims_inside : ∀ off ∈ imsSubscriptionAppIndex, off + 4 ≤ size
  applications_end : applications + maxApps * app.size = size

/-- `RIL_DataCallProfileInfo`. -/
structure ProfileLayout where
  size : Nat
  profileId : Nat
  priority : Nat
  profileId_inside : profileId + 4 ≤ size
  priority_end : priority + 4 = size

/-- `RIL_CDMA_CallWaiting_v6`, the fields of `RIL_CDMA_CallWaiting_v5` first. -/
structure CallWaitingLayout where
  sizeV5 : Nat
  sizeV6 : Nat
  number : Nat
  numberPresentation : Nat
  name : Nat
  isPresent : Nat
  signalType : Nat
  alertPitch : Nat
  signal : Nat
  numberType : Nat
  numberPlan : Nat
  sizes : sizeV5 ≤ sizeV6
  fields_inside : ∀ off ∈ [number, numberPresentation, name], off + 4 ≤ sizeV5
  chars_inside : ∀ off ∈ [isPresent, signalType, alertPitch], off + 1 ≤ sizeV5
  signal_end : signal + 1 = sizeV5
  later_inside : ∀ off ∈ [numberType, numberPlan], off + 4 ≤ sizeV6

/-- `RIL_SimRefreshResponse_v7`. -/
structure SimRefreshLayout where
  size : Nat
  result : Nat
  efId : Nat
  aid : Nat
  fields_inside : ∀ off ∈ [result, efId], off + 4 ≤ size
  aid_end : aid + 4 = size

/-- The structures of `ril.h` that the four functions look at, and `RIL_CARD_MAX_APPS`. -/
structure Layouts where
  app : AppLayout
  maxApps : Nat
  cardV6 : CardLayout app maxApps
  cardV5 : CardLayout app maxApps
  profile : ProfileLayout
  callWaiting : CallWaitingLayout
  simRefresh : SimRefreshLayout

/-! ## The functions -/

variable (l : Layouts) (strings : Int → List UInt16)

def sendSimStatusAppInfo (mem : Memory) (numApps : Int) (appStatus : Nat) : Pass :=
  .const numApps ++ .records (fun i =>
    let app := appStatus + i * l.app.size
    .int mem (app + l.app.appType) ++ .int mem (app + l.app.appState) ++
      .int mem (app + l.app.persoSubstate) ++ .string strings mem (app + l.app.aidPtr) ++
      .string strings mem (app + l.app.appLabelPtr) ++ .int mem (app + l.app.pin1Replaced) ++
      .int mem (app + l.app.pin1) ++ .int mem (app + l.app.pin2)) numApps.toNat

/-- The branch of `responseSimStatus` for one version of the structure. -/
def cardStatus (mem : Memory) (card : CardLayout l.app l.maxApps) : Pass :=
  .int mem card.cardState ++ .int mem card.universalPinState ++
    .int mem card.gsmUmtsSubscriptionAppIndex ++ .int mem card.cdmaSubscriptionAppIndex ++
    (match card.imsSubscriptionAppIndex with
      | some off => .int mem off
      | none => .const (-1)) ++
    .peek card.numApplications ++
    sendSimStatusAppInfo l strings mem (word mem card.numApplications) card.applications

def responseSimStatus (response : Option Memory) (responselen : Nat) : Option Encoded :=
  if response.isNone && responselen != 0 then some rejected
  else if responselen = l.cardV6.size then do
    let mem ← response
    some (encoded (cardStatus l strings mem l.cardV6))
  else if responselen = l.cardV5.size then do
    let mem ← response
    some (encoded (cardStatus l strings mem l.cardV5))
  else some rejected

/-- The number of profiles that are written.  The count is compared as an unsigned
number. -/
def profileNum (mem : Memory) (responselen : Nat) : Nat :=
  let count := (word mem 0 % 4294967296).toNat
  if responselen / l.profile.size < count then responselen / l.profile.size else count

def responseGetDataCallProfile (response : Option Memory) (responselen : Nat) :
    Option Encoded :=
  if response.isNone && responselen != 0 then some rejected
  else do
    let mem ← response
    let num := profileNum l mem responselen
    some (encoded (.peek 0 ++ .const num ++ .records (fun i =>
      let cur := 4 + i * l.profile.size
      .int mem (cur + l.profile.profileId) ++ .int mem (cur + l.profile.priority)) num))

def marshallSignalInfoRecord (mem : Memory) : Pass :=
  .char mem l.callWaiting.isPresent ++ .char mem l.callWaiting.signalType ++
    .char mem l.callWaiting.alertPitch ++ .char mem l.callWaiting.signal

def responseCdmaCallWaiting (response : Option Memory) (responselen : Nat) : Option Encoded :=
  if response.isNone && responselen != 0 then some rejected
  else do
    let mem ← response
    some (encoded (.string strings mem l.callWaiting.number ++
      .int mem l.callWaiting.numberPresentation ++ .string strings mem l.callWaiting.name ++
      marshallSignalInfoRecord l mem ++
      if l.callWaiting.sizeV6 ≤ responselen then
        .int mem l.callWaiting.numberType ++ .int mem l.callWaiting.numberPlan
      else .const 0 ++ .const 0))

/-- `responseSimRefresh`.  `writeStringToParcel` writes -1 for a null pointer. -/
def responseSimRefresh (version : Int) (response : Option Memory) (responselen : Nat) :
    Option Encoded :=
  if response.isNone && responselen != 0 then some rejected
  else if 7 ≤ version then do
    let mem ← response
    some (encoded (.int mem l.simRefresh.result ++ .int mem l.simRefresh.efId ++
      .string strings mem l.simRefresh.aid))
  else do
    let mem ← response
    some (encoded (.int mem 0 ++ .int mem 4 ++ .const (-1)))

/-! ## Which responses stay inside -/

/-- A null pointer is rejected if it has a length, and followed otherwise. -/
def Readable (response : Option Memory) (responselen : Nat) (fits : Memory → Prop) : Prop :=
  match response with
  | none => responselen ≠ 0
  | some mem => fits mem

/-- The number of applications is at most the length of their array. -/
def AppsFit (mem : Memory) (card : CardLayout l.app l.maxApps) : Prop :=
  word mem card.numApplications ≤ l.maxApps

/-- A structure of the newer version is tried first. -/
def SimStatusFits (mem : Memory) (responselen : Nat) : Prop :=
  (responselen = l.cardV6.size → AppsFit l mem l.cardV6) ∧
    (responselen ≠ l.cardV6.size → responselen = l.cardV5.size → AppsFit l mem l.cardV5)

/-- There is a count, and the buffer has that many profiles behind it, or it has room
for the count behind the profiles that its whole length would make. -/
def ProfilesFit (mem : Memory) (responselen : Nat) : Prop :=
  4 ≤ responselen ∧
    (4 + (word mem 0 % 4294967296).toNat * l.profile.size ≤ responselen ∨
      4 ≤ responselen % l.profile.size)

/-- What `responseSimRefresh` looks at. -/
def simRefreshSize (version : Int) : Nat :=
  if 7 ≤ version then l.simRefresh.size else 8

variable {l} {strings}

/-- The fields of a record lie in the record. -/
theorem AppLayout.field_end (app : AppLayout) {off : Nat}
    (h : off ∈ [app.appType, app.appState, app.persoSubstate, app.aidPtr, app.appLabelPtr,
      app.pin1Replaced, app.pin1, app.pin2]) (base : Nat) : base + off + 4 ≤ base + app.size := by
  have hinside := app.fields_inside off h
  omega

theorem sendSimStatusAppInfo_inside (mem : Memory) (numApps : Int)
    (card : CardLayout l.app l.maxApps) :
    (sendSimStatusAppInfo l strings mem numApps card.applications).Inside card.size ↔
      numApps ≤ l.maxApps := by
  simp only [sendSimStatusAppInfo, Pass.inside_append, Pass.inside_const, true_and,
    Pass.inside_records, Pass.inside_int, Pass.inside_string]
  constructor
  · intro h
    -- the entry behind the array starts where the buffer ends
    by_contra hmany
    have hentry := (h l.maxApps (by omega)).2
    have hend := card.applications_end
    omega
  · intro hfew i hi
    have hentry : card.applications + i * l.app.size + l.app.size ≤ card.size := by
      have hmul := Nat.mul_le_mul_right l.app.size (show i + 1 ≤ l.maxApps by omega)
      have hend := card.applications_end
      rw [Nat.succ_mul] at hmul
      omega
    have hfield {off : Nat} (hoff : off ∈ [l.app.appType, l.app.appState, l.app.persoSubstate,
        l.app.aidPtr, l.app.appLabelPtr, l.app.pin1Replaced, l.app.pin1, l.app.pin2]) :
        card.applications + i * l.app.size + off + 4 ≤ card.size :=
      Nat.le_trans (l.app.field_end hoff _) hentry
    exact ⟨⟨⟨⟨⟨⟨⟨hfield (by simp), hfield (by simp)⟩, hfield (by simp)⟩, hfield (by simp)⟩,
      hfield (by simp)⟩, hfield (by simp)⟩, hfield (by simp)⟩, hfield (by simp)⟩

theorem cardStatus_inside (mem : Memory) (card : CardLayout l.app l.maxApps) :
    (cardStatus l strings mem card).Inside card.size ↔ AppsFit l mem card := by
  have hfield {off : Nat} (hoff : off ∈ [card.cardState, card.universalPinState,
      card.gsmUmtsSubscriptionAppIndex, card.cdmaSubscriptionAppIndex, card.numApplications]) :=
    card.fields_inside off hoff
  have hims : (match card.imsSubscriptionAppIndex with
      | some off => Pass.int mem off
      | none => .const (-1)).Inside card.size := by
    have hinside := card.ims_inside
    cases himsOff : card.imsSubscriptionAppIndex with
    | none => exact Pass.inside_const _ _
    | some off => exact (Pass.inside_int _ _ _).mpr (hinside off himsOff)
  simp only [cardStatus, Pass.inside_append, Pass.inside_int, Pass.inside_peek,
    sendSimStatusAppInfo_inside, hims, and_true]
  exact and_iff_right ⟨⟨⟨⟨hfield (by simp), hfield (by simp)⟩, hfield (by simp)⟩,
    hfield (by simp)⟩, hfield (by simp)⟩

/-- A structure with a field has a size. -/
theorem CardLayout.size_ne_zero {app : AppLayout} {maxApps : Nat}
    (card : CardLayout app maxApps) : 0 ≠ card.size := by
  have hinside := card.fields_inside card.cardState (by simp)
  omega

theorem responseSimStatus_inside (response : Option Memory) (responselen : Nat) :
    StaysInside responselen (responseSimStatus l strings response responselen) ↔
      ∀ mem ∈ response, SimStatusFits l mem responselen := by
  cases response with
  | none =>
      rcases Nat.eq_zero_or_pos responselen with rfl | hpos
      · simp [responseSimStatus, l.cardV6.size_ne_zero, l.cardV5.size_ne_zero]
      · simp [responseSimStatus, Nat.ne_of_gt hpos]
  | some mem =>
      simp only [responseSimStatus, Option.isNone_some, Bool.false_and, Bool.false_eq_true,
        if_false, Option.bind_eq_bind, Option.bind_some, Option.mem_def, Option.some.injEq,
        forall_eq', SimStatusFits]
      split
      · rename_i hv6
        simp [hv6, cardStatus_inside]
      · rename_i hv6
        split
        · rename_i hv5
          rw [staysInside_encoded]
          subst hv5
          simp [hv6, cardStatus_inside]
        · rename_i hv5
          simp [hv6, hv5]

/-- The part of a response function behind the check of the pointer. -/
theorem followed_inside (f : Memory → Pass) (response : Option Memory) (responselen : Nat) :
    StaysInside responselen (if response.isNone && responselen != 0 then some rejected
      else response.bind fun mem => some (encoded (f mem))) ↔
      Readable response responselen fun mem => (f mem).Inside responselen := by
  cases response with
  | none =>
      rcases Nat.eq_zero_or_pos responselen with rfl | hpos
      · simp [Readable]
      · simp [Readable, Nat.ne_of_gt hpos]
  | some mem => simp [Readable]

theorem readable_congr {response : Option Memory} {responselen : Nat} {fits fits' : Memory → Prop}
    (h : ∀ mem, fits mem ↔ fits' mem) :
    Readable response responselen fits ↔ Readable response responselen fits' := by
  cases response with
  | none => rfl
  | some mem => exact h mem

theorem profiles_inside_iff (mem : Memory) (responselen : Nat) :
    (4 ≤ responselen ∧ 4 + profileNum l mem responselen * l.profile.size ≤ responselen) ↔
      ProfilesFit l mem responselen := by
  unfold ProfilesFit profileNum
  generalize (word mem 0 % 4294967296).toNat = count
  have hdiv := Nat.div_add_mod' responselen l.profile.size
  dsimp only
  split
  · rename_i hroom
    -- the buffer has no room for the count and that many profiles
    have hpos : 0 < l.profile.size := by
      have hend := l.profile.priority_end
      omega
    have hmod := Nat.mod_lt responselen hpos
    have hmul := Nat.mul_le_mul_right l.profile.size (Nat.succ_le_of_lt hroom)
    rw [Nat.succ_mul] at hmul
    omega
  · rename_i hroom
    have hmul := Nat.mul_le_mul_right l.profile.size (Nat.le_of_not_lt hroom)
    omega

theorem responseGetDataCallProfile_inside (response : Option Memory) (responselen : Nat) :
    StaysInside responselen (responseGetDataCallProfile l response responselen) ↔
      Readable response responselen fun mem => ProfilesFit l mem responselen := by
  have hprofile := l.profile.profileId_inside
  have hpriority := l.profile.priority_end
  have hrecord (i : Nat) : (4 + i * l.profile.size + l.profile.profileId + 4 ≤ responselen ∧
      4 + i * l.profile.size + l.profile.priority + 4 ≤ responselen) ↔
      4 + i * l.profile.size + l.profile.size ≤ responselen := by
    omega
  simp only [responseGetDataCallProfile, Option.bind_eq_bind, followed_inside]
  apply readable_congr
  intro mem
  simp only [Pass.inside_append, Pass.inside_peek, Pass.inside_const, and_true,
    Pass.inside_records, Pass.inside_int, hrecord, forall_records_end_iff, ← profiles_inside_iff]
  rcases Nat.eq_zero_or_pos (profileNum l mem responselen) with hnone | hsome
  · simp [hnone]
  · simp [Nat.ne_of_gt hsome]

theorem responseCdmaCallWaiting_inside (response : Option Memory) (responselen : Nat) :
    StaysInside responselen (responseCdmaCallWaiting l strings response responselen) ↔
      Readable response responselen fun _ => l.callWaiting.sizeV5 ≤ responselen := by
  have hsizes := l.callWaiting.sizes
  have hfields := l.callWaiting.fields_inside
  have hchars := l.callWaiting.chars_inside
  have hsignal := l.callWaiting.signal_end
  have hlater := l.callWaiting.later_inside
  simp only [List.mem_cons, List.not_mem_nil, or_false, forall_eq_or_imp, forall_eq]
    at hfields hchars hlater
  simp only [responseCdmaCallWaiting, Option.bind_eq_bind, followed_inside]
  apply readable_congr
  intro mem
  simp only [marshallSignalInfoRecord, Pass.inside_append, Pass.inside_int, Pass.inside_string,
    Pass.inside_char]
  split
  · simp only [Pass.inside_append, Pass.inside_int]
    omega
  · simp only [Pass.inside_append, Pass.inside_const, and_true]
    omega

theorem responseSimRefresh_inside (version : Int) (response : Option Memory)
    (responselen : Nat) :
    StaysInside responselen (responseSimRefresh l strings version response responselen) ↔
      Readable response responselen fun _ => simRefreshSize l version ≤ responselen := by
  have hfields := l.simRefresh.fields_inside
  have haid := l.simRefresh.aid_end
  simp only [List.mem_cons, List.not_mem_nil, or_false, forall_eq_or_imp, forall_eq] at hfields
  by_cases hversion : 7 ≤ version
  · simp only [responseSimRefresh, simRefreshSize, if_pos hversion, Option.bind_eq_bind,
      followed_inside]
    apply readable_congr
    intro mem
    simp only [Pass.inside_append, Pass.inside_int, Pass.inside_string]
    omega
  · simp only [responseSimRefresh, simRefreshSize, if_neg hversion, Option.bind_eq_bind,
      followed_inside]
    apply readable_congr
    intro mem
    simp only [Pass.inside_append, Pass.inside_int, Pass.inside_const, and_true]
    omega

/-- **Reads inside the buffer.**  `responseSimStatus` looks behind the buffer exactly
if a card of a known version says it has more applications than the structure.
The list of profiles needs its count in the buffer, and the profiles that are
counted, or a length with a rest for the count.  The other two need the structure,
and of a null pointer only a length is rejected. -/
theorem responses_inside_iff (l : Layouts) (strings : Int → List UInt16) (version : Int)
    (response : Option Memory) (responselen : Nat) :
    (StaysInside responselen (responseSimStatus l strings response responselen) ↔
      ∀ mem ∈ response, SimStatusFits l mem responselen) ∧
    (StaysInside responselen (responseGetDataCallProfile l response responselen) ↔
      Readable response responselen fun mem => ProfilesFit l mem responselen) ∧
    (StaysInside responselen (responseCdmaCallWaiting l strings response responselen) ↔
      Readable response responselen fun _ => l.callWaiting.sizeV5 ≤ responselen) ∧
    (StaysInside responselen (responseSimRefresh l strings version response responselen) ↔
      Readable response responselen fun _ => simRefreshSize l version ≤ responselen) :=
  ⟨responseSimStatus_inside response responselen,
    responseGetDataCallProfile_inside response responselen,
    responseCdmaCallWaiting_inside response responselen,
    responseSimRefresh_inside version response responselen⟩

/-- The structures of a 32-bit build, with eight applications on a card. -/
def layouts32 : Layouts where
  app := ⟨32, 0, 4, 8, 12, 16, 20, 24, 28, by decide⟩
  maxApps := 8
  cardV6 := ⟨280, 0, 4, 8, 12, some 16, 20, 24, by decide, by decide, rfl⟩
  cardV5 := ⟨276, 0, 4, 8, 12, none, 16, 20, by decide, by decide, rfl⟩
  profile := ⟨8, 0, 4, by decide, rfl⟩
  callWaiting := ⟨16, 24, 0, 4, 8, 12, 13, 14, 15, 16, 20, by decide, by decide, by decide, rfl,
    by decide⟩
  simRefresh := ⟨12, 0, 4, 8, by decide, rfl⟩

/-- A card with nine applications, sixteen bytes that start with a count of two, and a
null pointer without a length. -/
theorem responses_outside :
    ¬ StaysInside 280 (responseSimStatus layouts32 (fun _ => [])
      (some fun q => if q = 20 then 9 else 0) 280) ∧
    ¬ StaysInside 16 (responseGetDataCallProfile layouts32
      (some fun q => if q = 0 then 2 else 0) 16) ∧
    ¬ StaysInside 0 (responseCdmaCallWaiting layouts32 (fun _ => []) none 0) ∧
    ¬ StaysInside 0 (responseSimRefresh layouts32 (fun _ => []) 7 none 0) := by
  rw [responseSimStatus_inside, responseGetDataCallProfile_inside, responseCdmaCallWaiting_inside,
    responseSimRefresh_inside]
  refine ⟨?_, ?_, ?_, ?_⟩
  · intro h
    have happs := (h _ rfl).1 rfl
    revert happs
    unfold AppsFit
    decide
  · unfold Readable ProfilesFit
    decide
  · exact fun h => h rfl
  · exact fun h => h rfl

/-! ## The same bytes as the structures -/

/-- A text of the buffer. -/
def textIn (strings : Int → List UInt16) (mem : Memory) (off : Nat) : Text :=
  Pass.textAt strings (word mem off)

def appStatusIn (l : Layouts) (strings : Int → List UInt16) (mem : Memory) (app : Nat) :
    AppStatus where
  appType := word mem (app + l.app.appType)
  appState := word mem (app + l.app.appState)
  persoSubstate := word mem (app + l.app.persoSubstate)
  aidPtr := textIn strings mem (app + l.app.aidPtr)
  appLabelPtr := textIn strings mem (app + l.app.appLabelPtr)
  pin1Replaced := word mem (app + l.app.pin1Replaced)
  pin1 := word mem (app + l.app.pin1)
  pin2 := word mem (app + l.app.pin2)

def cardStatusIn (l : Layouts) (strings : Int → List UInt16) (mem : Memory)
    (card : CardLayout l.app l.maxApps) : CardStatus where
  cardState := word mem card.cardState
  universalPinState := word mem card.universalPinState
  gsmUmtsSubscriptionAppIndex := word mem card.gsmUmtsSubscriptionAppIndex
  cdmaSubscriptionAppIndex := word mem card.cdmaSubscriptionAppIndex
  imsSubscriptionAppIndex := (card.imsSubscriptionAppIndex.map (word mem)).getD (-1)
  numApplications := word mem card.numApplications
  applications i := appStatusIn l strings mem (card.applications + i * l.app.size)

/-- What the response functions for cards and profiles find under their types. -/
def contentIn (l : Layouts) (strings : Int → List UInt16) (mem : Memory) (other : Content) :
    Content :=
  { other with
    cardStatusV5 := cardStatusIn l strings mem l.cardV5
    cardStatusV6 := cardStatusIn l strings mem l.cardV6
    profileCount := word mem 0
    profiles := fun i =>
      ⟨word mem (4 + i * l.profile.size + l.profile.profileId),
        word mem (4 + i * l.profile.size + l.profile.priority)⟩ }

/-- The sizes are those of the layouts, and the older card has no entry for IMS. -/
structure Agrees (m : Marshaller) (l : Layouts) : Prop where
  cardV5 : m.header.sizeofCardStatusV5 = l.cardV5.size
  cardV6 : m.header.sizeofCardStatusV6 = l.cardV6.size
  profile : m.header.sizeofDataCallProfileInfo = l.profile.size
  noIms : l.cardV5.imsSubscriptionAppIndex = none

theorem appStatus_written (mem : Memory) (app : Nat) :
    (Pass.int mem (app + l.app.appType) ++ .int mem (app + l.app.appState) ++
      .int mem (app + l.app.persoSubstate) ++ .string strings mem (app + l.app.aidPtr) ++
      .string strings mem (app + l.app.appLabelPtr) ++ .int mem (app + l.app.pin1Replaced) ++
      .int mem (app + l.app.pin1) ++ .int mem (app + l.app.pin2)).written =
      writeAppStatus (appStatusIn l strings mem app) := by
  simp only [Pass.written_append, Pass.written_int, Pass.written_string, writeAppStatus,
    appStatusIn, textIn]

theorem sendSimStatusAppInfo_written (mem : Memory) (card : CardLayout l.app l.maxApps) :
    (sendSimStatusAppInfo l strings mem (word mem card.numApplications)
      card.applications).written =
      Responses.sendSimStatusAppInfo (cardStatusIn l strings mem card).numApplications
        (cardStatusIn l strings mem card).applications := by
  rw [sendSimStatusAppInfo, Pass.written_append, Pass.written_const, Pass.written_records]
  simp only [appStatus_written]
  rw [Responses.sendSimStatusAppInfo]
  simp only [cardStatusIn]

theorem ims_written (mem : Memory) (ims : Option Nat) :
    (match ims with
      | some off => Pass.int mem off
      | none => .const (-1)).written = encodeInt32 ((ims.map (word mem)).getD (-1)) := by
  cases ims with
  | none => rw [Option.map_none, Option.getD_none, Pass.written_const]
  | some off => rw [Option.map_some, Option.getD_some, Pass.written_int]

theorem cardStatus_written (mem : Memory) (card : CardLayout l.app l.maxApps) :
    (cardStatus l strings mem card).written =
      writeCardStatus (cardStatusIn l strings mem card)
        (cardStatusIn l strings mem card).imsSubscriptionAppIndex := by
  rw [cardStatus, Pass.written_append, sendSimStatusAppInfo_written, writeCardStatus]
  simp only [Pass.written_append, Pass.written_int, Pass.written_peek, ims_written,
    List.append_nil, List.append_assoc]
  simp only [cardStatusIn]

/-- What both views of a response that has been looked at have in common. -/
theorem followed_marshalled (f : Memory → Pass) (g : Content → List UInt8)
    (content : Memory → Content) (response : Option Memory)
    (h : ∀ mem, (f mem).written = g (content mem)) :
    (response.bind fun mem => some (encoded (f mem))).map Encoded.marshalled =
      (response.map content).bind fun c => some (success (g c)) := by
  cases response with
  | none => rfl
  | some mem =>
      rw [Option.bind_some, Option.map_some, Option.map_some, Option.bind_some,
        marshalled_encoded, h]

theorem responseSimStatus_marshalled {m : Marshaller} (h : Agrees m l)
    (response : Option Memory) (other : Content) (responselen : Nat) :
    (responseSimStatus l strings response responselen).map Encoded.marshalled =
      Responses.responseSimStatus m (response.map fun mem => contentIn l strings mem other)
        responselen := by
  have hcardV5 (mem : Memory) : (cardStatus l strings mem l.cardV5).written =
      writeCardStatus (contentIn l strings mem other).cardStatusV5 (-1) := by
    rw [cardStatus_written, contentIn]
    simp only [cardStatusIn, h.noIms, Option.map_none, Option.getD_none]
  have hcardV6 (mem : Memory) : (cardStatus l strings mem l.cardV6).written =
      writeCardStatus (contentIn l strings mem other).cardStatusV6
        (contentIn l strings mem other).cardStatusV6.imsSubscriptionAppIndex :=
    cardStatus_written mem l.cardV6
  simp only [responseSimStatus, Responses.responseSimStatus, nullWithLength, h.cardV5, h.cardV6,
    Option.isNone_map, Option.bind_eq_bind, apply_ite (Option.map Encoded.marshalled),
    Option.map_some, marshalled_rejected]
  rw [followed_marshalled _ (fun c => writeCardStatus c.cardStatusV5 (-1)) _ _ hcardV5,
    followed_marshalled _ (fun c => writeCardStatus c.cardStatusV6
      c.cardStatusV6.imsSubscriptionAppIndex) _ _ hcardV6]

theorem responseGetDataCallProfile_marshalled {m : Marshaller} (h : Agrees m l)
    (response : Option Memory) (other : Content) (responselen : Nat) :
    (responseGetDataCallProfile l response responselen).map Encoded.marshalled =
      Responses.responseGetDataCallProfile m
        (response.map fun mem => contentIn l strings mem other) responselen := by
  cases response with
  | none =>
      rcases Nat.eq_zero_or_pos responselen with rfl | hpos
      · rfl
      · simp [responseGetDataCallProfile, Responses.responseGetDataCallProfile, nullWithLength,
          Nat.ne_of_gt hpos]
  | some mem =>
      simp only [responseGetDataCallProfile, Responses.responseGetDataCallProfile, nullWithLength,
        h.profile, contentIn, profileNum, Option.isNone_some, Bool.false_and, Bool.false_eq_true,
        if_false, Option.map_some, Option.bind_eq_bind, Option.bind_some, marshalled_encoded,
        Pass.written_append, Pass.written_peek, Pass.written_const, Pass.written_records,
        Pass.written_int, List.nil_append]

/-- **The bytes and the structures.**  Over the bytes the functions write what they
write over the structures that the bytes hold. -/
theorem responses_marshalled {m : Marshaller} {l : Layouts} (h : Agrees m l)
    (strings : Int → List UInt16) (response : Option Memory) (other : Content)
    (responselen : Nat) :
    (responseSimStatus l strings response responselen).map Encoded.marshalled =
      Responses.responseSimStatus m (response.map fun mem => contentIn l strings mem other)
        responselen ∧
    (responseGetDataCallProfile l response responselen).map Encoded.marshalled =
      Responses.responseGetDataCallProfile m
        (response.map fun mem => contentIn l strings mem other) responselen :=
  ⟨responseSimStatus_marshalled h response other responselen,
    responseGetDataCallProfile_marshalled h response other responselen⟩

end Libril.ResponseReads
