import Mathlib.Logic.Basic

/-!
# Unsolicited responses and the radio state

The table `s_unsolResponses` of `ril.cpp`, with the wake type of each entry,
and the decoding of the radio states of old vendor RILs.  Such a RIL reports
the state of its SIM, RUIM or NV in place of `RADIO_STATE_ON`; `libril` keeps
the last decoded values in three globals and tells the client when one of them
changes.  The decoders return -1 for "unknown", which is `none` here.
-/

namespace Libril

inductive WakeType where
  | dontWake
  | wakePartial
deriving DecidableEq, Repr

/-- The entries of `ril_unsol_commands.h`, in the order of the table. -/
inductive Unsol where
  | radioStateChanged
  | callStateChanged
  | voiceNetworkStateChanged
  | newSms
  | newSmsStatusReport
  | newSmsOnSim
  | onUssd
  | onUssdRequest
  | nitzTimeReceived
  | signalStrength
  | dataCallListChanged
  | suppSvcNotification
  | stkSessionEnd
  | stkProactiveCommand
  | stkEventNotify
  | stkCallSetup
  | simSmsStorageFull
  | simRefresh
  | callRing
  | simStatusChanged
  | cdmaNewSms
  | newBroadcastSms
  | cdmaRuimSmsStorageFull
  | restrictedStateChanged
  | enterEmergencyCallbackMode
  | cdmaCallWaiting
  | cdmaOtaProvisionStatus
  | cdmaInfoRec
  | oemHookRaw
  | ringbackTone
  | resendIncallMute
  | cdmaSubscriptionSourceChanged
  | cdmaPrlChanged
  | exitEmergencyCallbackMode
  | rilConnected
  | voiceRadioTechChanged
  | cellInfoList
  | imsNetworkStateChanged
  | onSs
  | stkCcAlphaNotify
  | uiccSubscriptionStatusChanged
deriving DecidableEq, Repr

def Unsol.wakeType : Unsol → WakeType
  | .onUssdRequest => .dontWake
  | .signalStrength => .dontWake
  | _ => .wakePartial

/-- `shouldScheduleTimeout` for a response. -/
def Unsol.wakes (u : Unsol) : Bool :=
  u.wakeType == .wakePartial

/-- `RIL_RadioState`, in the order of its values. -/
inductive RadioState where
  | off
  | unavailable
  | simNotReady
  | simLockedOrAbsent
  | simReady
  | ruimNotReady
  | ruimReady
  | ruimLockedOrAbsent
  | nvNotReady
  | nvReady
  | on
deriving DecidableEq, Repr

/-- The voice radio technologies that the decoder produces. -/
inductive RadioTech where
  | umts
  | oneXRtt
deriving DecidableEq, Repr

inductive CdmaSubscriptionSource where
  | ruimSim
  | nv
deriving DecidableEq, Repr

def decodeVoiceRadioTechnology : RadioState → Option RadioTech
  | .simNotReady | .simLockedOrAbsent | .simReady => some .umts
  | .ruimNotReady | .ruimReady | .ruimLockedOrAbsent | .nvNotReady | .nvReady => some .oneXRtt
  | .off | .unavailable | .on => none

def decodeCdmaSubscriptionSource : RadioState → Option CdmaSubscriptionSource
  | .simNotReady | .simLockedOrAbsent | .simReady => some .ruimSim
  | .ruimNotReady | .ruimReady | .ruimLockedOrAbsent => some .ruimSim
  | .nvNotReady | .nvReady => some .nv
  | .off | .unavailable | .on => none

def decodeSimStatus : RadioState → Option RadioState
  | .simLockedOrAbsent => some .simLockedOrAbsent
  | .simReady => some .simReady
  | .ruimReady => some .ruimReady
  | .ruimLockedOrAbsent => some .ruimLockedOrAbsent
  | _ => none

def is3gpp2 : Option RadioTech → Bool
  | some .oneXRtt => true
  | _ => false

/-- The states strictly between `RADIO_STATE_UNAVAILABLE` and `RADIO_STATE_ON`. -/
def RadioState.isOld : RadioState → Bool
  | .off | .unavailable | .on => false
  | _ => true

/-- The globals `voiceRadioTech`, `cdmaSubscriptionSource` and `simRuimStatus`. -/
structure RadioVars where
  voiceRadioTech : Option RadioTech
  cdmaSubscriptionSource : Option CdmaSubscriptionSource
  simRuimStatus : Option RadioState
deriving DecidableEq, Repr

end Libril
