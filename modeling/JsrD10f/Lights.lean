import Mathlib.Logic.Basic
import JsrD10f.TextBuffer

/-!
# The indicator light

`lights.c` drives one blue light through two files: the brightness, and a blink
mode that the kernel driver carries out by itself.  The framework sets a state
for notifications and one for the battery; which of the two is shown depends on
the charger.  Colours the light cannot show are mapped to blue.

A light should depend on what is shown now and not on what was shown before.
The branches at the end of `set_speaker_light_locked` do not all write both
files, and one of them lets an old blink mode live on.  The theorem of this file
says for which states that branch is reached.
-/

namespace LibLight

open TextBuffer

/-- `struct light_state_t`. -/
structure LightState where
  color : UInt32
  flashMode : Int
  flashOnMS : Int
  flashOffMS : Int
deriving DecidableEq, Repr

/-- The contents of `BLUE_LED_FILE` and `BLUE_BLINK_FILE`. -/
structure Files where
  led : Int
  blink : Int
deriving DecidableEq, Repr

def LightState.red (x : LightState) : UInt32 := (x.color >>> 16) &&& 0xFF

def LightState.green (x : LightState) : UInt32 := (x.color >>> 8) &&& 0xFF

def LightState.blue (x : LightState) : UInt32 := x.color &&& 0xFF

/-- The colour without its alpha byte. -/
def LightState.rgb (x : LightState) : UInt32 := x.color &&& 0xFFFFFF

/-- What `set_speaker_light_locked` makes of the colour: `colorRGB`, `blue` and
`blink`. -/
def mapColor (x : LightState) : UInt32 × UInt32 × Int :=
  if x.red = 255 ∧ x.green = 255 ∧ x.blue = 0 then (0xFFFF, 255, 2)
  else if x.red = 0 ∧ x.green = 0 ∧ x.blue = 0 then
    if x.flashMode = 1 then (x.color, 0, 3) else (x.color, x.blue, 0)
  else if x.red = 0 ∧ x.green = 255 ∧ x.blue = 0 then (x.color, 255, x.flashMode)
  else (x.color, x.blue, x.flashMode)

/-- `set_speaker_light_locked`. -/
def setSpeakerLightLocked (x : LightState) (f : Files) : Files :=
  let (colorRGB, blue, blink) := mapColor x
  if blink = 0 then { f with blink := 0, led := blue.toNat }
  else if colorRGB = 0 then { f with blink := if blue ≠ 0 then 1 else 0, led := blue.toNat }
  else
    let f := { f with led := 0 }
    if blue ≠ 0 then { f with blink := blink } else f

/-- `is_lit`, from what reading the battery status yields. -/
def isLit (status : Option (List Char)) : Bool :=
  match status with
  | none => false
  | some text =>
      let buf := text.take 22
      if buf.length < 3 then false
      else
        let buf := if buf.getLast? = some '\n' then buf.dropLast else buf
        cstr buf = "Charging".toList || cstr buf = "Full".toList

/-- The globals of the module, and the files. -/
structure Lights where
  notification : LightState
  battery : LightState
  attention : Int
  files : Files
deriving DecidableEq, Repr

/-- The state that `handle_speaker_battery_locked` selects. -/
def Lights.selected (s : Lights) (lit : Bool) : LightState :=
  if !lit ∧ s.battery.rgb ≠ 0 then s.battery
  else if lit ∧ s.notification.rgb = 0 then s.battery
  else s.notification

def Lights.handleSpeakerBatteryLocked (s : Lights) (lit : Bool) : Lights :=
  { s with files := setSpeakerLightLocked (s.selected lit) s.files }

inductive Source where
  | notifications
  | battery
  | attention
deriving DecidableEq, Repr

/-- A call of one of the `set_light` functions, with the battery status that it
finds. -/
structure Call where
  source : Source
  state : LightState
  status : Option (List Char)
deriving DecidableEq, Repr

/-- The globals at the moment of the selection. -/
def Lights.store (s : Lights) (call : Call) : Lights :=
  match call.source with
  | .notifications => { s with notification := call.state }
  | .battery => { s with battery := call.state }
  | .attention =>
      if call.state.flashMode = 2 then { s with attention := call.state.flashOnMS }
      else if call.state.flashMode = 0 then { s with attention := 0 }
      else s

/-- `set_light_notifications`, `set_light_battery` and `set_light_attention`. -/
def setLight (s : Lights) (call : Call) : Lights :=
  (s.store call).handleSpeakerBatteryLocked (isLit call.status)

/-- The module as it is loaded; the files hold anything. -/
def Lights.start (files : Files) : Lights where
  notification := ⟨0, 0, 0, 0⟩
  battery := ⟨0, 0, 0, 0⟩
  attention := 0
  files := files

/-- Calls since the module was loaded, the last one apart. -/
structure History where
  files : Files
  calls : List Call
  last : Call

def History.before (h : History) : Lights :=
  h.calls.foldl setLight (.start h.files)

/-- The state that the last call selects. -/
def History.selected (h : History) : LightState :=
  (h.before.store h.last).selected (isLit h.last.status)

/-- The files after the last call. -/
def History.after (h : History) : Files :=
  (setLight h.before h.last).files

def LightState.IsBlack (x : LightState) : Prop :=
  x.red = 0 ∧ x.green = 0 ∧ x.blue = 0

/-- A flashing colour that leaves the blink file alone: it has no blue, also
after mapping, and is not taken for switched off. -/
def LightState.WritesLedOnly (x : LightState) : Prop :=
  (x.IsBlack ∧ x.flashMode = 1 ∧ x.color ≠ 0) ∨
    (¬x.IsBlack ∧ x.flashMode ≠ 0 ∧ x.blue = 0 ∧
      ¬(x.red = 255 ∧ x.green = 255) ∧ ¬(x.red = 0 ∧ x.green = 255))

/-- What the files hold for a colour and a flash mode. -/
def shown (red green blue : UInt32) (mode : Int) : Files :=
  if red = 255 ∧ green = 255 ∧ blue = 0 then ⟨0, 2⟩
  else if red = 0 ∧ green = 0 ∧ blue = 0 then ⟨0, 0⟩
  else if red = 0 ∧ green = 255 ∧ blue = 0 then if mode = 0 then ⟨255, 0⟩ else ⟨0, mode⟩
  else if mode = 0 then ⟨blue.toNat, 0⟩ else ⟨0, mode⟩

theorem red_eq (x : LightState) : x.red = (x.rgb >>> 16) &&& 0xFF := by
  unfold LightState.red LightState.rgb
  rw [UInt32.shiftRight_and, UInt32.and_assoc]
  rfl

theorem green_eq (x : LightState) : x.green = (x.rgb >>> 8) &&& 0xFF := by
  unfold LightState.green LightState.rgb
  rw [UInt32.shiftRight_and, UInt32.and_assoc]
  rfl

theorem blue_eq (x : LightState) : x.blue = x.rgb &&& 0xFF := by
  unfold LightState.blue LightState.rgb
  rw [UInt32.and_assoc]
  rfl

theorem isBlack_of_color {x : LightState} (h : x.color = 0) : x.IsBlack := by
  unfold LightState.IsBlack LightState.red LightState.green LightState.blue
  rw [h]
  decide

theorem isBlack_of_rgb {x : LightState} (h : x.rgb = 0) : x.IsBlack := by
  unfold LightState.IsBlack
  rw [red_eq, green_eq, blue_eq, h]
  decide

theorem setSpeakerLightLocked_ledOnly {x : LightState} (h : x.WritesLedOnly) (f : Files) :
    setSpeakerLightLocked x f = { f with led := 0 } := by
  rcases h with ⟨⟨hred, hgreen, hblue⟩, hmode, hcolor⟩ | ⟨hblack, hmode, hblue, hyellow, hgreen⟩
  · simp [setSpeakerLightLocked, mapColor, hred, hgreen, hblue, hmode, hcolor]
  · have hcolor : x.color ≠ 0 := fun h => hblack (isBlack_of_color h)
    have hblack' : ¬(x.red = 0 ∧ x.green = 0) := fun h => hblack ⟨h.1, h.2, hblue⟩
    simp [setSpeakerLightLocked, mapColor, hblue, hyellow, hblack', hgreen, hmode, hcolor]

/-- In every other state both files are written. -/
theorem setSpeakerLightLocked_both {x : LightState} (h : ¬x.WritesLedOnly) (f : Files) :
    setSpeakerLightLocked x f = shown x.red x.green x.blue x.flashMode := by
  unfold setSpeakerLightLocked mapColor shown
  by_cases hyellow : x.red = 255 ∧ x.green = 255 ∧ x.blue = 0
  · rw [if_pos hyellow, if_pos hyellow]
    rfl
  rw [if_neg hyellow, if_neg hyellow]
  by_cases hblack : x.red = 0 ∧ x.green = 0 ∧ x.blue = 0
  · rw [if_pos hblack, if_pos hblack]
    by_cases hmode : x.flashMode = 1
    · have hcolor : x.color = 0 := by
        by_contra hcolor
        exact h (Or.inl ⟨hblack, hmode, hcolor⟩)
      simp [hmode, hcolor]
    · simp [hmode, hblack.2.2]
  have hcolor : x.color ≠ 0 := fun h => hblack (isBlack_of_color h)
  rw [if_neg hblack, if_neg hblack]
  by_cases hgreen : x.red = 0 ∧ x.green = 255 ∧ x.blue = 0
  · rw [if_pos hgreen, if_pos hgreen]
    by_cases hmode : x.flashMode = 0
    · simp [hmode]
    · simp [hmode, hcolor]
  rw [if_neg hgreen, if_neg hgreen]
  by_cases hmode : x.flashMode = 0
  · simp [hmode]
  · have hblue : x.blue ≠ 0 := by
      intro hblue
      exact h (Or.inr ⟨hblack, hmode, hblue, fun hy => hyellow ⟨hy.1, hy.2, hblue⟩,
        fun hg => hgreen ⟨hg.1, hg.2, hblue⟩⟩)
    simp [hmode, hcolor, hblue]

theorem History.after_eq (h : History) :
    h.after = setSpeakerLightLocked h.selected (h.before.store h.last).files :=
  rfl

/-- The notification is shown while the battery is not to be reported. -/
def flashAfter (first x : LightState) : History where
  files := ⟨0, 0⟩
  calls := [⟨.notifications, first, none⟩]
  last := ⟨.notifications, x, none⟩

theorem flashAfter_selected (first x : LightState) : (flashAfter first x).selected = x := by
  simp [flashAfter, History.selected, History.before, setLight, Lights.store, Lights.selected,
    Lights.handleSpeakerBatteryLocked, Lights.start, LightState.rgb, isLit]

theorem flashAfter_files (first x : LightState) :
    ((flashAfter first x).before.store (flashAfter first x).last).files =
      setSpeakerLightLocked first ⟨0, 0⟩ := by
  simp [flashAfter, History.before, setLight, Lights.store, Lights.selected,
    Lights.handleSpeakerBatteryLocked, Lights.start, LightState.rgb, isLit]

/-- Steady blue and flashing blue. -/
def steadyBlue : LightState := ⟨0xFF0000FF, 0, 0, 0⟩
def flashingBlue : LightState := ⟨0xFF0000FF, 1, 500, 2000⟩

theorem flashAfter_blink {x : LightState} (hx : x.WritesLedOnly) :
    (flashAfter steadyBlue x).after.blink = 0 ∧ (flashAfter flashingBlue x).after.blink = 1 := by
  constructor
  · rw [History.after_eq, flashAfter_selected, setSpeakerLightLocked_ledOnly hx, flashAfter_files]
    decide
  · rw [History.after_eq, flashAfter_selected, setSpeakerLightLocked_ledOnly hx, flashAfter_files]
    decide

/-- **When the light is free of its history.**  For two states that differ in
nothing but the alpha byte, all histories that end in showing one of them leave
the same files, and black files if the colour is black, exactly when neither is
a flashing colour for which only the brightness is written. -/
theorem light_history_free_iff (x y : LightState) (hrgb : x.rgb = y.rgb)
    (hmode : x.flashMode = y.flashMode) :
    (∀ h h' : History, h.selected = x → h'.selected = y →
      h.after = h'.after ∧ (x.rgb = 0 → h.after = ⟨0, 0⟩)) ↔
      ¬x.WritesLedOnly ∧ ¬y.WritesLedOnly := by
  constructor
  · intro hfree
    constructor
    · intro hx
      obtain ⟨hsteady, hflashing⟩ := flashAfter_blink hx
      have h₁ := (hfree (flashAfter steadyBlue x) (flashAfter steadyBlue y) (flashAfter_selected _ _)
        (flashAfter_selected _ _)).1
      have h₂ := (hfree (flashAfter flashingBlue x) (flashAfter steadyBlue y) (flashAfter_selected _ _)
        (flashAfter_selected _ _)).1
      rw [h₁] at hsteady
      rw [h₂, hsteady] at hflashing
      cases hflashing
    · intro hy
      obtain ⟨hsteady, hflashing⟩ := flashAfter_blink hy
      have h₁ := (hfree (flashAfter steadyBlue x) (flashAfter steadyBlue y) (flashAfter_selected _ _)
        (flashAfter_selected _ _)).1
      have h₂ := (hfree (flashAfter steadyBlue x) (flashAfter flashingBlue y) (flashAfter_selected _ _)
        (flashAfter_selected _ _)).1
      rw [← h₁] at hsteady
      rw [← h₂, hsteady] at hflashing
      cases hflashing
  · intro hboth h h' hx hy
    have hafter : h.after = shown x.red x.green x.blue x.flashMode := by
      rw [History.after_eq, hx, setSpeakerLightLocked_both hboth.1]
    have hafter' : h'.after = shown y.red y.green y.blue y.flashMode := by
      rw [History.after_eq, hy, setSpeakerLightLocked_both hboth.2]
    constructor
    · rw [hafter, hafter', red_eq, red_eq y, green_eq, green_eq y, blue_eq, blue_eq y, hrgb, hmode]
    · intro hblack
      obtain ⟨hred, hgreen, hblue⟩ := isBlack_of_rgb hblack
      rw [hafter, hred, hgreen, hblue]
      rfl

/-- Flashing green is mapped to flashing blue, whatever its alpha byte is. -/
theorem light_history_free_green :
    (∀ h h' : History, h.selected = ⟨0xFF00FF00, 1, 500, 2000⟩ →
      h'.selected = ⟨0x0000FF00, 1, 500, 2000⟩ →
      h.after = h'.after ∧
        (LightState.rgb ⟨0xFF00FF00, 1, 500, 2000⟩ = 0 → h.after = ⟨0, 0⟩)) ∧
      (flashAfter steadyBlue ⟨0xFF00FF00, 1, 500, 2000⟩).selected =
        ⟨0xFF00FF00, 1, 500, 2000⟩ := by
  constructor
  · apply (light_history_free_iff ⟨0xFF00FF00, 1, 500, 2000⟩ ⟨0x0000FF00, 1, 500, 2000⟩
      (by decide) (by decide)).mpr
    unfold LightState.WritesLedOnly LightState.IsBlack
    decide
  · exact flashAfter_selected _ _

/-- Flashing red blinks on when it follows flashing blue. -/
theorem old_blink_survives :
    ¬∀ h h' : History, h.selected.rgb = h'.selected.rgb →
      h.selected.flashMode = h'.selected.flashMode →
      h.after = h'.after ∧ (h.selected.rgb = 0 → h.after = ⟨0, 0⟩) := by
  intro hfree
  have h := hfree (flashAfter flashingBlue ⟨0xFFFF0000, 1, 500, 2000⟩)
    (flashAfter steadyBlue ⟨0xFFFF0000, 1, 500, 2000⟩) (by decide) (by decide)
  exact absurd h.1 (by decide)

end LibLight
