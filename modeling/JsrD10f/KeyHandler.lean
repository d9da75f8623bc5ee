import Mathlib.Data.List.Induction

/-!
# The function key

`KeyHandler` starts the application of a short or of a long press when the function
key goes up.  It tells the two apart by a single time: every down event stores the
time, an up event compares with it and clears it.

While the key is held the system may repeat the down event.  Each of them stores a
new time, so the handler measures from the last down event and not from the one
that has started the hold.  A long hold is then taken for a short press, and
`presses_classified_iff` says that this is all that goes wrong: over runs of any
length, with other keys and changes of the settings in between.
-/

namespace Keyhandler

/-! ## The handler -/

inductive KeyAction where
  | down
  | up
  | multiple
deriving DecidableEq, Repr

/-- The parts of a `KeyEvent` that the handler may look at. -/
structure KeyEvent where
  keyCode : Int
  action : KeyAction
  repeatCount : Nat
deriving DecidableEq, Repr

/-- `KEYCODE_FUNCTION`. -/
def keycodeFunction : Int := 119

def btnFuncTimestampDelta : Int := 400

/-- What the handler is called for: a key, or a change of the settings, with the texts
that are stored then. -/
inductive Input where
  | key (e : KeyEvent)
  | settings (app app2 : Option (List Char))
deriving DecidableEq, Repr

inductive Press where
  | short
  | long
deriving DecidableEq, Repr

/-- `action` and `actionEx` of `CameraActivationAction`. -/
inductive Action where
  | action
  | actionEx (uri : List Char)
deriving DecidableEq, Repr

/-- The fields of `KeyHandler`.  The time is static. -/
structure Handler where
  btnFuncApp : Option (List Char)
  btnFuncApp2 : Option (List Char)
  btnFuncTimestamp : Int
deriving DecidableEq, Repr

/-- The setting that was selected, the actions that were invoked, and the result. -/
structure Output where
  selected : Option Press
  actions : List Action
  consumed : Bool
deriving DecidableEq, Repr

/-- `String.trim`: what is not above a blank is taken away at both ends. -/
def trim (text : List Char) : List Char :=
  ((text.dropWhile (· ≤ ' ')).reverse.dropWhile (· ≤ ' ')).reverse

def Handler.updateSettings (h : Handler) (app app2 : Option (List Char)) : Handler :=
  { h with btnFuncApp := app.map trim, btnFuncApp2 := app2.map trim }

/-- The constructor. -/
def Handler.new (app app2 : Option (List Char)) : Handler :=
  Handler.updateSettings ⟨none, none, 0⟩ app app2

def Handler.setting (h : Handler) : Press → Option (List Char)
  | .short => h.btnFuncApp
  | .long => h.btnFuncApp2

def nothing : Output :=
  ⟨none, [], false⟩

/-- The branch for the function key going up. -/
def Handler.keyUp (h : Handler) (now : Int) : Handler × Output :=
  let press := if now - h.btnFuncTimestamp < btnFuncTimestampDelta then Press.short else .long
  let released := { h with btnFuncTimestamp := 0 }
  match h.setting press with
  | none => (released, ⟨some press, [], false⟩)
  | some uri =>
      if 0 < uri.length then
        (released, ⟨some press, [if uri = "camera".toList then .action else .actionEx uri], true⟩)
      else (released, ⟨some press, [], false⟩)

def Handler.handleKeyEvent (h : Handler) (now : Int) (event : KeyEvent) : Handler × Output :=
  if event.keyCode = keycodeFunction then
    let h₁ := if event.action = .down then { h with btnFuncTimestamp := now } else h
    if event.action = .up ∧ 0 < h₁.btnFuncTimestamp then h₁.keyUp now else (h₁, nothing)
  else (h, nothing)

/-- One call at a time. -/
def Handler.step (h : Handler) (now : Int) : Input → Handler × Output
  | .key e => h.handleKeyEvent now e
  | .settings app app2 => (h.updateSettings app app2, nothing)

def Handler.after (h : Handler) (history : List (Int × Input)) : Handler :=
  history.foldl (fun h x => (h.step x.1 x.2).1) h

/-! ## Holds -/

/-- The key is down: since when, and the time of the last down event. -/
structure Hold where
  first : Int
  last : Int
deriving DecidableEq, Repr

def Input.isFunctionKey (i : Input) (a : KeyAction) : Bool :=
  match i with
  | .key e => e.keyCode = keycodeFunction && e.action = a
  | .settings _ _ => false

/-- A down event starts a hold or is one more of it, an up event ends it. -/
def holdStep (hold : Option Hold) (x : Int × Input) : Option Hold :=
  if x.2.isFunctionKey .down then
    match hold with
    | none => some ⟨x.1, x.1⟩
    | some hd => some { hd with last := x.1 }
  else if x.2.isFunctionKey .up then none
  else hold

/-- The hold that is open after some events. -/
def holdAfter (history : List (Int × Input)) : Option Hold :=
  history.foldl holdStep none

/-- The settings after some events. -/
def settingsAfter (start : Option (List Char) × Option (List Char))
    (history : List (Int × Input)) : Option (List Char) × Option (List Char) :=
  history.foldl (fun s x =>
    match x.2 with
    | .settings app app2 => (app, app2)
    | .key _ => s) start

/-- The text of a setting as the handler uses it. -/
def settingFor (s : Option (List Char) × Option (List Char)) : Press → Option (List Char)
  | .short => s.1.map trim
  | .long => s.2.map trim

def actionFor (uri : List Char) : Action :=
  if uri = "camera".toList then .action else .actionEx uri

/-- Calls of the handler at times that are positive and do not go back. -/
structure Calls where
  events : List (Int × Input)
  positive : ∀ x ∈ events, 0 < x.1
  ordered : events.Pairwise fun x y => x.1 ≤ y.1

/-! ## Correct outputs -/

/-- An up event that ends a hold selects by the time since the first down event, and
invokes one action if the setting is not empty.  Nothing else invokes an action, and
exactly the events that do are consumed. -/
structure Correct (start : Option (List Char) × Option (List Char))
    (history : List (Int × Input)) (now : Int) (i : Input) (o : Output) : Prop where
  classified : ∀ hd, i.isFunctionKey .up = true → holdAfter history = some hd →
    o.selected = some (if btnFuncTimestampDelta ≤ now - hd.first then .long else .short)
  unselected : i.isFunctionKey .up = false ∨ holdAfter history = none → o.selected = none
  invoked : ∀ press uri, o.selected = some press →
    settingFor (settingsAfter start history) press = some uri → uri ≠ [] →
    o.actions = [actionFor uri]
  quiet : ∀ press, o.selected = some press →
    settingFor (settingsAfter start history) press = none ∨
      settingFor (settingsAfter start history) press = some [] → o.actions = []
  idle : o.selected = none → o.actions = []
  consumed : o.consumed = true ↔ o.actions ≠ []

/-- Every call of a run has the output that it should have. -/
def Classified (start : Option (List Char) × Option (List Char)) (c : Calls) : Prop :=
  ∀ history now i rest, c.events = history ++ (now, i) :: rest →
    Correct start history now i (((Handler.new start.1 start.2).after history).step now i).2

/-- A hold that is long is still long when it is measured from its last down event. -/
def NotShortened (c : Calls) : Prop :=
  ∀ history now i rest hd, c.events = history ++ (now, i) :: rest →
    i.isFunctionKey .up = true → holdAfter history = some hd →
    btnFuncTimestampDelta ≤ now - hd.first → btnFuncTimestampDelta ≤ now - hd.last

/-! ## One call -/

/-- The time that the handler keeps for a hold. -/
def timestampOf : Option Hold → Int
  | none => 0
  | some hd => hd.last

/-- The handler for some settings and an open hold. -/
def handlerFor (s : Option (List Char) × Option (List Char)) (hold : Option Hold) : Handler :=
  ⟨s.1.map trim, s.2.map trim, timestampOf hold⟩

/-- A hold has begun at a positive time, and its last down event was not before. -/
def Hold.Valid (hd : Hold) : Prop :=
  0 < hd.first ∧ hd.first ≤ hd.last

theorem handlerFor_setting (s : Option (List Char) × Option (List Char)) (hold : Option Hold)
    (press : Press) : (handlerFor s hold).setting press = settingFor s press := by
  cases press with
  | short => rfl
  | long => rfl

theorem keyUp_fst (h : Handler) (now : Int) : (h.keyUp now).1 = { h with btnFuncTimestamp := 0 } := by
  unfold Handler.keyUp
  dsimp only
  split
  · rfl
  · split
    · rfl
    · rfl

/-- An up event finds the time exactly if there is a hold. -/
theorem timestampOf_pos_iff {hold : Option Hold} (h : ∀ hd ∈ hold, hd.Valid) :
    0 < timestampOf hold ↔ hold.isSome = true := by
  cases hold with
  | none => simp [timestampOf]
  | some hd =>
      obtain ⟨hpos, hle⟩ := h hd rfl
      simp only [timestampOf, Option.isSome_some, iff_true]
      omega

/-- The handler keeps the settings, and the time of the last down event of the hold. -/
theorem step_handlerFor {s : Option (List Char) × Option (List Char)} {hold : Option Hold}
    (h : ∀ hd ∈ hold, hd.Valid) (now : Int) (i : Input) :
    ((handlerFor s hold).step now i).1 =
      handlerFor (settingsAfter s [(now, i)]) (holdStep hold (now, i)) := by
  have hpos := timestampOf_pos_iff h
  cases i with
  | settings app app2 => rfl
  | key e =>
      by_cases hkey : e.keyCode = keycodeFunction
      · cases haction : e.action with
        | down =>
            cases hold with
            | none =>
                simp [Handler.step, Handler.handleKeyEvent, hkey, haction, settingsAfter, holdStep,
                  Input.isFunctionKey, handlerFor, timestampOf]
            | some hd =>
                simp [Handler.step, Handler.handleKeyEvent, hkey, haction, settingsAfter, holdStep,
                  Input.isFunctionKey, handlerFor, timestampOf]
        | up =>
            have hhold : holdStep hold (now, .key e) = none := by
              simp [holdStep, Input.isFunctionKey, hkey, haction]
            simp only [Handler.step, Handler.handleKeyEvent, hkey, haction, hhold, if_true,
              reduceCtorEq, if_false, true_and]
            split
            · rw [keyUp_fst]
              rfl
            · rename_i hzero
              cases hold with
              | none => rfl
              | some hd => exact absurd (hpos.mpr rfl) hzero
        | multiple =>
            simp [Handler.step, Handler.handleKeyEvent, hkey, haction, settingsAfter, holdStep,
              Input.isFunctionKey]
      · simp [Handler.step, Handler.handleKeyEvent, hkey, settingsAfter, holdStep,
          Input.isFunctionKey]

theorem valid_holdStep {hold : Option Hold} {now : Int} (hnow : 0 < now)
    (hlast : ∀ hd ∈ hold, hd.Valid ∧ hd.last ≤ now) (i : Input) :
    ∀ hd ∈ holdStep hold (now, i), hd.Valid ∧ hd.last ≤ now := by
  unfold holdStep
  split
  · cases hold with
    | none =>
        intro hd heq
        cases heq
        exact ⟨⟨hnow, Int.le_refl now⟩, Int.le_refl now⟩
    | some old =>
        intro hd heq
        cases heq
        obtain ⟨⟨hpos, hle⟩, hbefore⟩ := hlast old rfl
        exact ⟨⟨hpos, Int.le_trans hle hbefore⟩, Int.le_refl now⟩
  · split
    · intro hd heq
      cases heq
    · exact hlast

/-! ## Runs -/

/-- What is known after some events, and at any later time. -/
structure Tracked (start : Option (List Char) × Option (List Char))
    (history : List (Int × Input)) : Prop where
  handler : (Handler.new start.1 start.2).after history =
    handlerFor (settingsAfter start history) (holdAfter history)
  hold : ∀ now, (∀ x ∈ history, x.1 ≤ now) → ∀ hd ∈ holdAfter history, hd.Valid ∧ hd.last ≤ now

/-- The handler keeps track of the last down event of a hold through every run. -/
theorem tracked (start : Option (List Char) × Option (List Char)) {history : List (Int × Input)}
    (hpositive : ∀ x ∈ history, 0 < x.1) (hordered : history.Pairwise fun x y => x.1 ≤ y.1) :
    Tracked start history := by
  induction history using List.reverseRecOn with
  | nil =>
      refine ⟨rfl, ?_⟩
      intro now _ hd hhd
      cases hhd
  | append_singleton history x ih =>
      obtain ⟨hbefore, -, hlast⟩ := List.pairwise_append.mp hordered
      have hold := ih (fun y hy => hpositive y (List.mem_append_left _ hy)) hbefore
      have hnow := hold.hold x.1 fun y hy => hlast y hy x (List.mem_singleton.mpr rfl)
      have hstep := valid_holdStep (hpositive x (by simp)) hnow x.2
      refine ⟨?_, ?_⟩
      · have hone := step_handlerFor (s := settingsAfter start history)
          (fun hd hhd => (hnow hd hhd).1) x.1 x.2
        rw [Handler.after, List.foldl_append, List.foldl_cons, List.foldl_nil]
        rw [← Handler.after, hold.handler, hone]
        simp only [settingsAfter, holdAfter, List.foldl_append, List.foldl_cons, List.foldl_nil]
      · intro now hle hd hhd
        rw [holdAfter, List.foldl_append] at hhd
        obtain ⟨hvalid, hlast⟩ := hstep hd hhd
        exact ⟨hvalid, Int.le_trans hlast (hle x (by simp))⟩

/-! ## Outputs -/

/-- What the handler selects for a hold. -/
def measured (now : Int) (hd : Hold) : Press :=
  if now - hd.last < btnFuncTimestampDelta then .short else .long

/-- The output for a setting that was selected. -/
def outputFor (press : Press) (setting : Option (List Char)) : Output :=
  match setting with
  | none => ⟨some press, [], false⟩
  | some uri => if 0 < uri.length then ⟨some press, [actionFor uri], true⟩ else ⟨some press, [], false⟩

/-- An up event that ends a hold. -/
theorem step_output_up {s : Option (List Char) × Option (List Char)} {hd : Hold}
    (hvalid : hd.Valid) (now : Int) {i : Input} (hi : i.isFunctionKey .up = true) :
    ((handlerFor s (some hd)).step now i).2 =
      outputFor (measured now hd) (settingFor s (measured now hd)) := by
  cases i with
  | settings app app2 => cases hi
  | key e =>
      simp only [Input.isFunctionKey, Bool.and_eq_true, decide_eq_true_eq] at hi
      obtain ⟨hkey, haction⟩ := hi
      have hpos : 0 < (handlerFor s (some hd)).btnFuncTimestamp :=
        Int.lt_of_lt_of_le hvalid.1 hvalid.2
      have hstep : (handlerFor s (some hd)).step now (.key e) =
          (handlerFor s (some hd)).keyUp now := by
        simp only [Handler.step, Handler.handleKeyEvent, hkey, haction, if_true, reduceCtorEq,
          if_false, true_and, hpos]
      have hpress : (if now - (handlerFor s (some hd)).btnFuncTimestamp < btnFuncTimestampDelta
          then Press.short else .long) = measured now hd := rfl
      rw [hstep, Handler.keyUp]
      simp only [hpress, handlerFor_setting]
      cases settingFor s (measured now hd) with
      | none => rfl
      | some uri =>
          by_cases huri : 0 < uri.length
          · simp only [outputFor, if_pos huri, actionFor]
          · simp only [outputFor, if_neg huri]

/-- Every other event. -/
theorem step_output_nothing {s : Option (List Char) × Option (List Char)} {hold : Option Hold}
    (now : Int) {i : Input} (hi : i.isFunctionKey .up = false ∨ hold = none) :
    ((handlerFor s hold).step now i).2 = nothing := by
  cases i with
  | settings app app2 => rfl
  | key e =>
      by_cases hkey : e.keyCode = keycodeFunction
      · cases haction : e.action with
        | down => simp [Handler.step, Handler.handleKeyEvent, hkey, haction]
        | up =>
            rcases hi with hno | rfl
            · simp [Input.isFunctionKey, hkey, haction] at hno
            · simp [Handler.step, Handler.handleKeyEvent, hkey, haction, handlerFor, timestampOf]
        | multiple => simp [Handler.step, Handler.handleKeyEvent, hkey, haction]
      · simp [Handler.step, Handler.handleKeyEvent, hkey]

/-- The handler selects as it should exactly if a long hold is long from its last down
event too. -/
theorem measured_eq_iff {now : Int} {hd : Hold} (hvalid : hd.Valid) :
    measured now hd = (if btnFuncTimestampDelta ≤ now - hd.first then .long else .short) ↔
      (btnFuncTimestampDelta ≤ now - hd.first → btnFuncTimestampDelta ≤ now - hd.last) := by
  obtain ⟨-, hle⟩ := hvalid
  unfold measured
  by_cases hlast : now - hd.last < btnFuncTimestampDelta
  · by_cases hfirst : btnFuncTimestampDelta ≤ now - hd.first
    · simp [hlast, hfirst]
    · simp [hlast, hfirst]
  · have hfirst : btnFuncTimestampDelta ≤ now - hd.first := by omega
    simp [hlast, hfirst]
    omega

theorem correct_nothing {start : Option (List Char) × Option (List Char)}
    {history : List (Int × Input)} {now : Int} {i : Input}
    (hi : i.isFunctionKey .up = false ∨ holdAfter history = none) :
    Correct start history now i nothing where
  classified := by
    intro hd hup hhold
    rcases hi with hno | hnone
    · rw [hup] at hno
      cases hno
    · rw [hhold] at hnone
      cases hnone
  unselected _ := rfl
  invoked := by
    intro press uri hpress
    cases hpress
  quiet := by
    intro press hpress
    cases hpress
  idle _ := rfl
  consumed := by
    simp [nothing]

/-- One action for a setting that is not empty, and none for the others. -/
theorem outputFor_spec (press : Press) (setting : Option (List Char)) :
    (outputFor press setting).selected = some press ∧
      (∀ uri, setting = some uri → uri ≠ [] →
        (outputFor press setting).actions = [actionFor uri]) ∧
      (setting = none ∨ setting = some [] → (outputFor press setting).actions = []) ∧
      ((outputFor press setting).consumed = true ↔ (outputFor press setting).actions ≠ []) := by
  cases setting with
  | none => simp [outputFor]
  | some uri =>
      cases uri with
      | nil => simp [outputFor]
      | cons c uri => simp [outputFor]

theorem correct_up {start : Option (List Char) × Option (List Char)}
    {history : List (Int × Input)} {now : Int} {i : Input} {hd : Hold} (hvalid : hd.Valid)
    (hi : i.isFunctionKey .up = true) (hhold : holdAfter history = some hd) :
    Correct start history now i
        ((handlerFor (settingsAfter start history) (some hd)).step now i).2 ↔
      (btnFuncTimestampDelta ≤ now - hd.first → btnFuncTimestampDelta ≤ now - hd.last) := by
  rw [← measured_eq_iff hvalid, step_output_up hvalid now hi]
  obtain ⟨hselected, hinvoked, hquiet, hconsumed⟩ := outputFor_spec (measured now hd)
    (settingFor (settingsAfter start history) (measured now hd))
  constructor
  · intro h
    have hclass := h.classified hd hi hhold
    rw [hselected] at hclass
    exact Option.some.inj hclass
  · intro hmeasured
    constructor
    · intro hd' _ hhold'
      rw [hhold] at hhold'
      cases hhold'
      rw [hselected, hmeasured]
    · rintro (hno | hnone)
      · rw [hi] at hno
        cases hno
      · rw [hhold] at hnone
        cases hnone
    · intro press uri hpress huri hne
      rw [hselected] at hpress
      cases hpress
      exact hinvoked uri huri hne
    · intro press hpress hempty
      rw [hselected] at hpress
      cases hpress
      exact hquiet hempty
    · intro hnone
      rw [hselected] at hnone
      cases hnone
    · exact hconsumed

/-- **The function key.**  In a run of calls every up event selects by the length of its
hold, every other event does nothing, and exactly the events with an action are
consumed, if and only if no hold of 400 ms or more has a down event in its last
400 ms. -/
theorem presses_classified_iff (start : Option (List Char) × Option (List Char)) (c : Calls) :
    Classified start c ↔ NotShortened c := by
  have hcall {history rest : List (Int × Input)} {now : Int} {i : Input}
      (h : c.events = history ++ (now, i) :: rest) :
      Tracked start history ∧ ∀ hd ∈ holdAfter history, hd.Valid := by
    have hordered := c.ordered
    have hpositive := c.positive
    rw [h] at hordered hpositive
    obtain ⟨hhistory, -, hlater⟩ := List.pairwise_append.mp hordered
    have ht := tracked start (fun x hx => hpositive x (List.mem_append_left _ hx)) hhistory
    refine ⟨ht, fun hd hhd => (ht.hold now ?_ hd hhd).1⟩
    exact fun x hx => hlater x hx (now, i) List.mem_cons_self
  constructor
  · intro h history now i rest hd hevents hi hhold hlong
    obtain ⟨ht, hvalid⟩ := hcall hevents
    have hcorrect := h history now i rest hevents
    rw [ht.handler, hhold] at hcorrect
    exact (correct_up (hvalid hd hhold) hi hhold).mp hcorrect hlong
  · intro h history now i rest hevents
    obtain ⟨ht, hvalid⟩ := hcall hevents
    rw [ht.handler]
    by_cases hnothing : i.isFunctionKey .up = false ∨ holdAfter history = none
    · rw [step_output_nothing now hnothing]
      exact correct_nothing hnothing
    · have hi : i.isFunctionKey .up = true :=
        Bool.not_eq_false _ |>.mp fun hno => hnothing (.inl hno)
      cases hhold : holdAfter history with
      | none => exact absurd (.inr hhold) hnothing
      | some hd =>
          exact (correct_up (hvalid hd hhold) hi hhold).mpr
            (h history now i rest hd hevents hi hhold)

/-- The function key. -/
def functionKey (action : KeyAction) (repeatCount : Nat) : Input :=
  .key ⟨keycodeFunction, action, repeatCount⟩

/-- The key is held for 600 ms, with one repeated event after 500 ms. -/
def repeatedHold : Calls where
  events := [(1000, functionKey .down 0), (1500, functionKey .down 1), (1600, functionKey .up 0)]
  positive := by decide
  ordered := by decide

/-- The hold is long, and is taken for a short press. -/
theorem repeated_hold_misclassified :
    ¬ Classified (some "camera".toList, some "org.torch".toList) repeatedHold := by
  intro h
  have hclass := (h [(1000, functionKey .down 0), (1500, functionKey .down 1)] 1600
    (functionKey .up 0) [] rfl).classified ⟨1000, 1500⟩ (by decide) (by decide)
  exact absurd hclass (by decide)

end Keyhandler
