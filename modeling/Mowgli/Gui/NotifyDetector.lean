import Mowgli.Gui.SessionTracker

/-!
# NotifyDetector — the sessions of the notifications

`notify_events.go`: the events a status produces. The detector keeps a session of its own, which
mirrors the tracker's (a recharge keeps it open), except that **`MOWING_COMPLETE` ends it the moment
it is entered**.
-/

namespace Mowgli
namespace Gui
namespace Sessions

inductive NotifyKind where
  | mowStarted
  | zoneStarted
  | zoneFinished
  | mowComplete
  | mowStopped
  | blocked
  | emergency
  | battery
  | rain
  | waitingForRtk
  deriving DecidableEq

/-- Message ids; what a message says is looked up by its id. -/
inductive NotifyMsg where
  | mowStarted
  | zoneStarted
  | zoneFinished
  | zoneChanged
  | mowComplete
  | docked
  | mowStopped
  | digObstruction
  | navFailed
  | emergency
  | batteryLow
  | batteryResumed
  | rainDetected
  | rainResumed
  | rainTimeout
  | rtkWaiting
  | rtkRecovered
  deriving DecidableEq

/-- `map[string]string`. -/
abbrev Params := String → Option String

structure NotifyEvent where
  kind : NotifyKind
  message : NotifyMsg
  priority : Nat
  params : Params
  at_ : Int

def notifyPriorityLow : Nat := 2

def notifyPriorityDefault : Nat := 3

def notifyPriorityHigh : Nat := 4

def notifyPriorityMax : Nat := 5

/-- 120 and 60 seconds, in nanoseconds. -/
def notifyRtkDwell : Int := 120000000000

def notifyCooldown : Int := 60000000000

def blockedStates (stateName : String) : Bool :=
  stateName = "NAV_TO_DOCK_FAILED" ∨ stateName = "COVERAGE_FAILED_DOCKING" ∨
    stateName = "UNDOCK_FAILED" ∨ stateName = "CHARGER_FAILED" ∨
    stateName = "CRITICAL_BATTERY_NAV_FAILED"

/-- What a repeat is a repeat of. -/
structure CooldownKey where
  message : NotifyMsg
  areaIndex : String := ""
  nextIndex : String := ""
  deriving DecidableEq

structure NotifyDetector where
  prevState : String := ""
  prevMowing : Bool := false
  inSession : Bool := false
  rechargePaused : Bool := false
  currentArea : Int := -1
  areaPeak : ℚ := 0
  emergency : Bool := false
  rtkSince : Option Int := none
  rtkNotified : Bool := false
  lastEventAt : Option Int := none
  lastSent : CooldownKey → Option Int := fun _ => none
  areaNames : Int → String := fun _ => ""
  reportedFailures : List String := []
  failuresChanged : Bool := false

/-! ## Texts -/

/-- `%.0f`: halves to even. -/
def roundHalfEven (v : ℚ) : Int :=
  let below := ⌊v⌋
  if v - below < 1 / 2 then below
  else if 1 / 2 < v - below then below + 1
  else if below % 2 = 0 then below
  else below + 1

def formatPercent (v : ℚ) : String :=
  (if v < 0 ∧ roundHalfEven v = 0 then "-0" else toString (roundHalfEven v)) ++ " %"

/-- Halves away from zero; nothing below a minute is shown. -/
def formatMinutes (d : Int) : String :=
  let minutes := (d + 30000000000) / 60000000000
  toString (if minutes < 1 then 1 else minutes) ++ " min"

def maxFloat32 (a b : ℚ) : ℚ := if b < a then a else b

def param (params : Params) (key : String) : String := (params key).getD ""

def notificationCooldownKey (message : NotifyMsg) (params : Params) : CooldownKey :=
  match message with
  | .zoneStarted | .zoneFinished => { message, areaIndex := param params "areaIndex" }
  | .zoneChanged =>
    { message, areaIndex := param params "areaIndex", nextIndex := param params "nextIndex" }
  | _ => { message }

def noParams : Params := fun _ => none

def NotifyDetector.areaParams (d : NotifyDetector) (nameKey indexKey : String) (index : Int) :
    Params :=
  Function.update (Function.update noParams nameKey (some (d.areaNames index))) indexKey
    (some (toString (index + 1)))

/-! ## One status -/

/-- A status on its way through the detector. -/
structure Tick where
  d : NotifyDetector
  events : List NotifyEvent := []

variable (st : HighLevelStatus) (now : Int) (wantsKind : NotifyKind → Bool)

def NotifyDetector.pastCooldown (d : NotifyDetector) (key : CooldownKey) : Bool :=
  match d.lastSent key with
  | none => true
  | some last => notifyCooldown ≤ now - last

def emit (kind : NotifyKind) (message : NotifyMsg) (priority : Nat) (params : Params) (t : Tick) :
    Tick :=
  let params := Function.update params "state" (some st.state_name)
  let params := Function.update params "battery" (some (formatPercent st.battery_percent))
  let key := notificationCooldownKey message params
  if message ≠ .navFailed ∧ ¬t.d.pastCooldown now key then t
  else
    { d := { t.d with
        lastSent := Function.update t.d.lastSent key (some now)
        lastEventAt := some now }
      events := t.events ++ [{ kind, message, priority, params, at_ := now }] }

def NotifyDetector.endSession (d : NotifyDetector) : NotifyDetector :=
  { d with inSession := false, rechargePaused := false, currentArea := -1, areaPeak := 0 }

def NotifyDetector.isResumablePause (d : NotifyDetector) : Bool :=
  if d.inSession = false then false else isResumableMowingPause st.state_name

def clearsFailureIncident (failure : String) : Bool :=
  if st.state_name ∈ ["PREFLIGHT_CHECK", "UNDOCKING", "RESUMING_UNDOCKING", "MOWING", "TRANSIT",
      "PLANNING", "RETURNING_HOME", "LOW_BATTERY_DOCKING", "CRITICAL_BATTERY_DOCKING"] then
    st.state = highLevelStateAutonomous
  else if st.state_name ∈ ["CHARGING", "CRITICAL_BATTERY_CHARGING", "IDLE_DOCKED",
      "MANUAL_CHARGING"] then
    st.is_charging ∧ failure ≠ "CHARGER_FAILED"
  else false

def NotifyDetector.clearFailures (d : NotifyDetector) : NotifyDetector :=
  { d with
    reportedFailures := d.reportedFailures.filter fun failure => !clearsFailureIncident st failure
    failuresChanged := d.failuresChanged || d.reportedFailures.any (clearsFailureIncident st) }

def onAreaChanged (next : Int) (t : Tick) : Tick :=
  let prevArea := t.d.currentArea
  let prevPeak := t.d.areaPeak
  let t := { t with d := { t.d with currentArea := next, areaPeak := 0 } }
  let started := t.d.areaParams "area" "areaIndex" next
  if prevArea < 0 then emit st now .zoneStarted .zoneStarted notifyPriorityLow started t
  else
    let finished := Function.update (t.d.areaParams "area" "areaIndex" prevArea) "coverage"
      (some (formatPercent prevPeak))
    if wantsKind .zoneFinished ∧ wantsKind .zoneStarted then
      let nextParams := t.d.areaParams "next" "nextIndex" next
      emit st now .zoneStarted .zoneChanged notifyPriorityLow
        (fun key => (nextParams key).or (finished key)) t
    else
      emit st now .zoneStarted .zoneStarted notifyPriorityLow started
        (emit st now .zoneFinished .zoneFinished notifyPriorityLow finished t)

def beginSession (t : Tick) : Tick :=
  if t.d.inSession = false then
    emit st now .mowStarted .mowStarted notifyPriorityDefault noParams
      { t with d := { t.d with
          inSession := true, rechargePaused := false, currentArea := -1, areaPeak := 0 } }
  else if t.d.rechargePaused then
    emit st now .battery .batteryResumed notifyPriorityDefault noParams
      { t with d := { t.d with rechargePaused := false } }
  else t

def onMowingTick (t : Tick) : Tick :=
  let t := beginSession st now t
  let t :=
    if 0 ≤ st.current_area ∧ st.current_area ≠ t.d.currentArea then
      onAreaChanged st now wantsKind st.current_area t
    else t
  if st.current_area = t.d.currentArea ∧ t.d.areaPeak < st.coverage_percent then
    { t with d := { t.d with areaPeak := st.coverage_percent } }
  else t

def completed (t : Tick) : Tick :=
  let params :=
    if 0 ≤ t.d.currentArea then
      Function.update (t.d.areaParams "area" "areaIndex" t.d.currentArea) "coverage"
        (some (formatPercent (maxFloat32 t.d.areaPeak st.coverage_percent)))
    else noParams
  emit st now .mowComplete .mowComplete notifyPriorityDefault params
    { t with d := t.d.endSession }

def onStateEntered (prev : String) (t : Tick) : Tick :=
  let t :=
    if st.state_name = "MOWING_COMPLETE" then completed st now t
    else if prev = "MOWING_COMPLETE" ∧
        (st.state_name = "CHARGING" ∨ st.state_name = "IDLE_DOCKED") then
      emit st now .mowComplete .docked notifyPriorityLow noParams t
    else if st.state_name = "DIG_OBSTRUCTION" then
      emit st now .blocked .digObstruction notifyPriorityMax noParams t
    else if blockedStates st.state_name then
      if st.state_name ∈ t.d.reportedFailures then t
      else
        emit st now .blocked .navFailed notifyPriorityHigh noParams
          { t with d := { t.d with
              reportedFailures := t.d.reportedFailures ++ [st.state_name]
              failuresChanged := true } }
    else if st.state_name = "CRITICAL_BATTERY_DOCKING" then
      emit st now .battery .batteryLow notifyPriorityDefault noParams t
    else if st.state_name = "RAIN_DETECTED_DOCKING" then
      emit st now .rain .rainDetected notifyPriorityDefault noParams t
    else if st.state_name = "RESUMING_AFTER_RAIN" then
      emit st now .rain .rainResumed notifyPriorityLow noParams t
    else if st.state_name = "RAIN_TIMEOUT" then
      emit st now .rain .rainTimeout notifyPriorityDefault noParams t
    else t
  if t.d.inSession ∧ isRechargeMowingPause st.state_name ∧ prev ≠ "MOWING_COMPLETE" then
    { t with d := { t.d with rechargePaused := true } }
  else t

def trackRtkDwell (entered : Bool) (t : Tick) : Tick :=
  if st.state_name = "WAITING_FOR_RTK" then
    let t :=
      if entered ∨ t.d.rtkSince = none then
        { t with d := { t.d with rtkSince := some now, rtkNotified := false } }
      else t
    let waited := now - t.d.rtkSince.getD now
    if t.d.rtkNotified = false ∧ notifyRtkDwell ≤ waited then
      emit st now .waitingForRtk .rtkWaiting notifyPriorityDefault
        (Function.update noParams "minutes" (some (formatMinutes waited)))
        { t with d := { t.d with rtkNotified := true } }
    else t
  else
    let t :=
      if t.d.rtkNotified ∧ entered then
        emit st now .waitingForRtk .rtkRecovered notifyPriorityLow noParams t
      else t
    { t with d := { t.d with rtkSince := none, rtkNotified := false } }

def raiseEmergency (t : Tick) : Tick :=
  let t :=
    if st.emergency ∧ t.d.emergency = false then
      emit st now .emergency .emergency notifyPriorityMax noParams t
    else t
  { t with d := { t.d with emergency := st.emergency } }

/-- Two ticks that do not count: the end of a session that was not completed. -/
def stopSession (isMowing wasMowing : Bool) (t : Tick) : Tick :=
  if t.d.inSession ∧ ¬isMowing ∧ ¬wasMowing ∧ ¬t.d.isResumablePause st ∧
      st.state_name ≠ "MOWING_COMPLETE" then
    let t := { t with d := t.d.endSession }
    let quiet :=
      match t.d.lastEventAt with
      | none => true
      | some last => decide (notifyCooldown ≤ now - last)
    if quiet then emit st now .mowStopped .mowStopped notifyPriorityDefault noParams t
    else t
  else t

def NotifyDetector.OnStatus (d : NotifyDetector) : NotifyDetector × List NotifyEvent :=
  let prev := d.prevState
  let entered : Bool := st.state_name ≠ prev
  let d := { d with prevState := st.state_name }
  let t := raiseEmergency st now { d := d.clearFailures st }
  let isMowing := st.isMowing
  let wasMowing := t.d.prevMowing
  let t := { t with d := { t.d with prevMowing := isMowing } }
  let t := if isMowing then onMowingTick st now wantsKind t else t
  let t := if entered then onStateEntered st now prev t else t
  let t := trackRtkDwell st now entered t
  let t := stopSession st now isMowing wasMowing t
  (t.d, t.events)

end Sessions
end Gui
end Mowgli
