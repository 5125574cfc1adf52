import Mathlib.Data.Rat.Floor

/-!
# SessionTracker — the sessions of the statistics

`mowing_session.go`: what counts as mowing, and which holds the mow is resumed from by itself.
`session_tracker.go`: one session from the first status that counts to **the second in a row that
does not**, unless the hold is one of these.
-/

namespace Mowgli
namespace Gui
namespace Sessions

/-- What the two observers read of the high-level status. -/
structure HighLevelStatus where
  state : Int
  state_name : String
  emergency : Bool := false
  battery_percent : ℚ := 0
  current_area : Int := -1
  coverage_percent : ℚ := 0
  completed_swaths : Int := 0
  skipped_swaths : Int := 0
  is_charging : Bool := false

/-! ## `mowing_session.go` -/

def highLevelStateAutonomous : Int := 2

def isActiveMowingSessionStatus (state : Int) (stateName : String) : Bool :=
  state = highLevelStateAutonomous ∧ stateName ≠ "MOWING_COMPLETE"

def isResumableMowingPause (stateName : String) : Bool :=
  stateName = "CHARGING" ∨ stateName = "CRITICAL_BATTERY_CHARGING" ∨
    stateName = "MANUAL_CHARGING" ∨ stateName = "RAIN_WAITING"

def isRechargeMowingPause (stateName : String) : Bool :=
  stateName = "CHARGING" ∨ stateName = "CRITICAL_BATTERY_CHARGING"

abbrev HighLevelStatus.isMowing (status : HighLevelStatus) : Bool :=
  isActiveMowingSessionStatus status.state status.state_name

/-! ## The tracker -/

/-- Times are nanoseconds; `StartTime`, `EndTime` and `ID` are texts of them. -/
structure MowingSessionRecord where
  id : Int
  start_time : Int
  end_time : Int
  duration : Int
  area_index : Int
  coverage_percent : ℚ
  strips_completed : UInt32
  strips_skipped : UInt32
  distance_meters : ℚ
  status : String
  recharge_pauses : Nat
  errors : List String

structure SessionTracker where
  currentState : String := ""
  currentMowing : Bool := false
  sessionStart : Int := 0
  inSession : Bool := false
  paused : Bool := false
  pauseCount : Nat := 0
  coveragePeak : ℚ := 0
  stripsCompleted : UInt32 := 0
  stripsSkipped : UInt32 := 0
  /-- Kept by `OnOdometry`. -/
  distanceMeters : ℚ := 0
  hasOdom : Bool := false

/-- `minSessionDurationSec`, in nanoseconds. -/
def minSessionDuration : Int := 20000000000

def peak (swaths : Int) (strips : UInt32) : UInt32 :=
  if 0 < swaths ∧ strips < UInt32.ofNat swaths.toNat then UInt32.ofNat swaths.toNat else strips

def SessionTracker.captureProgress (s : SessionTracker) (status : HighLevelStatus) :
    SessionTracker :=
  { s with
    coveragePeak :=
      if s.coveragePeak < status.coverage_percent then status.coverage_percent else s.coveragePeak
    stripsCompleted := peak status.completed_swaths s.stripsCompleted
    stripsSkipped := peak status.skipped_swaths s.stripsSkipped }

def SessionTracker.start (s : SessionTracker) (status : HighLevelStatus) (now : Int) :
    SessionTracker :=
  let s :=
    { s with
      inSession := true
      paused := false
      pauseCount := 0
      coveragePeak := 0
      stripsCompleted := 0
      stripsSkipped := 0
      distanceMeters := 0
      hasOdom := false }
  { s.captureProgress status with sessionStart := now }

def SessionTracker.pause (s : SessionTracker) (status : HighLevelStatus) : SessionTracker :=
  if s.paused then s
  else
    { s with
      paused := true
      pauseCount :=
        if isRechargeMowingPause status.state_name then s.pauseCount + 1 else s.pauseCount }

def sessionStatus (status : HighLevelStatus) : String :=
  if status.state_name = "IDLE_DOCKED" ∨ status.state_name = "MOWING_COMPLETE" then "completed"
  else if status.state_name = "COVERAGE_FAILED_DOCKING" ∨
      status.state_name = "NAV_TO_DOCK_FAILED" then "error"
  else if status.emergency then "error"
  else "aborted"

/-- `math.Round(metres * 10) / 10`: halves away from zero. -/
def roundTenth (metres : ℚ) : ℚ :=
  (if metres < 0 then -⌊-metres * 10 + 1 / 2⌋ else ⌊metres * 10 + 1 / 2⌋ : Int) / 10

/-- The record of the session that ends, unless it was too short to be one. -/
def SessionTracker.finalize (s : SessionTracker) (status : HighLevelStatus) (endTime : Int) :
    Option MowingSessionRecord :=
  if endTime - s.sessionStart < minSessionDuration ∧ status.emergency = false then none
  else
    some
      { id := s.sessionStart / 1000000
        start_time := s.sessionStart
        end_time := endTime
        duration := endTime - s.sessionStart
        area_index := status.current_area
        coverage_percent := s.coveragePeak
        strips_completed := s.stripsCompleted
        strips_skipped := s.stripsSkipped
        distance_meters := roundTenth s.distanceMeters
        status := sessionStatus status
        recharge_pauses := s.pauseCount
        errors := if status.emergency then ["Emergency stop triggered"] else [] }

/-- The tracker after a status, and the session to save. -/
def SessionTracker.OnHighLevelStatus (s : SessionTracker) (status : HighLevelStatus) (now : Int) :
    SessionTracker × Option MowingSessionRecord :=
  let prevState := s.currentState
  let isMowing := status.isMowing
  let wasMowing := s.currentMowing
  let s := { s with currentState := status.state_name, currentMowing := isMowing }
  if isMowing ∧ ¬s.inSession then (s.start status now, none)
  else
    let s := if isMowing ∧ s.inSession then s.captureProgress status else s
    if isMowing ∧ s.inSession ∧ s.paused then ({ s with paused := false }, none)
    else if s.inSession ∧ ¬isMowing ∧ isResumableMowingPause status.state_name ∧
        prevState ≠ "MOWING_COMPLETE" then
      (s.pause status, none)
    else if s.inSession ∧ ¬isMowing ∧ ¬wasMowing then
      ({ s with inSession := false, paused := false }, s.finalize status now)
    else (s, none)

/-! ## What it does to the session -/

variable (s : SessionTracker)

@[simp] theorem pause_inSession (status : HighLevelStatus) :
    (s.pause status).inSession = s.inSession := by
  unfold SessionTracker.pause
  split <;> rfl

@[simp] theorem pause_currentState (status : HighLevelStatus) :
    (s.pause status).currentState = s.currentState := by
  unfold SessionTracker.pause
  split <;> rfl

@[simp] theorem pause_currentMowing (status : HighLevelStatus) :
    (s.pause status).currentMowing = s.currentMowing := by
  unfold SessionTracker.pause
  split <;> rfl

theorem tracker_state (status : HighLevelStatus) (now : Int) :
    (s.OnHighLevelStatus status now).1.currentState = status.state_name := by
  dsimp only [SessionTracker.OnHighLevelStatus]
  repeat' split
  all_goals simp [SessionTracker.start, SessionTracker.captureProgress]

theorem tracker_mowing (status : HighLevelStatus) (now : Int) :
    (s.OnHighLevelStatus status now).1.currentMowing = status.isMowing := by
  dsimp only [SessionTracker.OnHighLevelStatus]
  repeat' split
  all_goals simp [SessionTracker.start, SessionTracker.captureProgress]

theorem tracker_session (status : HighLevelStatus) (now : Int) :
    (s.OnHighLevelStatus status now).1.inSession =
      (status.isMowing || (s.inSession && (s.currentMowing ||
        (isResumableMowingPause status.state_name && s.currentState ≠ "MOWING_COMPLETE")))) := by
  dsimp only [SessionTracker.OnHighLevelStatus]
  cases hm : status.isMowing with
  | true =>
    cases hs : s.inSession with
    | true =>
      simp only [SessionTracker.captureProgress]
      split
      · simp_all
      · simp_all
    | false => simp [SessionTracker.start, SessionTracker.captureProgress]
  | false =>
    by_cases hp : isResumableMowingPause status.state_name = true ∧
        s.currentState ≠ "MOWING_COMPLETE"
    · cases hs : s.inSession <;> simp [hp]
    · have hp' : (isResumableMowingPause status.state_name &&
          decide (s.currentState ≠ "MOWING_COMPLETE")) = false := by
        simpa using hp
      rw [hp']
      cases hs : s.inSession <;> cases hw : s.currentMowing <;> simp [hp]

end Sessions
end Gui
end Mowgli
