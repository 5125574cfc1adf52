import Mowgli.Lib.Binary

/-!
# Policy — the pure rules behind the actuators

The headers the firmware keeps free of hardware: `actuator_authorization.h`,
`blade_emergency_policy.hpp`, `heartbeat_emergency_policy.hpp`,
`emergency_clear_policy.h`, `cmd_vel_safety.hpp`, `motor_output_safety.hpp` and
`pac5210_drive_request.h`. Each definition is the source function of that name; what the
handlers and the motor loop make of them is in the modules after this one.

Ticks and epochs are 32-bit and wrap. **An epoch is never 0 while it has not wrapped**, so
a token of 0 authorizes nothing.
-/

namespace Mowgli
namespace Actuation

open Binary32 (Bits)

/-- `HAL_GetTick()`, in milliseconds. -/
abbrev Tick := BitVec 32

/-- A generation of authorization. -/
abbrev Epoch := BitVec 32

/-! ## Authorization -/

/-- `ActuatorAuthorizationState`. -/
structure Authorization where
  epoch : Epoch
  driveZeroEpoch : Epoch
deriving DecidableEq

namespace Authorization

def invalidate (a : Authorization) : Authorization :=
  { a with epoch := if a.epoch + 1#32 = 0#32 then a.epoch + 2#32 else a.epoch + 1#32 }

/-- A zero arms the epoch; motion needs an armed one. -/
def acceptDrive (a : Authorization) (zeroMotion safetyBoundaryActive : Bool) :
    Bool × Authorization :=
  if safetyBoundaryActive then (false, a)
  else if zeroMotion then (true, { a with driveZeroEpoch := a.epoch })
  else (a.driveZeroEpoch == a.epoch, a)

def driveRequestIsCurrent (a : Authorization) (requestEpoch : Epoch) : Bool :=
  requestEpoch == a.epoch && a.driveZeroEpoch == a.epoch

end Authorization

/-! ## Blade intent -/

structure BladeIntentDecision where
  retainedRequest : Bool
  effectiveOutput : Bool
  requestGeneration : Epoch

def stopBladeIntent (currentGeneration : Epoch) : BladeIntentDecision :=
  { retainedRequest := false, effectiveOutput := false, requestGeneration := currentGeneration }

def bladeOnCommandIsFresh (now lastCmdVel : Tick) (cmdVelSeen : Bool) (cmdVelTimeout : Tick)
    (lastHeartbeat : Tick) (heartbeatSeen : Bool) (heartbeatTimeout : Tick) : Bool :=
  cmdVelSeen && heartbeatSeen && decide (now - lastCmdVel ≤ cmdVelTimeout) &&
    decide (now - lastHeartbeat ≤ heartbeatTimeout)

/-- The request of a command just received, if `command` is one, or the previous request. -/
def decideBladeIntent (previousRequest : Bool) (previousGeneration : Epoch)
    (command : Option (Bool × Epoch)) (idle emergencyActive motorLinkRearmRequired : Bool)
    (currentGeneration : Epoch) : BladeIntentDecision :=
  let request := command.getD (previousRequest, previousGeneration)
  let stale := request.1 && request.2 != currentGeneration
  let safe := request.1 && !(idle || emergencyActive || motorLinkRearmRequired || stale)
  { retainedRequest := safe, effectiveOutput := safe
    requestGeneration := if safe then request.2 else currentGeneration }

/-! ## Heartbeats -/

def heartbeatTimedOut (now last timeout : Tick) : Bool := decide (timeout < now - last)

inductive HeartbeatEmergencyAction where
  | unchanged
  | assert
  | release
  | autoClearWatchdog
deriving DecidableEq

/-- The action, and whether the watchdog-only provenance is consumed. -/
def decideHeartbeatEmergency (emergencyRequested emergencyReleaseRequested physicalEmergency
    watchdogLatchActive : Bool) : HeartbeatEmergencyAction × Bool :=
  if emergencyRequested then (.assert, true)
  else if watchdogLatchActive then
    if physicalEmergency then (.unchanged, true) else (.autoClearWatchdog, true)
  else if emergencyReleaseRequested && !physicalEmergency then (.release, true)
  else (.unchanged, false)

/-! ## The PLAY hold -/

structure EmergencyPhysicalInputs where
  stopYellow : Bool
  stopWhite : Bool
  wheelLiftBlue : Bool
  wheelLiftRed : Bool
  mechanicalTilt : Bool
  accelerometerTilt : Bool
deriving DecidableEq

def EmergencyPhysicalInputs.clear (i : EmergencyPhysicalInputs) : Bool :=
  !i.stopYellow && !i.stopWhite && !i.wheelLiftBlue && !i.wheelLiftRed && !i.mechanicalTilt &&
    !i.accelerometerTilt

/-- `emergency_play_clear_hold_step`: whether the hold is complete, and when it started, 0
    for not at all. -/
def playClearHoldStep (now holdMs : Tick) (playHeld emergencyLatched : Bool)
    (inputs : EmergencyPhysicalInputs) (holdStarted : Tick) : Bool × Tick :=
  if !playHeld || !emergencyLatched || !inputs.clear then (false, 0#32)
  else if holdStarted = 0#32 then (false, now)
  else (decide (holdMs ≤ now - holdStarted), holdStarted)

/-! ## Velocity commands -/

/-- What `apply_safety_for_mode` leaves in its `SafetyState`, the last valid tick apart. -/
structure CmdVelSafety where
  accepted : Bool
  zeroMotionIntent : Bool
  yawInhibited : Bool

def isZero (x : Bits) : Bool := Binary32.eq x 0#32

def applySafety (vx wz : Bits) : CmdVelSafety :=
  if !Binary32.isFinite vx || !Binary32.isFinite wz then
    { accepted := false, zeroMotionIntent := false, yawInhibited := true }
  else
    { accepted := true, zeroMotionIntent := isZero vx && isZero wz
      yawInhibited := isZero vx && isZero wz }

def applySafetyForMode (vx wz : Bits) (idle : Bool) : CmdVelSafety :=
  if idle then
    { accepted := Binary32.isFinite vx && Binary32.isFinite wz && isZero vx && isZero wz
      zeroMotionIntent := true, yawInhibited := true }
  else applySafety vx wz

def authorizationBoundaryActive (idle zeroMotion emergencyActive : Bool) : Bool :=
  emergencyActive || (idle && !zeroMotion)

/-! ## The re-arm of the motor links -/

/-- `LinkRearmState`, over counters of any type. -/
structure LinkRearmState (C : Type) where
  required : Bool
  zeroPhaseBaseline : C
  driveFaultSequence : C
  bladeFaultSequence : C
  rearmCompleted : Bool

/-- `LinkRearmState{}`. -/
def LinkRearmState.powerUp {C : Type} (zero : C) : LinkRearmState C :=
  { required := true, zeroPhaseBaseline := zero, driveFaultSequence := zero
    bladeFaultSequence := zero, rearmCompleted := false }

/-- What one call of `update_link_rearm` is given. -/
structure LinkInputs (C : Type) where
  linksHealthy : Bool
  zeroPhaseSequence : C
  hostZeroIntent : Bool
  bladeOff : Bool
  driveFaultSequence : C
  bladeFaultSequence : C
  linkInhibited : Bool

section
variable {C : Type} [DecidableEq C]

/-- A counter has moved, or the output was inhibited behind the state's back. -/
def LinkRearmState.newFault (s : LinkRearmState C) (i : LinkInputs C) : Bool :=
  i.driveFaultSequence != s.driveFaultSequence || i.bladeFaultSequence != s.bladeFaultSequence ||
    (!s.required && i.linkInhibited)

def updateLinkRearm (s : LinkRearmState C) (i : LinkInputs C) : LinkRearmState C :=
  let s' := { s with
    rearmCompleted := false
    driveFaultSequence := i.driveFaultSequence
    bladeFaultSequence := i.bladeFaultSequence }
  if !i.linksHealthy || s.newFault i then
    { s' with required := true, zeroPhaseBaseline := i.zeroPhaseSequence }
  else if s.required && i.hostZeroIntent && i.bladeOff &&
      i.zeroPhaseSequence != s.zeroPhaseBaseline then
    { s' with required := false, rearmCompleted := true }
  else s'

end

/-! ## The drive request -/

structure DriveRequest where
  direction : BitVec 8
  leftSpeed : BitVec 8
  rightSpeed : BitVec 8
deriving DecidableEq

/-- `pac5210_request_from_signed_pwm`. -/
def requestFromSignedPwm (leftPwm rightPwm : BitVec 16) : DriveRequest :=
  let left := max (-255) (min 255 leftPwm.toInt)
  let right := max (-255) (min 255 rightPwm.toInt)
  { direction := (if 0 < right then 0x30#8 else 0x20#8) ||| (if 0 < left then 0xC0#8 else 0x80#8)
    leftSpeed := BitVec.ofNat 8 left.natAbs
    rightSpeed := BitVec.ofNat 8 right.natAbs }

def shouldStopOutput (emergencyActive idle linkInhibited feedbackHealthy hostZeroIntent
    authorizationCurrent : Bool) : Bool :=
  emergencyActive || idle || linkInhibited || !feedbackHealthy || hostZeroIntent ||
    !authorizationCurrent

/-- `pac5210_apply_final_output_gate`. -/
def DriveRequest.gated (r : DriveRequest) (stop : Bool) : DriveRequest :=
  if stop then { direction := 0xA0#8, leftSpeed := 0#8, rightSpeed := 0#8 } else r

end Actuation
end Mowgli
