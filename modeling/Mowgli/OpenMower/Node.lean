import Mowgli.Lib.Arith
import Mowgli.Lib.History

/-!
# Node — the bridge to an OpenMower board

`OpenMowerBridgeNode`: the status packets of the LowLevel board, the two services, the velocity
commands, the high-level status and the control tick. The motor controllers obey whoever sends a
duty, so **the gates of the control tick are all there is** between a remembered value and a
motor.

The node runs on one thread and a handler is one step. The telemetry of the motors, the clocks and
the outcome of a write are given with the event.
-/

namespace Mowgli
namespace OpenMower

variable {D : Type} (d : Arith D)

/-! ## emergency_tracker.hpp -/

def EMERGENCY_BIT_LATCH : UInt8 := (1 : UInt8) <<< 0

structure HeartbeatBits where
  request : Bool
  release : Bool

structure EmergencyTracker where
  hostEmergency : Bool := false
  boardEmergency : Bool := false
  releaseHeartbeatsLeft : Nat := 0

namespace EmergencyTracker

/-- Heartbeats that carry one release request. -/
def kReleaseHeartbeats : Nat := 3

def requestEmergency (t : EmergencyTracker) : EmergencyTracker :=
  { t with hostEmergency := true, releaseHeartbeatsLeft := 0 }

def requestRelease (t : EmergencyTracker) : EmergencyTracker :=
  { t with hostEmergency := false, releaseHeartbeatsLeft := kReleaseHeartbeats }

/-- Anything but the latch is asserted right now. -/
def triggerActive (llBitmask : UInt8) : Bool := llBitmask &&& ~~~EMERGENCY_BIT_LATCH != 0

def evaluate (t : EmergencyTracker) (llBitmask : UInt8) : EmergencyTracker :=
  let boardEmergency := llBitmask != 0
  { t with
    boardEmergency := boardEmergency
    -- Either the release worked, or the board refused it.
    releaseHeartbeatsLeft :=
      if !boardEmergency || triggerActive llBitmask then 0 else t.releaseHeartbeatsLeft }

def nextHeartbeat (t : EmergencyTracker) : HeartbeatBits × EmergencyTracker :=
  (⟨t.hostEmergency, decide (0 < t.releaseHeartbeatsLeft)⟩,
    { t with releaseHeartbeatsLeft := t.releaseHeartbeatsLeft - 1 })

def isEmergency (t : EmergencyTracker) : Bool := t.hostEmergency || t.boardEmergency

end EmergencyTracker

/-! ## blade_policy.hpp -/

def HL_MODE_NULL : UInt8 := 0
def HL_MODE_IDLE : UInt8 := 1
def HL_MODE_AUTONOMOUS : UInt8 := 2
def HL_MODE_MANUAL_MOWING : UInt8 := 4

structure BladeInputs where
  requested : Bool
  mowingEnabled : Bool
  emergency : Bool
  llLinkAlive : Bool
  hlMode : UInt8
  hlStatusFresh : Bool
  updateMaintenance : Bool

def bladeMayRun (i : BladeInputs) : Bool :=
  if !i.requested || !i.mowingEnabled || i.emergency || !i.llLinkAlive || !i.hlStatusFresh ||
      i.updateMaintenance then false
  else i.hlMode == HL_MODE_AUTONOMOUS || i.hlMode == HL_MODE_MANUAL_MOWING

def wheelsMayRun (emergency llLinkAlive : Bool) (hlMode : UInt8) (cmdFresh : Bool) : Bool :=
  if emergency || !llLinkAlive || !cmdFresh then false else hlMode != HL_MODE_IDLE

/-! ## cmd_vel_slew.hpp, wheel_velocity_controller.hpp -/

def limitMotionCommandSlew (target previous dtS accelerationLimit decelerationLimit : D) : D :=
  if d.eq target (d.lit 0) then d.lit 0
  -- `signbit` of two numbers that are not zero
  else if d.lt target (d.lit 0) != d.lt previous (d.lit 0) && !d.eq previous (d.lit 0) then
    let maxDelta := d.mul decelerationLimit (d.max (d.lit 0) dtS)
    if d.lt (d.lit 0) previous then d.max (d.lit 0) (d.sub previous maxDelta)
    else d.min (d.lit 0) (d.add previous maxDelta)
  else
    let increasingMagnitude := d.lt (d.abs previous) (d.abs target)
    let rateLimit := if increasingMagnitude then accelerationLimit else decelerationLimit
    let maxDelta := d.mul rateLimit (d.max (d.lit 0) dtS)
    d.add previous (d.clamp (d.sub target previous) (d.neg maxDelta) maxDelta)

structure WheelLoopGains (D : Type) where
  dutyPerMps : D
  kp : D
  ki : D
  integralLimit : D
  maxDuty : D
  closedLoop : Bool

def clampDuty (gains : WheelLoopGains D) (duty : D) : D :=
  let limit := d.abs gains.maxDuty
  d.clamp duty (d.neg limit) limit

/-- `WheelVelocityController::Update` on an integral: the duty, and the integral after it. -/
def wheelUpdate (gains : WheelLoopGains D) (integral targetMps measuredMps dtS : D) : D × D :=
  if !d.isFinite targetMps || d.eq targetMps (d.lit 0) then (d.lit 0, d.lit 0)
  else
    let ff := d.mul gains.dutyPerMps targetMps
    if !gains.closedLoop || !d.isFinite measuredMps || d.le dtS (d.lit 0) then
      (clampDuty d gains ff, integral)
    else
      let error := d.sub targetMps measuredMps
      let integral := d.clamp (d.add integral (d.mul (d.mul gains.ki error) dtS))
        (d.neg gains.integralLimit) gains.integralLimit
      (clampDuty d gains (d.add (d.add ff (d.mul gains.kp error)) integral), integral)

structure WheelSpeeds (D : Type) where
  leftMps : D
  rightMps : D

def splitTwist (linearX angularZ wheelTrack : D) : WheelSpeeds D :=
  let half := d.mul (d.mul (d.lit (1 / 2)) wheelTrack) angularZ
  ⟨d.sub linearX half, d.add linearX half⟩

/-! ## The node -/

inductive Motor where
  | left
  | right
  | mow
  deriving DecidableEq

structure Params (D : Type) where
  llStatusTimeoutS : D
  cmdVelTimeoutS : D
  highLevelStatusTimeoutS : D
  controlRateHz : D
  /-- `max(1, round(control_rate / heartbeat_rate))`. -/
  ticksPerHeartbeat : Nat
  mowXescEnabled : Bool
  leftMotorInverted : Bool
  rightMotorInverted : Bool
  wheelTrack : D
  maxMps : D
  maxRadps : D
  minLinearVel : D
  linAccelLimit : D
  linDecelLimit : D
  angAccelLimit : D
  angDecelLimit : D
  wheelGains : WheelLoopGains D
  bladeDuty : D
  mowingEnabled : Bool

/-- What the node sends: `SendDuty` to a motor, or a heartbeat to the board, written or not. -/
inductive Sent (D : Type) where
  | duty (motor : Motor) (duty : D)
  | heartbeat (emergencyRequested emergencyReleaseRequested : Bool)
  deriving DecidableEq

/-- A stamp of 0 is none. -/
structure Node (D : Type) where
  llOpen : Bool := false
  llLastStatus : Int := 0
  emergency : EmergencyTracker := {}
  cmdVx : D
  cmdWz : D
  cmdVelStamp : Int := 0
  appliedVx : D
  appliedWz : D
  leftIntegral : D
  rightIntegral : D
  mowRequested : Bool := false
  mowDirection : UInt8 := 0
  currentMode : UInt8 := HL_MODE_NULL
  hlStatusStamp : Int := 0
  lastControlTick : Int := 0
  controlTicks : Nat := 0
  /-- What the running handler has sent so far. -/
  sent : List (Sent D) := []

def boot : Node D :=
  { cmdVx := d.lit 0, cmdWz := d.lit 0, appliedVx := d.lit 0, appliedWz := d.lit 0,
    leftIntegral := d.lit 0, rightIntegral := d.lit 0 }

/-- `(now() - then).seconds()`. -/
def seconds (now_ then_ : Int) : D := d.div (d.lit (now_ - then_ : Int)) (d.lit 1000000000)

/-- A stamp that is there and no older than the timeout. -/
def fresh (now_ stamp : Int) (timeoutS : D) : Bool :=
  stamp != 0 && d.le (seconds d now_ stamp) timeoutS

variable (p : Params D)

namespace Node

def motorSign (motor : Motor) : D :=
  match motor with
  | .left => if p.leftMotorInverted then d.lit (-1) else d.lit 1
  | .right => if p.rightMotorInverted then d.lit (-1) else d.lit 1
  | .mow => d.lit 1

variable (s : Node D)

def lowlevelAlive (now_ : Int) : Bool := s.llOpen && fresh d now_ s.llLastStatus p.llStatusTimeoutS

/-- A short write closes the port. -/
def lowlevelSend (written : Bool) : Node D := { s with llOpen := s.llOpen && written }

def sendDuty (motor : Motor) (duty : D) : Node D := { s with sent := s.sent ++ [.duty motor duty] }

def sendHeartbeat (written : Bool) : Node D :=
  let r := s.emergency.nextHeartbeat
  lowlevelSend { s with
    emergency := r.2
    sent := s.sent ++ [.heartbeat r.1.request r.1.release] } written

def handleLlStatus (emergencyBitmask : UInt8) (stamp : Int) : Node D :=
  { s with llLastStatus := stamp, emergency := s.emergency.evaluate emergencyBitmask }

def onCmdVel (vx wz : D) (stamp : Int) (written : Bool) : Node D :=
  if !(d.isFinite vx && d.isFinite wz) then s
  else
    let s :=
      if s.currentMode = HL_MODE_NULL && !s.emergency.isEmergency &&
          (!d.eq vx (d.lit 0) || !d.eq wz (d.lit 0)) then
        lowlevelSend { s with currentMode := HL_MODE_AUTONOMOUS } written
      else s
    let vx := if d.lt (d.lit (1 / 1000)) (d.abs vx) && d.lt (d.abs vx) p.minLinearVel then d.lit 0
      else vx
    { s with
      cmdVx := d.clamp vx (d.neg p.maxMps) p.maxMps
      cmdWz := d.clamp wz (d.neg p.maxRadps) p.maxRadps
      cmdVelStamp := stamp }

def onHighLevelStatus (state : UInt8) (stamp : Int) : Node D :=
  { s with currentMode := state, hlStatusStamp := stamp }

def onMowerControl (mowEnabled mowDirection : UInt8) : Node D :=
  { s with
    mowRequested := mowEnabled != 0 && p.mowingEnabled
    mowDirection := mowDirection }

def onEmergencyStop (emergency : UInt8) (written : Bool) : Node D :=
  let s :=
    if emergency != 0 then
      -- Stop the motors now, not on the next control tick.
      let s := { s with emergency := s.emergency.requestEmergency }
      let s := (s.sendDuty .left (d.lit 0)).sendDuty .right (d.lit 0)
      if p.mowXescEnabled then s.sendDuty .mow (d.lit 0) else s
    else { s with emergency := s.emergency.requestRelease }
  s.sendHeartbeat written

/-! ## The control tick -/

/-- The steps of the loops since the last tick. -/
def dtS (steadyNow : Int) : D :=
  if s.lastControlTick != 0 then
    d.clamp (seconds d steadyNow s.lastControlTick) (d.div (d.lit (1 / 2)) p.controlRateHz)
      (d.div (d.lit 5) p.controlRateHz)
  else d.div (d.lit 1) p.controlRateHz

def driveWheels (dt : D) (wheelsAllowed : Bool) (measured : D × D) : Node D :=
  let targetVx := if wheelsAllowed then s.cmdVx else d.lit 0
  let targetWz := if wheelsAllowed then s.cmdWz else d.lit 0
  let appliedVx :=
    limitMotionCommandSlew d targetVx s.appliedVx dt p.linAccelLimit p.linDecelLimit
  let appliedWz :=
    limitMotionCommandSlew d targetWz s.appliedWz dt p.angAccelLimit p.angDecelLimit
  let targets := splitTwist d appliedVx appliedWz p.wheelTrack
  let left := wheelUpdate d p.wheelGains s.leftIntegral targets.leftMps measured.1 dt
  let right := wheelUpdate d p.wheelGains s.rightIntegral targets.rightMps measured.2 dt
  { s with
    appliedVx := appliedVx
    appliedWz := appliedWz
    leftIntegral := left.2
    rightIntegral := right.2
    sent := s.sent ++ [.duty .left (d.mul (motorSign d p .left) left.1),
      .duty .right (d.mul (motorSign d p .right) right.1)] }

def driveBlade (bladeAllowed : Bool) : Node D :=
  if !p.mowXescEnabled then s
  else
    s.sendDuty .mow
      (if bladeAllowed then
        if s.mowDirection != 0 then p.bladeDuty else d.neg p.bladeDuty
      else d.lit 0)

end Node

/-- What a control tick finds outside. -/
structure TickFinds (D : Type) where
  steadyNow : Int
  /-- Both drive controllers answer. -/
  drivesOk : Bool
  /-- A controller's tick counter jumped, and the speed loops start clean. -/
  loopsReset : Bool
  /-- `wheel_speed_`, left and right. -/
  measured : D × D
  llNow : Int
  cmdNow : Int
  hlNow : Int
  updateMaintenance : Bool
  written : Bool

namespace Node

variable (s : Node D) (f : TickFinds D)

/-- The tick up to its gates: the clock, and what the odometry resets. -/
def poll : Node D :=
  let s := { s with lastControlTick := f.steadyNow, controlTicks := s.controlTicks + 1 }
  if f.drivesOk && f.loopsReset then
    { s with leftIntegral := d.lit 0, rightIntegral := d.lit 0 }
  else s

def wheelsAllowed : Bool :=
  wheelsMayRun s.emergency.isEmergency (s.lowlevelAlive d p f.llNow) s.currentMode
    (fresh d f.cmdNow s.cmdVelStamp p.cmdVelTimeoutS)

def bladeAllowed : Bool :=
  bladeMayRun
    { requested := s.mowRequested
      mowingEnabled := p.mowingEnabled
      emergency := s.emergency.isEmergency
      llLinkAlive := s.lowlevelAlive d p f.llNow
      hlMode := s.currentMode
      hlStatusFresh := fresh d f.hlNow s.hlStatusStamp p.highLevelStatusTimeoutS
      updateMaintenance := f.updateMaintenance }

def controlTick : Node D :=
  let dt := s.dtS d p f.steadyNow
  let s := s.poll d f
  let bladeAllowed := s.bladeAllowed d p f
  let s := s.driveWheels d p dt (s.wheelsAllowed d p f && f.drivesOk) f.measured
  let s := s.driveBlade d p bladeAllowed
  if s.controlTicks % p.ticksPerHeartbeat = 0 then s.sendHeartbeat f.written else s

end Node

/-! ## Runs -/

inductive Event (D : Type) where
  | llStatus (emergencyBitmask : UInt8) (stamp : Int)
  /-- The port of the board is opened, or lost. -/
  | llOpened
  | llClosed
  /-- Any other packet to the board. -/
  | llSend (written : Bool)
  | cmdVel (vx wz : D) (stamp : Int) (written : Bool)
  | highLevelStatus (state : UInt8) (stamp : Int)
  | mowerControl (mowEnabled mowDirection : UInt8)
  | emergencyStop (emergency : UInt8) (written : Bool)
  | controlTick (f : TickFinds D)

def Node.apply (s : Node D) : Event D → Node D
  | .llStatus emergencyBitmask stamp => s.handleLlStatus emergencyBitmask stamp
  | .llOpened => { s with llOpen := true }
  | .llClosed => { s with llOpen := false }
  | .llSend written => s.lowlevelSend written
  | .cmdVel vx wz stamp written => s.onCmdVel d p vx wz stamp written
  | .highLevelStatus state stamp => s.onHighLevelStatus state stamp
  | .mowerControl mowEnabled mowDirection => s.onMowerControl p mowEnabled mowDirection
  | .emergencyStop emergency written => s.onEmergencyStop d p emergency written
  | .controlTick f => s.controlTick d p f

def Node.step (s : Node D) (e : Event D) : Node D := ({ s with sent := [] } : Node D).apply d p e

/-- One handler that ran: its event, the node before it and what it sent. -/
structure Entry (D : Type) where
  event : Event D
  before : Node D
  sent : List (Sent D)

def Entry.mark (e : Event D) (before after : Node D) : Entry D := ⟨e, before, after.sent⟩

def history (es : List (Event D)) : List (Entry D) :=
  (History.run (Node.step d p) Entry.mark (boot d) [] es).2

end OpenMower
end Mowgli
