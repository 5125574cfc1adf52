import Mowgli.Actuation.Policy
import Mowgli.Lib.Routine

/-!
# Firmware — the memory the actuator code shares

The statics of `cpp_main.cpp`, `drivemotor.c`, `blademotor.c`, `emergency.c` and `main.c`
that decide whether a wheel or the blade may turn, and what the pins and the onboard
sensor say. `now` is the time in milliseconds since power-up; the code sees its low 32
bits, `tick`.

The log is a ghost: **one entry for every packet, every authorization that is ended and
every frame that goes to or comes from a controller**, each stamped with the memory it
was written in.

Left out is what no rule here reads: LEDs, debug output, odometry, the error count of the
blade, and the control law. The wheel PI and the yaw loop compute in floats from encoder
ticks and gyro rates; the PWM they give is an answer of the environment.
-/

namespace Mowgli
namespace Actuation

open Binary32 (Bits)

abbrev Byte := BitVec 8

/-- `openmower_status_e`. -/
inductive Status where
  | mowing
  | docking
  | undocking
  | idle
  | record
deriving DecidableEq

/-- What the pins read, and what the onboard sensor's last snapshot is worth. -/
structure World where
  stopYellow : Bool
  stopWhite : Bool
  wheelLiftBlue : Bool
  wheelLiftRed : Bool
  mechanicalTilt : Bool
  playButton : Bool
  /-- `I2C_OnboardHealthy`: valid and fresh. -/
  onboardHealthy : Bool
  onboardTilt : Bool
deriving DecidableEq

namespace World

/-- `I2C_TestZLowINT`: a sensor that is not healthy counts as tilted. -/
def lowZ (w : World) : Bool := !w.onboardHealthy || w.onboardTilt

def physicalInputs (w : World) : EmergencyPhysicalInputs :=
  { stopYellow := w.stopYellow, stopWhite := w.stopWhite, wheelLiftBlue := w.wheelLiftBlue
    wheelLiftRed := w.wheelLiftRed, mechanicalTilt := w.mechanicalTilt
    accelerometerTilt := w.lowZ }

/-- `any_physical_emergency`. -/
def anyPhysicalEmergency (w : World) : Bool := !w.physicalInputs.clear

end World

/-! ## The boards -/

/-- What differs between the boards. A command with bit 7 set makes the blade turn. -/
structure Board where
  stopCommand : Byte
  forwardCommand : Byte
  reverseCommand : Byte
  sequencedPower : Bool
  receivedLength : Nat
  stop_bit : stopCommand &&& 0x80#8 = 0#8
  forward_bit : forwardCommand &&& 0x80#8 ≠ 0#8
  reverse_bit : reverseCommand &&& 0x80#8 ≠ 0#8
  directions : forwardCommand ≠ reverseCommand

namespace Board

def yardforce500 : Board :=
  { stopCommand := 0x00#8, forwardCommand := 0x80#8, reverseCommand := 0xC0#8
    sequencedPower := false, receivedLength := 16, stop_bit := by decide
    forward_bit := by decide, reverse_bit := by decide, directions := by decide }

def rm1000 : Board :=
  { stopCommand := 0x02#8, forwardCommand := 0x81#8, reverseCommand := 0xC1#8
    sequencedPower := true, receivedLength := 16, stop_bit := by decide
    forward_bit := by decide, reverse_bit := by decide, directions := by decide }

def luv1000ri : Board := { yardforce500 with receivedLength := 14 }

/-- The command that turns the blade. -/
def runCommand (b : Board) (direction : Bool) : Byte :=
  if direction then b.reverseCommand else b.forwardCommand

end Board

/-! ## The statics -/

/-- `cpp_main.cpp`. -/
structure Host where
  leftTarget : Bits
  rightTarget : Bits
  cmdVelEpoch : Epoch
  lastCmdVel : Tick
  validCmdVelSeen : Bool
  zeroMotionIntent : Bool
  zeroPhaseSequence : BitVec 32
  targetBlade : Bool
  targetBladeEpoch : Epoch
  bladeOn : Bool
  bladeDirection : Byte
  linkRearm : LinkRearmState (BitVec 32)
  linkRearmRequired : Bool
  lastHeartbeat : Tick
  heartbeatSeen : Bool
  heartbeatOnlyLatch : Bool

inductive DriveState where
  | init
  | run
  | backward
  | wait
deriving DecidableEq

/-- `drivemotor.c`. -/
structure Drive where
  state : DriveState
  timestamp : Tick
  received : List Byte
  seenValid : Bool
  lastError : Bool
  lastValid : Tick
  faultSequence : BitVec 32
  hostZeroIntent : Bool
  authorizationEpoch : Epoch
  leftSpeedReq : Byte
  rightSpeedReq : Byte
  leftDirReq : Bool
  rightDirReq : Bool
  /-- The direction and speed bytes of `drivemotor_pu8RqstMessage`. -/
  message : DriveRequest

inductive BladeState where
  | resetHold
  | logicBoot
  | versionWait
  | matrixWait
  | powerWait
  | init
  | run
deriving DecidableEq

/-- `blademotor_feedback_t`. -/
structure Feedback where
  seq : BitVec 32
  tick : Tick
  zeroEpoch : BitVec 32
  reportedSpeed : BitVec 16
  valid : Bool
  activated : Bool
  error : Byte
deriving DecidableEq

/-- The reply is of a blade that stands still. -/
def Feedback.standing (f : Feedback) : Bool :=
  f.valid && !f.activated && f.error == 0#8 && f.reportedSpeed == 0#16

/-- `blademotor.c`. -/
structure Blade where
  state : BladeState
  stateStarted : Tick
  startupRetryPending : Bool
  versionRxArmed : Bool
  versionResponseComplete : Bool
  versionResponseValid : Bool
  received : List Byte
  /-- The command byte of `blademotor_pu8RqstMessage`. -/
  command : Byte
  onOff : Bool
  direction : Bool
  runDirection : Bool
  onEpoch : Epoch
  rxArmed : Bool
  rxStarted : Tick
  seenValid : Bool
  lastError : Bool
  lastValid : Tick
  faultSequence : BitVec 32
  reversePending : Bool
  offSent : Bool
  zeroSeen : Bool
  stopSince : Tick
  zeroSince : Tick
  lastFeedbackSeq : BitVec 32
  zeroEpoch : BitVec 32
  feedback : Feedback

/-- The statics of `emergency.c` that time its inputs, 0 for not started. -/
structure EmergencyTimers where
  stopStarted : Tick
  blueWheelLiftStarted : Tick
  redWheelLiftStarted : Tick
  bothWheelsLiftStarted : Tick
  tiltStarted : Tick
  accelerometerStarted : Tick
  playStarted : Tick
  oneWheelLiftMs : Tick
  bothWheelsLiftMs : Tick
  tiltMs : Tick
  stopButtonMs : Tick
  playClearMs : Tick

structure Core where
  now : Nat
  world : World
  authorization : Authorization
  /-- `emergency_state`. -/
  emergency : Byte
  /-- `motor_link_output_inhibited`. -/
  inhibited : Bool
  status : Status
  host : Host
  drive : Drive
  blade : Blade
  timers : EmergencyTimers

/-! ## What can be observed -/

/-- Why a bit of `emergency_state` was set. -/
inductive Latch where
  | hostStop
  | watchdog (physical : Bool)
  | sensor
deriving DecidableEq

/-- Why `emergency_state` was cleared. -/
inductive Clear where
  | playHold
  | release
  | autoClear
deriving DecidableEq

inductive Obs where
  | invalidated
  | heartbeat (requested releaseRequested : Bool)
  | cmdVel (vx wz : Bits) (accepted : Bool)
  | hlState (mode : Byte)
  | cmdBlade (on retained : Bool)
  /-- The snapshot a cycle of `motors_handler` starts with. -/
  | snapshot
  | speedRequest (leftPwm rightPwm : BitVec 16)
  | bladeRequest (on : Bool)
  /-- The wheel request is about to be read for a frame. -/
  | speedRead
  /-- The frame of a reverse is about to be built. -/
  | reverse
  | driveFrame (request : DriveRequest)
  | bladeFrame (command : Byte) (transmitted : Bool)
  | bladeReply (valid activated : Bool) (error : Byte) (reportedSpeed : BitVec 16)
  | latched (bits : Byte) (cause : Latch)
  | cleared (cause : Clear)
  /-- A poll of PLAY, with the clock it reads. -/
  | playPoll (now : Tick) (held latched clear : Bool)
deriving DecidableEq

structure Mark where
  core : Core
  obs : Obs

structure Firmware extends Core where
  log : List Mark

/-- What the environment answers one statement. -/
structure Answer where
  yes : Bool
  leftPwm : BitVec 16
  rightPwm : BitVec 16

/-- A foreground routine of the firmware. -/
abbrev Task (α : Type) := Routine Answer Firmware α

/-- `HAL_GetTick()`. -/
def Core.tick (c : Core) : Tick := BitVec.ofNat 32 c.now

/-- A difference of ticks is the true one, unless a whole turn of the clock is missed. -/
theorem Core.tick_sub {earlier later : Core} (hle : earlier.now ≤ later.now)
    (hlt : later.now < earlier.now + 2 ^ 32) :
    (later.tick - earlier.tick).toNat = later.now - earlier.now := by
  simp only [Core.tick, BitVec.toNat_sub, BitVec.toNat_ofNat]
  omega

/-- `Emergency_State`. -/
def Core.emergencyState (c : Core) : Byte :=
  c.emergency ||| (if c.world.onboardHealthy then 0#8 else 0x40#8)

namespace Firmware

def note (o : Obs) (s : Firmware) : Firmware := { s with log := ⟨s.toCore, o⟩ :: s.log }

def setHost (f : Host → Host) (s : Firmware) : Firmware := { s with host := f s.host }
def setDrive (f : Drive → Drive) (s : Firmware) : Firmware := { s with drive := f s.drive }
def setBlade (f : Blade → Blade) (s : Firmware) : Firmware := { s with blade := f s.blade }

def setTimers (f : EmergencyTimers → EmergencyTimers) (s : Firmware) : Firmware :=
  { s with timers := f s.timers }

def setStatus (status : Status) (s : Firmware) : Firmware := { s with status := status }

/-! ## Masked sections the modules share -/

/-- `ActuatorAuthorization_Invalidate`. -/
def invalidate (s : Firmware) : Firmware :=
  { s.note .invalidated with authorization := s.authorization.invalidate }

/-- `MOTORLINK_ForceInhibit`. -/
def forceInhibit (s : Firmware) : Firmware :=
  if s.inhibited then s else { s.invalidate with inhibited := true }

/-- `MOTORLINK_ClearInhibit`. -/
def clearInhibit (s : Firmware) : Firmware := { s with inhibited := false }

/-- `emergency_set_bits`, which `Emergency_SetState` is with bit 0. -/
def emergencySetBits (bits : Byte) (cause : Latch) (s : Firmware) : Firmware :=
  let s' := if s.emergency = 0#8 ∧ bits ≠ 0#8 then s.invalidate else s
  { s'.note (.latched bits cause) with emergency := s'.emergency ||| bits }

/-- `Emergency_SetState(0)`. -/
def emergencyRelease (cause : Clear) (s : Firmware) : Firmware :=
  if s.world.onboardHealthy && s.world.physicalInputs.clear && s.emergency != 0#8 then
    { s.note (.cleared cause) with emergency := 0#8 }
  else s

end Firmware

/-! ## Statements the modules share -/

/-- A question to the hardware: a flag of a UART, the result of a HAL call. -/
def ask : Task Bool := .call fun w s => (w.yes, s)

def inhibit : Task Unit := .modify Firmware.forceInhibit

/-- `crcCalc`: the sum of the first `n` bytes. -/
def crcCalc (msg : List Byte) (n : Nat) : Byte := (msg.take n).foldl (· + ·) 0#8

/-- `DRIVEMOTOR_FeedbackHealthy` and `BLADEMOTOR_FeedbackHealthy` read four statics one
    after the other when nothing masks them. -/
def healthyUnmasked (seenValid lastError : Core → Bool) (lastValid : Core → Tick)
    (timeout : Tick) : Task Bool := do
  if ← .get fun s => seenValid s.toCore then
    if ← .get fun s => lastError s.toCore then return false
    else
      let now ← .get fun s => s.tick
      let last ← .get fun s => lastValid s.toCore
      return decide (now - last ≤ timeout)
  else return false

end Actuation
end Mowgli
