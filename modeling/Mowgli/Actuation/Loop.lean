import Mowgli.Actuation.Blade
import Mowgli.Actuation.Drive

/-!
# Loop — the packets of the host, and the main loop

The handlers of `cpp_main.cpp` the USB interrupt calls for HEARTBEAT, CMD_VEL, HL_STATE
and CMD_BLADE. All interrupts have one priority, so **a handler runs to its end** and is
one function here. A packet that is too short is dropped before its handler does anything.

The wheel speeds the inverse kinematics make of a CMD_VEL are float arithmetic and come
with the packet; the rules read of them only whether they are zero.
-/

namespace Mowgli
namespace Actuation
namespace Host

open Binary32 (Bits)

def CMD_VEL_TIMEOUT_MS : Tick := 200#32
def HEARTBEAT_TIMEOUT_MS : Tick := 2000#32
def HL_MODE_AUTONOMOUS : Byte := 2#8
def HL_MODE_RECORDING : Byte := 3#8
def HL_MODE_MANUAL_MOWING : Byte := 4#8

/-! ## HEARTBEAT -/

def heartbeatDecision (requested releaseRequested : Bool) (c : Core) :
    HeartbeatEmergencyAction × Bool :=
  let watchdogLatchActive := c.host.heartbeatOnlyLatch && c.emergencyState == 1#8
  let physicalEmergency :=
    !requested && (watchdogLatchActive || releaseRequested) && c.world.anyPhysicalEmergency
  decideHeartbeatEmergency requested releaseRequested physicalEmergency watchdogLatchActive

def applyHeartbeat (action : HeartbeatEmergencyAction) (s : Firmware) : Firmware :=
  match action with
  | .assert => s.emergencySetBits 1#8 .hostStop
  | .release => s.emergencyRelease .release
  | .autoClearWatchdog => s.emergencyRelease .autoClear
  | .unchanged => s

def beat (requested releaseRequested : Bool) (s : Firmware) : Firmware :=
  (s.note (.heartbeat requested releaseRequested)).setHost fun h =>
    { h with lastHeartbeat := s.tick, heartbeatSeen := true }

def decided (decision : HeartbeatEmergencyAction × Bool) (s : Firmware) : Firmware :=
  let s := applyHeartbeat decision.1 s
  if decision.2 then s.setHost fun h => { h with heartbeatOnlyLatch := false } else s

/-- `on_heartbeat`. -/
def onHeartbeat (requested releaseRequested : Bool) (s : Firmware) : Firmware :=
  let s := beat requested releaseRequested s
  decided (heartbeatDecision requested releaseRequested s.toCore) s

/-! ## CMD_VEL -/

/-- A command that is not taken clears the targets. -/
def refuseCmdVel (zeroMotionIntent : Bool) (s : Firmware) : Firmware :=
  Drive.setHostZeroMotionIntent true (s.setHost fun h => { h with
    leftTarget := 0#32, rightTarget := 0#32, zeroMotionIntent := zeroMotionIntent
    validCmdVelSeen := false })

def advanceZeroPhase (h : Host) : Host :=
  { h with zeroPhaseSequence := h.zeroPhaseSequence + 1#32 }

/-- A zero seen in IDLE is the re-arm phase and nothing else: no blade command looks fresh
    by it. -/
def takeIdleZero (s : Firmware) : Firmware :=
  let s := Drive.setHostZeroMotionIntent true (s.setHost fun h => { h with
    cmdVelEpoch := s.authorization.epoch, leftTarget := 0#32, rightTarget := 0#32
    zeroMotionIntent := true, validCmdVelSeen := false })
  if s.host.targetBlade then s else s.setHost advanceZeroPhase

def takeCmdVel (zeroMotion : Bool) (left right : Bits) (s : Firmware) : Firmware :=
  let s := Drive.setHostZeroMotionIntent zeroMotion (s.setHost fun h => { h with
    cmdVelEpoch := s.authorization.epoch, lastCmdVel := s.tick, validCmdVelSeen := true
    zeroMotionIntent := zeroMotion, leftTarget := left, rightTarget := right })
  if zeroMotion && !s.host.targetBlade then s.setHost advanceZeroPhase else s

/-- `on_cmd_vel`, with the wheel speeds of the inverse kinematics. -/
def onCmdVel (vx wz left right : Bits) (s : Firmware) : Firmware :=
  let idle := s.status == .idle
  let safety := applySafetyForMode vx wz idle
  if !safety.accepted then refuseCmdVel safety.zeroMotionIntent (s.note (.cmdVel vx wz false))
  else
    let zeroMotion := safety.zeroMotionIntent
    let boundary := authorizationBoundaryActive idle zeroMotion (s.emergencyState != 0#8)
    let r := s.authorization.acceptDrive zeroMotion boundary
    let s := { s.note (.cmdVel vx wz r.1) with authorization := r.2 }
    if !r.1 then refuseCmdVel true s
    else if idle then takeIdleZero s
    else takeCmdVel zeroMotion left right s

/-! ## HL_STATE -/

/-- The mode the motors know; a mode that is not listed is IDLE. -/
def modeStatus (mode : Byte) : Status :=
  if mode = HL_MODE_AUTONOMOUS then .mowing
  else if mode = HL_MODE_RECORDING then .record
  else if mode = HL_MODE_MANUAL_MOWING then .mowing
  else .idle

def atIdle (s : Firmware) : Firmware :=
  let s := Drive.setHostZeroMotionIntent true (s.setStatus .idle)
  let s := Drive.setSpeedSigned 0#16 0#16 s.authorization.epoch s
  s.setHost fun h => { h with
    leftTarget := 0#32, rightTarget := 0#32, bladeOn := false, targetBlade := false
    targetBladeEpoch := s.authorization.epoch, validCmdVelSeen := false
    zeroMotionIntent := true }

/-- What an IDLE ends; an authorization ends only where the mode was another. -/
def enterIdle (s : Firmware) : Firmware :=
  atIdle (if s.status = .idle then s else s.invalidate)

/-- `on_hl_state`. -/
def onHlState (mode : Byte) (s : Firmware) : Firmware :=
  let s := s.note (.hlState mode)
  if modeStatus mode = .idle then enterIdle s else s.setStatus (modeStatus mode)

/-! ## CMD_BLADE -/

/-- The ON is not older than the commands and heartbeats it relies on. -/
def bladeCommandFresh (c : Core) : Bool :=
  bladeOnCommandIsFresh c.tick c.host.lastCmdVel c.host.validCmdVelSeen CMD_VEL_TIMEOUT_MS
    c.host.lastHeartbeat c.host.heartbeatSeen HEARTBEAT_TIMEOUT_MS &&
    c.authorization.driveRequestIsCurrent c.host.cmdVelEpoch

def bladeDecision (on : Bool) (c : Core) : BladeIntentDecision :=
  decideBladeIntent c.host.targetBlade c.host.targetBladeEpoch
    (some (on && bladeCommandFresh c, c.authorization.epoch)) (c.status == .idle)
    (c.emergencyState != 0#8) c.host.linkRearmRequired c.authorization.epoch

/-- `on_cmd_blade`. -/
def onCmdBlade (on direction : Byte) (s : Firmware) : Firmware :=
  let decision := bladeDecision (on != 0#8) s.toCore
  let s := s.note (.cmdBlade (on != 0#8) decision.retainedRequest)
  let s := s.setHost fun h => { h with
    targetBlade := decision.retainedRequest, targetBladeEpoch := decision.requestGeneration
    bladeDirection := direction }
  if on == 0#8 && s.host.zeroMotionIntent && isZero s.host.leftTarget &&
      isZero s.host.rightTarget && s.status != .idle then
    s.setHost advanceZeroPhase
  else s

end Host

/-!
## The main loop, and the machine it makes with the interrupts

`motors_handler` takes a snapshot of what the packets left, decides, and requests an
output from the two drivers. **Between any two of its masked sections a packet may arrive
or a link may fail**; the last section therefore looks at everything again.

`EmergencyController` polls the pins, and `Emergency_OnboardSensorFault` is what the
sensor service does when the sensor is lost.

The main loop runs these and the two drivers' passes one after the other, each when its
timer is due. The machine starts any of them at any time.
-/

open Binary32 (Bits)

/-! ## The motor loop -/

namespace Motors

def BLADE_DROP_MS : Tick := 25000#32

/-- The locals of one cycle. -/
structure Snapshot where
  targetBlade : Bool
  bladeEpoch : Epoch
  cmdVel : Tick
  cmdVelEpoch : Epoch
  zeroPhase : BitVec 32
  zeroIntent : Bool
  epoch : Epoch
  emergencyActive : Bool
  idle : Bool
  linksHealthy : Bool
  driveFaultSequence : BitVec 32
  bladeFaultSequence : BitVec 32
  linkInhibited : Bool

def linksHealthy (c : Core) : Bool :=
  Drive.feedbackHealthy c.tick c.drive && Blade.feedbackHealthy c.tick c.blade

def snapshot (c : Core) : Snapshot :=
  { targetBlade := c.host.targetBlade
    bladeEpoch := c.host.targetBladeEpoch
    cmdVel := c.host.lastCmdVel
    cmdVelEpoch := c.host.cmdVelEpoch
    zeroPhase := c.host.zeroPhaseSequence
    zeroIntent := c.host.zeroMotionIntent
    epoch := c.authorization.epoch
    emergencyActive := c.emergencyState != 0#8
    idle := c.status == .idle
    linksHealthy := linksHealthy c
    driveFaultSequence := c.drive.faultSequence
    bladeFaultSequence := c.blade.faultSequence
    linkInhibited := c.inhibited }

def takeSnapshot : Task Snapshot := .call fun _ s => (snapshot s.toCore, s.note .snapshot)

def update (f : Host → Host) : Task Unit := .modify fun s => s.setHost f

/-! ### The re-arm of the links -/

def rearm (snap : Snapshot) (h : Host) : Host :=
  let r := updateLinkRearm h.linkRearm
    { linksHealthy := snap.linksHealthy, zeroPhaseSequence := snap.zeroPhase
      hostZeroIntent := snap.zeroIntent, bladeOff := !snap.targetBlade
      driveFaultSequence := snap.driveFaultSequence
      bladeFaultSequence := snap.bladeFaultSequence, linkInhibited := snap.linkInhibited }
  { h with linkRearm := r, linkRearmRequired := r.required }

/-- The loop requires a re-arm by itself. -/
def requireRearm (h : Host) : Host :=
  { h with
    linkRearmRequired := true
    linkRearm := { h.linkRearm with
      required := true, zeroPhaseBaseline := h.zeroPhaseSequence } }

/-- Nothing has happened since the snapshot that the re-arm would overlook. -/
def stillHealthy (snap : Snapshot) (c : Core) : Bool :=
  linksHealthy c && c.drive.faultSequence == snap.driveFaultSequence &&
    c.blade.faultSequence == snap.bladeFaultSequence &&
    c.host.zeroPhaseSequence == snap.zeroPhase && c.host.zeroMotionIntent &&
    !c.host.targetBlade && isZero c.host.leftTarget && isZero c.host.rightTarget &&
    c.emergencyState == 0#8 && c.authorization.driveRequestIsCurrent c.host.cmdVelEpoch

/-- The masked section that ends an inhibit. -/
def confirmRearm (snap : Snapshot) (s : Firmware) : Firmware :=
  if stillHealthy snap s.toCore then s.clearInhibit
  else (s.setHost requireRearm).forceInhibit

def rearmLinks (snap : Snapshot) : Task Unit := do
  update (rearm snap)
  if ← .get fun s => s.host.linkRearmRequired then inhibit
  else if ← .get fun s => s.host.linkRearm.rearmCompleted then .modify (confirmRearm snap)
  else pure ()

/-! ### The decisions -/

/-- The masked section that drops a retained request a gate stands against. -/
def dropRetained (s : Firmware) : Firmware :=
  if s.host.targetBlade && (s.emergencyState != 0#8 || s.status == .idle ||
      s.host.linkRearmRequired || s.host.targetBladeEpoch != s.authorization.epoch) then
    s.setHost fun h => { h with
      targetBlade := false, targetBladeEpoch := s.authorization.epoch }
  else s

def decideBlade (snap : Snapshot) : Task Unit := do
  let required ← .get fun s => s.host.linkRearmRequired
  let decision := decideBladeIntent snap.targetBlade snap.bladeEpoch none snap.idle
    snap.emergencyActive required snap.epoch
  update fun h => { h with bladeOn := decision.effectiveOutput }
  .whenever (decision.retainedRequest != snap.targetBlade ||
    decision.requestGeneration != snap.bladeEpoch) (.modify dropRetained)

/-- The masked section after a command whose epoch has ended, unless a newer one came. -/
def dropTargets (snap : Snapshot) (s : Firmware) : Firmware :=
  if s.host.cmdVelEpoch = snap.cmdVelEpoch then
    Drive.setHostZeroMotionIntent true (s.setHost fun h => { h with
      leftTarget := 0#32, rightTarget := 0#32, validCmdVelSeen := false
      zeroMotionIntent := true })
  else s

/-- The masked section of the velocity watchdog. -/
def watchVelocity (s : Firmware) : Firmware :=
  if Host.CMD_VEL_TIMEOUT_MS < s.tick - s.host.lastCmdVel then
    Drive.setHostZeroMotionIntent true s
  else s

/-- The masked section that drops a blade request nobody steers any more. -/
def dropBlade (s : Firmware) : Firmware :=
  if BLADE_DROP_MS < s.tick - s.host.lastCmdVel then
    let stopped := stopBladeIntent s.authorization.epoch
    s.setHost fun h => { h with
      targetBlade := stopped.retainedRequest, targetBladeEpoch := stopped.requestGeneration
      bladeOn := stopped.effectiveOutput }
  else s

def bladeOff (h : Host) : Host := { h with bladeOn := false }

/-- Whether the wheels must stop in this cycle. -/
def hardStop (snap : Snapshot) (current : Bool) : Task Bool := do
  .whenever (!current) (.modify (dropTargets snap))
  if ← .get fun s => s.host.linkRearmRequired then
    update bladeOff
    return true
  else if snap.emergencyActive then return true
  else if snap.idle then
    update bladeOff
    return true
  else
    let age ← .get fun s => s.tick - snap.cmdVel
    .whenever (decide (Host.CMD_VEL_TIMEOUT_MS < age)) (.modify watchVelocity)
    .whenever (decide (BLADE_DROP_MS < age)) (.modify dropBlade)
    return !current || decide (Host.CMD_VEL_TIMEOUT_MS < age)

/-! ### The output -/

/-- The masked section of the heartbeat watchdog. -/
def watchHeartbeat (s : Firmware) : Firmware :=
  if heartbeatTimedOut s.tick s.host.lastHeartbeat Host.HEARTBEAT_TIMEOUT_MS then
    let physical := s.world.anyPhysicalEmergency
    let s := s.setHost fun h => { h with
      heartbeatOnlyLatch := if physical then false
        else if s.emergencyState = 0#8 then true else h.heartbeatOnlyLatch }
    let s := s.emergencySetBits 1#8 (.watchdog physical)
    s.setHost fun h => { h with
      targetBlade := false, targetBladeEpoch := s.authorization.epoch, bladeOn := false }
  else s

/-- The links as the last section finds them. -/
def outputLinksHealthy (snap : Snapshot) (c : Core) : Bool :=
  linksHealthy c && c.drive.faultSequence == snap.driveFaultSequence &&
    c.blade.faultSequence == snap.bladeFaultSequence && !c.inhibited

/-- A link is gone: inhibited, to be re-armed, and no request is left. -/
def refuseOutput (generation : Epoch) (s : Firmware) : Firmware :=
  s.forceInhibit.setHost fun h => { requireRearm h with
    targetBlade := false, targetBladeEpoch := generation, bladeOn := false }

def bladeStopped (generation : Epoch) (c : Core) : Bool :=
  c.emergencyState != 0#8 || c.status == .idle || c.host.linkRearmRequired ||
    !c.host.targetBlade || c.host.targetBladeEpoch != generation

def requestSpeed (leftPwm rightPwm : BitVec 16) (epoch : Epoch) (s : Firmware) : Firmware :=
  Drive.setSpeedSigned leftPwm rightPwm epoch (s.note (.speedRequest leftPwm rightPwm))

def requestBlade (epoch : Epoch) (s : Firmware) : Firmware :=
  Blade.set s.host.bladeOn s.host.bladeDirection epoch (s.note (.bladeRequest s.host.bladeOn))

/-- The masked section that requests this cycle's output. -/
def output (snap : Snapshot) (current stop : Bool) (leftPwm rightPwm : BitVec 16)
    (s : Firmware) : Firmware :=
  let generation := s.authorization.epoch
  let healthy := outputLinksHealthy snap s.toCore
  let s := if healthy then s else refuseOutput generation s
  let s := if bladeStopped generation s.toCore then s.setHost bladeOff else s
  let s := if stop || !healthy || !current || s.emergencyState != 0#8 || s.status == .idle then
      requestSpeed 0#16 0#16 snap.cmdVelEpoch s
    else requestSpeed leftPwm rightPwm snap.cmdVelEpoch s
  requestBlade snap.bladeEpoch s

/-- A cycle, after its snapshot. -/
def cycle (snap : Snapshot) : Task Unit := do
  let current ← .get fun s => s.authorization.driveRequestIsCurrent snap.cmdVelEpoch
  rearmLinks snap
  decideBlade snap
  let stop ← hardStop snap current
  -- The yaw loop, the wheel PI and the anti-dig latch.
  let pwm ← .call fun w s => ((w.leftPwm, w.rightPwm), s)
  .modify watchHeartbeat
  .modify (output snap current stop pwm.1 pwm.2)

/-- `motors_handler`. -/
def motorsHandler : Task Unit := do
  let snap ← takeSnapshot
  cycle snap

end Motors

/-! ## The emergency inputs -/

namespace Emergency

/-- Whether an input has lasted for `limit`, and since when it lasts. -/
def timed (now limit : Tick) (active : Bool) (started : Tick) : Bool × Tick :=
  if !active then (false, 0#32)
  else if started = 0#32 then (false, now)
  else (decide (limit ≤ now - started), started)

/-- One timed input of `EmergencyController`. -/
def trip (active : Bool) (now : Tick) (limit started : EmergencyTimers → Tick)
    (start : Tick → EmergencyTimers → EmergencyTimers) : Task Bool :=
  .call fun _ s =>
    let r := timed now (limit s.timers) active (started s.timers)
    (r.1, s.setTimers (start r.2))

def setBits (bits : Byte) : Task Unit := .modify (·.emergencySetBits bits .sensor)

def pollStop (yellow white : Bool) (now : Tick) : Task Unit := do
  if ← trip (yellow || white) now (·.stopButtonMs) (·.stopStarted)
      fun since t => { t with stopStarted := since } then
    .whenever yellow (setBits 0b00010#8)
    .whenever white (setBits 0b00100#8)
  else pure ()

def pollWheels (blue red : Bool) (now : Tick) : Task Unit := do
  let both ← trip (blue && red) now (·.bothWheelsLiftMs) (·.bothWheelsLiftStarted)
    fun since t => { t with bothWheelsLiftStarted := since }
  .whenever both (setBits 0b11000#8)
  let blueLift ← trip blue now (·.oneWheelLiftMs) (·.blueWheelLiftStarted)
    fun since t => { t with blueWheelLiftStarted := since }
  .whenever blueLift (setBits 0b01000#8)
  let redLift ← trip red now (·.oneWheelLiftMs) (·.redWheelLiftStarted)
    fun since t => { t with redWheelLiftStarted := since }
  .whenever redLift (setBits 0b10000#8)

def pollTilt (accelerometer tilt : Bool) (now : Tick) : Task Unit := do
  let leaning ← trip accelerometer now (·.tiltMs) (·.accelerometerStarted)
    fun since t => { t with accelerometerStarted := since }
  .whenever leaning (setBits 0b100000#8)
  let tilted ← trip tilt now (·.tiltMs) (·.tiltStarted)
    fun since t => { t with tiltStarted := since }
  .whenever tilted (setBits 0b100000#8)

/-- The step of the PLAY hold, over the inputs this poll has read. -/
def playStep (now : Tick) (play : Bool) (inputs : EmergencyPhysicalInputs) : Task Bool :=
  .call fun _ s =>
    let r := playClearHoldStep now s.timers.playClearMs play (s.emergency != 0#8) inputs
      s.timers.playStarted
    (r.1, (s.note (.playPoll now play (s.emergency != 0#8) inputs.clear)).setTimers
      fun t => { t with playStarted := r.2 })

def pollPlay (now : Tick) (play : Bool) (inputs : EmergencyPhysicalInputs) : Task Unit := do
  if ← playStep now play inputs then
    .modify (·.emergencyRelease .playHold)
    .modify fun s => s.setTimers fun t => { t with playStarted := 0#32 }
  else pure ()

/-- `EmergencyController`. -/
def emergencyController : Task Unit := do
  let yellow ← .get fun s => s.world.stopYellow
  let white ← .get fun s => s.world.stopWhite
  let blue ← .get fun s => s.world.wheelLiftBlue
  let red ← .get fun s => s.world.wheelLiftRed
  let tilt ← .get fun s => s.world.mechanicalTilt
  let play ← .get fun s => s.world.playButton
  let accelerometer ← .get fun s => s.world.lowZ
  let now ← .get fun s => s.tick
  pollStop yellow white now
  pollWheels blue red now
  pollTilt accelerometer tilt now
  pollPlay now play
    { stopYellow := yellow, stopWhite := white, wheelLiftBlue := blue, wheelLiftRed := red
      mechanicalTilt := tilt, accelerometerTilt := accelerometer }

/-- `sensor_fault`: the snapshot is void, and `Emergency_OnboardSensorFault`. -/
def onboardSensorFault : Task Unit := do
  .modify fun s => { s with world := { s.world with onboardHealthy := false } }
  setBits 0x40#8

/-- `emergency_clamp_ms`. -/
def clampMs (v least most : Tick) : Tick := if v < least then least else if most < v then most else v

/-- `emergency_set_timeouts`, one masked section. -/
def setTimeouts (oneWheelLift bothWheelsLift tilt stopButton playClear : Tick) : Task Unit :=
  .modify fun s => s.setTimers fun t => { t with
    oneWheelLiftMs := clampMs oneWheelLift 10#32 5000#32
    bothWheelsLiftMs := clampMs bothWheelsLift 10#32 3000#32
    tiltMs := clampMs tilt 10#32 1000#32
    stopButtonMs := clampMs stopButton 10#32 250#32
    playClearMs := clampMs playClear 500#32 10000#32 }

end Emergency

/-! ## The machine -/

inductive Irq where
  | tick (milliseconds : Nat)
  | world (w : World)
  | heartbeat (requested releaseRequested : Bool)
  | cmdVel (vx wz left right : Bits)
  | hlState (mode : Byte)
  | cmdBlade (on direction : Byte)
  /-- The DMA of a link writes its receive buffer; the transfer need not be complete. -/
  | driveDma (bytes : List Byte)
  | bladeDma (bytes : List Byte)
  | driveReceived
  | bladeReceived

variable (B : Board)

def irq (i : Irq) (s : Firmware) : Firmware :=
  match i with
  | .tick n => { s with now := s.now + n }
  | .world w => { s with world := w }
  | .heartbeat requested releaseRequested => Host.onHeartbeat requested releaseRequested s
  | .cmdVel vx wz left right => Host.onCmdVel vx wz left right s
  | .hlState mode => Host.onHlState mode s
  | .cmdBlade on direction => Host.onCmdBlade on direction s
  | .driveDma bytes => s.setDrive fun d => { d with received := bytes }
  | .bladeDma bytes => s.setBlade fun b => { b with received := bytes }
  | .driveReceived => Drive.receiveIT s
  | .bladeReceived => Blade.receiveIT B s

inductive Call where
  | motorsHandler
  | driveApp
  | bladeApp
  | emergencyController
  | onboardSensorFault
  | setTimeouts (oneWheelLift bothWheelsLift tilt stopButton playClear : Tick)

def callBody : Call → Task Unit
  | .motorsHandler => Motors.motorsHandler
  | .driveApp => Drive.app10ms
  | .bladeApp => Blade.app B
  | .emergencyController => Emergency.emergencyController
  | .onboardSensorFault => Emergency.onboardSensorFault
  | .setTimeouts oneWheelLift bothWheelsLift tilt stopButton playClear =>
    Emergency.setTimeouts oneWheelLift bothWheelsLift tilt stopButton playClear

/-- A reboot clears the memory: a run is from one power-up. -/
def machine : Machine Irq Call Empty Answer Firmware where
  irq := irq B
  body := callBody B
  cut := fun k => k.elim
  boot := fun k => k.elim

abbrev FirmwareEvent := Event Irq Call Empty Answer

/-! ## Power-up -/

def Host.powerUp (now : Tick) : Host :=
  { leftTarget := 0#32, rightTarget := 0#32, cmdVelEpoch := 0#32, lastCmdVel := 0#32
    validCmdVelSeen := false, zeroMotionIntent := false, zeroPhaseSequence := 0#32
    targetBlade := false, targetBladeEpoch := 0#32, bladeOn := false, bladeDirection := 0#8
    linkRearm := .powerUp 0#32, linkRearmRequired := true, lastHeartbeat := now
    heartbeatSeen := false, heartbeatOnlyLatch := false }

def Drive.powerUp : Drive :=
  { state := .init, timestamp := 0#32, received := [], seenValid := false, lastError := false
    lastValid := 0#32, faultSequence := 0#32, hostZeroIntent := true
    authorizationEpoch := 0#32, leftSpeedReq := 0#8, rightSpeedReq := 0#8, leftDirReq := false
    rightDirReq := false, message := { direction := 0#8, leftSpeed := 0#8, rightSpeed := 0#8 } }

def Blade.powerUp (now : Tick) : Blade :=
  { state := if B.sequencedPower then .resetHold else .init, stateStarted := now
    startupRetryPending := false, versionRxArmed := false, versionResponseComplete := false
    versionResponseValid := false, received := [], command := 0#8, onOff := false
    direction := false, runDirection := false, onEpoch := 0#32, rxArmed := false
    rxStarted := 0#32, seenValid := false, lastError := false, lastValid := 0#32
    faultSequence := 0#32, reversePending := false, offSent := false, zeroSeen := false
    stopSince := 0#32, zeroSince := 0#32, lastFeedbackSeq := 0#32, zeroEpoch := 0#32
    feedback := { seq := 0#32, tick := 0#32, zeroEpoch := 0#32, reportedSpeed := 0#16
                  valid := false, activated := false, error := 0#8 } }

def EmergencyTimers.powerUp : EmergencyTimers :=
  { stopStarted := 0#32, blueWheelLiftStarted := 0#32, redWheelLiftStarted := 0#32
    bothWheelsLiftStarted := 0#32, tiltStarted := 0#32, accelerometerStarted := 0#32
    playStarted := 0#32, oneWheelLiftMs := 2000#32, bothWheelsLiftMs := 1000#32
    tiltMs := 500#32, stopButtonMs := 100#32, playClearMs := 2000#32 }

/-- The firmware at the end of its initialization, `now` milliseconds after power-up. -/
def Firmware.powerUp (now : Nat) (w : World) : Firmware :=
  { now := now, world := w, authorization := { epoch := 1#32, driveZeroEpoch := 0#32 }
    emergency := 0#8, inhibited := true, status := .idle
    host := .powerUp (BitVec.ofNat 32 now), drive := .powerUp
    blade := .powerUp B (BitVec.ofNat 32 now), timers := .powerUp, log := [] }

/-- The configuration a run starts in. -/
def start (now : Nat) (w : World) : Config Answer Firmware := ⟨.powerUp B now w, .ret ()⟩

/-! ## A run: power-up, links up, armed -/

namespace Session

def calm : World :=
  { stopYellow := false, stopWhite := false, wheelLiftBlue := false, wheelLiftRed := false
    mechanicalTilt := false, playButton := false, onboardHealthy := true, onboardTilt := false }

/-- A routine that is started and runs `n` statements. -/
def pass (c : Call) (n : Nat) (yes : Bool) : List FirmwareEvent :=
  .start c :: List.replicate n (.step { yes := yes, leftPwm := 100#16, rightPwm := 100#16 })

def summed (bytes : List Byte) : List Byte := bytes ++ [crcCalc bytes bytes.length]

def driveReply : List Byte :=
  summed ([0x55#8, 0xAA#8, 0x10#8, 0x01#8, 0xE0#8] ++ List.replicate 14 0#8)

def bladeReply : List Byte := summed ([0x55#8, 0xAA#8] ++ List.replicate 13 0#8)

def links : List FirmwareEvent :=
  [.irq (.driveDma driveReply), .irq .driveReceived, .irq (.bladeDma bladeReply),
    .irq .bladeReceived]

def armed : List FirmwareEvent :=
  pass .driveApp 3 true ++ pass .bladeApp 9 true ++ links ++
    [.irq (.heartbeat false false), .irq (.hlState Host.HL_MODE_AUTONOMOUS),
      .irq (.cmdVel 0#32 0#32 0#32 0#32)] ++ pass .motorsHandler 25 true

/-- Motion at 1 m/s. -/
def motion : FirmwareEvent := .irq (.cmdVel 0x3F800000#32 0#32 0x3F800000#32 0x3F800000#32)

def mowing : List FirmwareEvent :=
  armed ++ [motion, .irq (.cmdBlade 1#8 0#8)] ++ pass .motorsHandler 25 true ++
    pass .bladeApp 14 true ++ pass .driveApp 40 false

/-- What a run of these events logs. -/
def log (es : List FirmwareEvent) : List Mark :=
  ((machine .yardforce500).run (start .yardforce500 1000 calm) es).st.log

end Session

end Actuation
end Mowgli
