import Mowgli.Actuation.Firmware

/-!
# Drive — the drive driver

`drivemotor.c`, without its odometry. `Drive.setSpeedSigned` leaves a request for both
wheels with its authorization token; every 10 ms `Drive.app10ms` builds one frame and
hands it to the UART. After a collision the driver reverses by itself for two seconds and
then waits for one.

The frame is built with interrupts enabled, statement by statement, and **the gates are
read again with interrupts masked** at the handover.
-/

namespace Mowgli
namespace Actuation
namespace Drive

def FEEDBACK_TIMEOUT_MS : Tick := 75#32
def BACKWARD_PWM : Byte := 100#8
def BACKWARD_MS : Tick := 2000#32
def WAIT_MS : Tick := 1000#32

/-- `DRIVEMOTOR_FeedbackHealthy`, with interrupts masked. -/
def feedbackHealthy (now : Tick) (d : Drive) : Bool :=
  d.seenValid && !d.lastError && decide (now - d.lastValid ≤ FEEDBACK_TIMEOUT_MS)

def feedbackHealthyUnmasked : Task Bool :=
  healthyUnmasked (·.drive.seenValid) (·.drive.lastError) (·.drive.lastValid)
    FEEDBACK_TIMEOUT_MS

def update (f : Tick → Drive → Drive) : Task Unit := .modify fun s => s.setDrive (f s.tick)

/-! ## The request -/

/-- `DRIVEMOTOR_SetHostZeroMotionIntent`. -/
def setHostZeroMotionIntent (zeroIntent : Bool) (s : Firmware) : Firmware :=
  s.setDrive fun d => { d with hostZeroIntent := zeroIntent }

/-- `DRIVEMOTOR_SetSpeedSigned`. -/
def setSpeedSigned (leftPwm rightPwm : BitVec 16) (epoch : Epoch) (s : Firmware) : Firmware :=
  let request := requestFromSignedPwm leftPwm rightPwm
  s.setDrive fun d => { d with
    leftSpeedReq := request.leftSpeed
    rightSpeedReq := request.rightSpeed
    leftDirReq := request.direction &&& 0xC0#8 == 0xC0#8
    rightDirReq := request.direction &&& 0x30#8 == 0x30#8
    authorizationEpoch := epoch }

/-! ## The frame -/

def request (leftSpeed rightSpeed : Byte) (leftDir rightDir : Bool) : DriveRequest :=
  { direction := (if rightDir then 0x30#8 else 0x20#8) ||| (if leftDir then 0xC0#8 else 0x80#8)
    leftSpeed := leftSpeed, rightSpeed := rightSpeed }

/-- `drivemotor_prepareMsg`. -/
def prepareMsg (leftSpeed rightSpeed : Byte) (leftDir rightDir : Bool) : Task Unit := do
  let emergency ← .get fun s => s.emergencyState != 0#8
  let idle ← .get fun s => s.status == .idle
  let inhibited ← .get fun s => s.inhibited
  let healthy ← feedbackHealthyUnmasked
  let zeroIntent ← .get fun s => s.drive.hostZeroIntent
  let epoch ← .get fun s => s.drive.authorizationEpoch
  let current ← .get fun s => s.authorization.driveRequestIsCurrent epoch
  let stop := shouldStopOutput emergency idle inhibited healthy zeroIntent current
  update fun _ d => { d with
    message := (request leftSpeed rightSpeed leftDir rightDir).gated stop }

/-- The gates, read with interrupts masked. -/
def stopped (c : Core) : Bool :=
  shouldStopOutput (c.emergencyState != 0#8) (c.status == .idle) c.inhibited
    (feedbackHealthy c.tick c.drive) c.drive.hostZeroIntent
    (c.authorization.driveRequestIsCurrent c.drive.authorizationEpoch)

/-- The masked section at the end of a pass; a reverse it stops is
    abandoned. -/
def handOver (abandon : Bool) (s : Firmware) : Firmware :=
  let s := if stopped s.toCore then
      s.setDrive fun d => { d with
        message := (request 0#8 0#8 false false).gated true
        state := if abandon then .run else d.state }
    else s
  s.note (.driveFrame s.drive.message)

/-! ## The pass -/

/-- The output is inhibited, or the feedback is not healthy. -/
def linkDown : Task Bool := do
  if ← .get fun s => s.inhibited then return true
  else return !(← feedbackHealthyUnmasked)

def goBackward : Task Unit :=
  update fun now d => { d with state := .backward, timestamp := now }

/-- `HALLSTOP_Left_Sense() || HALLSTOP_Right_Sense()`. -/
def hallStop : Task Bool := do
  if ← ask then return true else ask

/-- A hall sensor has hit something while a wheel is asked to turn forward. -/
def collision : Task Bool := do
  if ← hallStop then
    if ← .get fun s => s.drive.leftDirReq then return true
    else .get fun s => s.drive.rightDirReq
  else return false

def prepareSpeeds : Task Unit := do
  let leftSpeed ← .call fun _ s => (s.drive.leftSpeedReq, s.note .speedRead)
  let rightSpeed ← .get fun s => s.drive.rightSpeedReq
  let leftDir ← .get fun s => s.drive.leftDirReq
  let rightDir ← .get fun s => s.drive.rightDirReq
  prepareMsg leftSpeed rightSpeed leftDir rightDir

def prepareRequest : Task Unit := do
  if ← linkDown then prepareMsg 0#8 0#8 false false else prepareSpeeds

def hit : Task Unit := do
  match ← .get fun s => s.status with
  | .mowing => goBackward
  -- Stopped by the dock, if there is voltage on it.
  | .docking => if ← ask then prepareMsg 0#8 0#8 false false else goBackward
  | _ => pure ()

def running : Task Unit := do
  .whenever (!(← feedbackHealthyUnmasked)) inhibit
  prepareRequest
  .whenever (← .get fun s => s.drive.received.getD 12 0#8 != 0#8) (prepareMsg 0#8 0#8 false false)
  .whenever (← collision) hit
  .modify (handOver false)

def emergencyOrLinkDown : Task Bool := do
  if ← .get fun s => s.emergencyState != 0#8 then return true else linkDown

def prepareReverse : Task Unit := do
  if ← emergencyOrLinkDown then
    inhibit
    prepareMsg 0#8 0#8 false false
    update fun _ d => { d with state := .run }
  else
    .modify fun s => s.note .reverse
    prepareMsg BACKWARD_PWM BACKWARD_PWM false false
    update fun now d =>
      if BACKWARD_MS < now - d.timestamp then { d with state := .wait, timestamp := now } else d

def backward : Task Unit := do
  prepareReverse
  .modify (handOver true)

def waiting : Task Unit := do
  prepareMsg 0#8 0#8 false false
  .modify fun s => s.note (.driveFrame s.drive.message)
  if ← .get fun s => s.emergencyState != 0#8 then update fun _ d => { d with state := .run }
  else update fun now d =>
    if WAIT_MS < now - d.timestamp then { d with state := .run } else d

/-- `DRIVEMOTOR_App_10ms`. -/
def app10ms : Task Unit := do
  match ← .get fun s => s.drive.state with
  | .init => update fun _ d => { d with state := .run }
  | .run => running
  | .backward => backward
  | .wait => waiting

/-! ## The receive interrupt -/

/-- A fault is counted, and the outputs are inhibited. -/
def fault (s : Firmware) : Firmware :=
  (s.setDrive fun d => { d with faultSequence := d.faultSequence + 1#32 }).forceInhibit

def statusValid (msg : List Byte) : Bool :=
  msg.take 5 == [0x55#8, 0xAA#8, 0x10#8, 0x01#8, 0xE0#8] && msg.getD 19 0#8 == crcCalc msg 19

/-- `DRIVEMOTOR_ReceiveIT`. -/
def receiveIT (s : Firmware) : Firmware :=
  let now := s.tick
  if statusValid s.drive.received then
    let s := if s.drive.seenValid && decide (FEEDBACK_TIMEOUT_MS < now - s.drive.lastValid) then
        fault s
      else s
    let s := s.setDrive fun d => { d with
      seenValid := true, lastValid := now, lastError := d.received.getD 12 0#8 != 0#8 }
    if s.drive.lastError then fault s else s
  else fault s

end Drive
end Actuation
end Mowgli
