import Mathlib.Algebra.Order.Ring.Rat
import Mowgli.Lib.History

/-!
# Host — the bridge between the robot's software and its board

`HardwareBridgeNode`, as far as it decides about the blade and about emergencies: the status
packets of the board, the two services, the heartbeat, and the serial port they all write to.
The node runs on one thread, so **a handler is one step**.

Whatever a handler finds outside is given with its event: the readings of its clocks, whether an
update is under way, whether the port took the frame. A write that fails closes the port and
resets what depends on it, in the middle of whichever handler wrote.

`history` is what a run leaves behind, newest first. The claims about the node are sentences
over it.
-/

namespace Mowgli
namespace Bridge

def EMERGENCY_BIT_LATCH : UInt8 := (1 : UInt8) <<< 0
def EMERGENCY_BIT_STOP : UInt8 := (1 : UInt8) <<< 1
def EMERGENCY_BIT_LIFT : UInt8 := (1 : UInt8) <<< 2

/-! ## blade_gate.hpp, blade_reassert.hpp -/

def bladeEnableAllowed (requestedEnable mowingEnabled : Bool) : Bool :=
  requestedEnable && mowingEnabled

structure BladeReassertConfig where
  maxCmdVelAgeS : ℚ := 1 / 10
  minIntervalS : ℚ := 1 / 2
  maxBladeStatusAgeS : ℚ := 1

structure BladeReassertInputs where
  mowEnabled : Bool
  /-- No lift in progress, no delayed lift resume pending. -/
  enableAllowed : Bool
  /-- An explicit ON arrived since the last emergency. -/
  intentAuthorized : Bool
  emergencyActive : Bool
  bladeStatusFresh : Bool
  bladeActive : Bool
  cmdVelAgeS : ℚ
  sinceLastBladeCmdS : ℚ

def bladeIntentMismatch (i : BladeReassertInputs) : Bool :=
  i.mowEnabled && i.enableAllowed && i.bladeStatusFresh && !i.bladeActive

def bladeReassertDue (i : BladeReassertInputs) (cfg : BladeReassertConfig) : Bool :=
  bladeIntentMismatch i && i.intentAuthorized && !i.emergencyActive &&
    decide (cfg.minIntervalS ≤ i.sinceLastBladeCmdS)

def shouldReassertBladeOn (i : BladeReassertInputs) (cfg : BladeReassertConfig) : Bool :=
  bladeReassertDue i cfg && decide (i.cmdVelAgeS ≤ cfg.maxCmdVelAgeS)

def steadyReceiptIsFresh (nowNs receiptNs maxAgeNs : Int) : Bool :=
  decide (receiptNs > 0) && decide (nowNs ≥ receiptNs) && decide (nowNs - receiptNs ≤ maxAgeNs)

/-! ## The node -/

/-- Who asked for a blade command. It is not on the wire. -/
inductive Path where
  | request
  | lift
  | resume
  | reassert
  deriving DecidableEq

/-- The packets that reach the open port, whether it takes them whole or not. -/
inductive Packet where
  | heartbeat (emergencyRequested emergencyReleaseRequested : Bool)
  | cmdBlade (path : Path) (bladeOn bladeDir : UInt8)
  | cmdVel
  | other
  deriving DecidableEq

/-- `declare_parameter`, read once. -/
structure Params where
  liftRecoveryMode : Bool
  liftBladeResumeDelaySec : ℚ
  mowingEnabled : Bool
  cfg : BladeReassertConfig := {}

structure Node where
  emergencyActive : Bool := false
  emergencyReleasePending : Bool := false
  /-- Send release for first 5 heartbeats. -/
  startupReleaseCount : Nat := 5
  fwLatchedEmergency : Bool := false
  liftDetected : Bool := false
  desiredBladeDirection : UInt8 := 0
  bladeWasEnabledBeforeLift : Bool := false
  liftClearedTime : Int := 0
  waitingBladeResume : Bool := false
  mowEnabled : Bool := false
  bladeIntentAuthorized : Bool := false
  lastCmdVelPacketNs : Int := 0
  lastBladeCmdNs : Int := 0
  bladeMismatchSinceNs : Int := 0
  bladeActive : Bool := false
  haveBladeStatus : Bool := false
  lastBladeStatusSteadyNs : Int := 0
  serialOpen : Bool
  /-- What the running handler has sent so far. -/
  sent : List Packet := []

/-- What one send finds outside. -/
structure Sending where
  updateMaintenanceActive : Bool := false
  /-- `write_all` wrote the whole frame. -/
  writtenWhole : Bool := true
  /-- `steadyNowNs()` after it. -/
  sentNs : Int := 0

namespace Node

def cancelBladeResume (s : Node) : Node :=
  { s with bladeWasEnabledBeforeLift := false, waitingBladeResume := false }

def resetSerialDependentState (s : Node) : Node :=
  cancelBladeResume { s with
    mowEnabled := false
    bladeIntentAuthorized := false
    liftDetected := false
    haveBladeStatus := false }

def closeSerialForReconnect (s : Node) : Node :=
  { s.resetSerialDependentState with serialOpen := false }

/-- `send_raw_packet`, and whether it returned true. -/
def sendRawPacket (s : Node) (packet : Packet) (w : Sending) : Bool × Node :=
  if !s.serialOpen then (false, s)
  else if w.writtenWhole then (true, { s with sent := s.sent ++ [packet] })
  else (false, closeSerialForReconnect { s with sent := s.sent ++ [packet] })

def sendBladeCommand (s : Node) (path : Path) (on dir : UInt8) (w : Sending) : Node :=
  let on := if w.updateMaintenanceActive then 0 else on
  let s := { s with mowEnabled := s.mowEnabled && !w.updateMaintenanceActive }
  match s.sendRawPacket (.cmdBlade path on dir) w with
  | (false, s) => s.cancelBladeResume
  | (true, s) => { s with lastBladeCmdNs := w.sentNs }

/-- `representable` is `is_float32_representable_velocity_command` of the command; an update puts
    zero in its place. -/
def sendCmdVelPacket (s : Node) (representable : Bool) (w : Sending) : Node :=
  if !(w.updateMaintenanceActive || representable) then s
  else
    match s.sendRawPacket .cmdVel w with
    | (false, s) => s
    | (true, s) => { s with lastCmdVelPacketNs := w.sentNs }

def sendHeartbeat (s : Node) (w : Sending) : Node :=
  (sendRawPacket { s with emergencyReleasePending := false }
    (.heartbeat s.emergencyActive s.emergencyReleasePending) w).2

end Node

/-! ## Status packets -/

/-- What `handle_status` finds outside. -/
structure StatusFinds where
  /-- `now()` where the lift is seen to clear, and where the delay is looked at. -/
  clearTime : Int := 0
  resumeTime : Int := 0
  off : Sending := {}
  on : Sending := {}

def stopActive (bits : UInt8) : Bool := bits &&& EMERGENCY_BIT_STOP != 0
def liftActive (bits : UInt8) : Bool := bits &&& EMERGENCY_BIT_LIFT != 0
def latchActive (bits : UInt8) : Bool := bits &&& EMERGENCY_BIT_LATCH != 0

/-- `(now() - then).seconds()`. -/
def seconds (now_ then_ : Int) : ℚ := (now_ - then_ : Int) / 1000000000

variable (p : Params)

namespace Node

/-- Lift recovery mode: the blade off, and the latch of the lift released. -/
def liftWarning (s : Node) (bits : UInt8) (f : StatusFinds) : Node :=
  let s := { s with fwLatchedEmergency := false }
  let s :=
    if s.liftDetected then s
    else
      let s := { s with
        waitingBladeResume := false
        liftDetected := true
        bladeWasEnabledBeforeLift := s.mowEnabled }
      if s.mowEnabled then s.sendBladeCommand .lift 0 0 f.off else s
  if latchActive bits then { s with emergencyReleasePending := true } else s

/-- Normal mode or stop button: full emergency. -/
def fullEmergency (s : Node) (bits : UInt8) : Node :=
  { s with
    bladeIntentAuthorized :=
      s.bladeIntentAuthorized && !(stopActive bits || liftActive bits || latchActive bits)
    fwLatchedEmergency := latchActive bits }

/-- A delayed recovery must never undo a newer stop or an emergency. -/
def cancelOnEmergency (s : Node) (bits : UInt8) : Node :=
  if stopActive bits || (!p.liftRecoveryMode && (liftActive bits || latchActive bits)) then
    s.cancelBladeResume
  else s

def liftCleared (s : Node) (bits : UInt8) (f : StatusFinds) : Node :=
  if s.liftDetected && !liftActive bits then
    let s := { s with liftDetected := false }
    if s.bladeWasEnabledBeforeLift && s.mowEnabled && !stopActive bits then
      { s with liftClearedTime := f.clearTime, waitingBladeResume := true }
    else s
  else s

def resumeBlade (s : Node) (bits : UInt8) (f : StatusFinds) : Node :=
  if s.waitingBladeResume && !liftActive bits && !stopActive bits && !latchActive bits &&
      decide (p.liftBladeResumeDelaySec ≤ seconds f.resumeTime s.liftClearedTime) then
    let s :=
      if s.mowEnabled && p.mowingEnabled then
        s.sendBladeCommand .resume 1 s.desiredBladeDirection f.on
      else s
    s.cancelBladeResume
  else s

def handleStatus (s : Node) (bits : UInt8) (f : StatusFinds) : Node :=
  let s :=
    if p.liftRecoveryMode && liftActive bits && !stopActive bits then s.liftWarning bits f
    else s.fullEmergency bits
  ((s.cancelOnEmergency p bits).liftCleared bits f).resumeBlade p bits f

def handleBladeStatus (s : Node) (isActive : UInt8) (receiptNs : Int) : Node :=
  { s with
    bladeActive := isActive != 0
    haveBladeStatus := true
    lastBladeStatusSteadyNs := receiptNs }

end Node

/-! ## Services -/

/-- What `on_mower_control` finds outside: both looks at the clock, and its two sends. -/
structure ControlFinds where
  beforeNs : Int := 0
  afterNs : Int := 0
  zero : Sending := {}
  blade : Sending := {}

namespace Node

def freshCmdVel (s : Node) (nowNs : Int) : Bool :=
  s.lastCmdVelPacketNs != 0 && decide (nowNs ≥ s.lastCmdVelPacketNs) &&
    decide (nowNs - s.lastCmdVelPacketNs ≤ (p.cfg.maxCmdVelAgeS * 1000000000).floor)

def sendBladeOnWithFreshVelocity (s : Node) (f : ControlFinds) : Node :=
  let s := if s.freshCmdVel p f.beforeNs then s else s.sendCmdVelPacket true f.zero
  if s.freshCmdVel p f.afterNs then
    s.sendBladeCommand .request 1 s.desiredBladeDirection f.blade
  else s

/-- What a request changes before anything is sent. -/
def takeRequest (s : Node) (mowEnabled mowDirection : UInt8) : Node :=
  let enabled := bladeEnableAllowed (mowEnabled != 0) p.mowingEnabled
  let s := { s with
    mowEnabled := enabled
    bladeIntentAuthorized := enabled && !s.emergencyActive && !s.fwLatchedEmergency }
  if enabled then
    { s with
      desiredBladeDirection := mowDirection
      bladeWasEnabledBeforeLift := s.bladeWasEnabledBeforeLift || s.liftDetected }
  else s.cancelBladeResume

def onMowerControl (s : Node) (mowEnabled mowDirection : UInt8) (f : ControlFinds) : Node :=
  let s := s.takeRequest p mowEnabled mowDirection
  -- Repeated ONs must not bypass the lift-clear delay.
  let enableNow := s.mowEnabled && !s.liftDetected && !s.waitingBladeResume
  if enableNow && !s.emergencyActive && !s.fwLatchedEmergency then
    s.sendBladeOnWithFreshVelocity p f
  else s.sendBladeCommand .request (if enableNow then 1 else 0) s.desiredBladeDirection f.blade

def onEmergencyStop (s : Node) (emergency : UInt8) (beat : Sending) : Node :=
  let s :=
    if emergency != 0 then
      { s.cancelBladeResume with bladeIntentAuthorized := false, emergencyActive := true }
    else { s with emergencyActive := false, emergencyReleasePending := true }
  s.sendHeartbeat beat

/-! ## The heartbeat timer -/

def ageS (nowNs thenNs : Int) : ℚ := if thenNs = 0 then 1000000000 else seconds nowNs thenNs

def reassertInputs (s : Node) (nowNs : Int) : BladeReassertInputs :=
  { mowEnabled := s.mowEnabled
    enableAllowed := !s.liftDetected && !s.waitingBladeResume
    intentAuthorized := s.bladeIntentAuthorized
    emergencyActive := s.emergencyActive || s.fwLatchedEmergency
    bladeStatusFresh := s.haveBladeStatus && steadyReceiptIsFresh nowNs s.lastBladeStatusSteadyNs
      (p.cfg.maxBladeStatusAgeS * 1000000000).floor
    bladeActive := s.bladeActive
    cmdVelAgeS := ageS nowNs s.lastCmdVelPacketNs
    sinceLastBladeCmdS := ageS nowNs s.lastBladeCmdNs }

def bladeReassertTick (s : Node) (nowNs : Int) (blade : Sending) : Node :=
  let s := { s with bladeIntentAuthorized :=
    s.bladeIntentAuthorized && !(s.emergencyActive || s.fwLatchedEmergency) }
  let i := s.reassertInputs p nowNs
  if !bladeIntentMismatch i then { s with bladeMismatchSinceNs := 0 }
  else
    let s :=
      if s.bladeMismatchSinceNs = 0 then { s with bladeMismatchSinceNs := nowNs } else s
    if shouldReassertBladeOn i p.cfg then
      s.sendBladeCommand .reassert 1 s.desiredBladeDirection blade
    else s

def heartbeatTick (s : Node) (beat : Sending) (nowNs : Int) (blade : Sending) : Node :=
  let s :=
    if 0 < s.startupReleaseCount then
      { s with emergencyReleasePending := true, startupReleaseCount := s.startupReleaseCount - 1 }
    else s
  (s.sendHeartbeat beat).bladeReassertTick p nowNs blade

end Node

/-! ## Runs -/

inductive Event where
  | status (emergencyBitmask : UInt8) (f : StatusFinds)
  | bladeStatus (isActive : UInt8) (receiptNs : Int)
  | mowerControl (mowEnabled mowDirection : UInt8) (f : ControlFinds)
  | emergencyStop (emergency : UInt8) (beat : Sending)
  | heartbeatTick (beat : Sending) (nowNs : Int) (blade : Sending)
  | cmdVel (representable : Bool) (w : Sending)
  /-- Every other packet the node sends. -/
  | sendOther (w : Sending)
  /-- `read_serial_tick` opens the port again. -/
  | reopen
  /-- A read error, or no data for too long. -/
  | linkLost

def Node.apply (s : Node) : Event → Node
  | .status bits f => s.handleStatus p bits f
  | .bladeStatus isActive receiptNs => s.handleBladeStatus isActive receiptNs
  | .mowerControl mowEnabled mowDirection f => s.onMowerControl p mowEnabled mowDirection f
  | .emergencyStop emergency beat => s.onEmergencyStop emergency beat
  | .heartbeatTick beat nowNs blade => s.heartbeatTick p beat nowNs blade
  | .cmdVel representable w => s.sendCmdVelPacket representable w
  | .sendOther w => (s.sendRawPacket .other w).2
  | .reopen => if s.serialOpen then s else { s.resetSerialDependentState with serialOpen := true }
  | .linkLost => if s.serialOpen then s.closeSerialForReconnect else s

def Node.step (s : Node) (e : Event) : Node := ({ s with sent := [] } : Node).apply p e

/-- One handler that ran: its event, the node before it and the packets it sent. -/
structure Entry where
  event : Event
  before : Node
  sent : List Packet

def Entry.mark (e : Event) (before after : Node) : Entry := ⟨e, before, after.sent⟩

/-- The runs of a node from its start, with the port open or not. -/
def history (serialOpen : Bool) (es : List Event) : List Entry :=
  (History.run (Node.step p) Entry.mark { serialOpen := serialOpen } [] es).2

end Bridge
end Mowgli
