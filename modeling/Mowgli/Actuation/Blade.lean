import Mowgli.Actuation.Firmware

/-!
# Blade — the blade driver

`blademotor.c`. The upper loop leaves a request with its authorization token
(`Blade.set`), the driver's own pass builds one frame from it and hands it to the UART
(`Blade.app`), and the receive interrupt decodes the controller's reply
(`Blade.receiveIT`).

**The token is checked again where the frame is built**, with interrupts masked up to the
handover (`handOver`). A change of direction is held back there until the controller has
reported a stop for long enough; the receive interrupt keeps the part of that which the
foreground could miss.

Answers of the environment: whether a UART is ready, whether a transfer was taken.
-/

namespace Mowgli
namespace Actuation
namespace Blade

def REVERSE_OFF_MS : Tick := 1000#32
def ZERO_CONFIRM_MS : Tick := 300#32
def FEEDBACK_MAX_AGE_MS : Tick := 300#32
def RX_TIMEOUT_MS : Tick := 100#32
def LENGTH_VERSION_RESPONSE : Nat := 12

/-- `BLADEMOTOR_FeedbackHealthy`, with interrupts masked. -/
def feedbackHealthy (now : Tick) (b : Blade) : Bool :=
  b.seenValid && !b.lastError && decide (now - b.lastValid ≤ FEEDBACK_MAX_AGE_MS)

def feedbackHealthyUnmasked : Task Bool :=
  healthyUnmasked (·.blade.seenValid) (·.blade.lastError) (·.blade.lastValid)
    FEEDBACK_MAX_AGE_MS

/-! ## The request -/

def cancelOnRequest (b : Blade) : Blade :=
  { b with
    onOff := false, onEpoch := 0#32, reversePending := false, offSent := false
    zeroSeen := false }

/-- What `BLADEMOTOR_Set` and the final check both ask of the system. -/
def permitted (c : Core) (epoch : Epoch) : Bool :=
  c.emergencyState == 0#8 && c.status != .idle && !c.inhibited &&
    c.authorization.driveRequestIsCurrent epoch

def onRequestIsAuthorized (c : Core) : Bool := c.blade.onOff && permitted c c.blade.onEpoch

/-- `BLADEMOTOR_Set`. -/
def set (on : Bool) (direction : Byte) (epoch : Epoch) (s : Firmware) : Firmware :=
  let s := s.setBlade fun b => { b with direction := direction != 0#8 }
  if on && permitted s.toCore epoch then
    s.setBlade fun b => { b with onEpoch := epoch, onOff := true }
  else s.setBlade cancelOnRequest

/-! ## The frame -/

/-- The stillness was broken since the last look. -/
def syncZero (b : Blade) : Blade :=
  if b.feedback.zeroEpoch = b.zeroEpoch then b
  else { b with zeroSeen := false, zeroEpoch := b.feedback.zeroEpoch }

/-- A new reply of a standing blade. -/
def countZero (b : Blade) : Blade :=
  if b.zeroSeen then { b with lastFeedbackSeq := b.feedback.seq }
  else { b with
    lastFeedbackSeq := b.feedback.seq, zeroSince := b.feedback.tick, zeroSeen := true }

/-- `blademotor_feedback_qualified_for_reverse`. -/
def qualifiedForReverse (now : Tick) (b : Blade) : Bool × Blade :=
  let f := b.feedback
  let b := syncZero b
  if !b.offSent || !f.valid || f.activated || f.error != 0#8 || f.reportedSpeed != 0#16 ||
      decide (FEEDBACK_MAX_AGE_MS < now - f.tick) then
    (false, { b with zeroSeen := false, lastFeedbackSeq := f.seq })
  -- Release only while consuming a new reply.
  else if f.seq = b.lastFeedbackSeq then (false, b)
  else
    let b := countZero b
    (decide (ZERO_CONFIRM_MS ≤ f.tick - b.zeroSince) &&
      decide (REVERSE_OFF_MS ≤ now - b.stopSince), b)

/-- A direction the blade does not run in starts a reversal. -/
def startReversal (b : Blade) : Blade :=
  if !b.reversePending && b.direction != b.runDirection then
    { b with reversePending := true, offSent := false, zeroSeen := false }
  else b

/-- The command of an authorized request over healthy links. -/
def chooseCommand (B : Board) (now : Tick) (b : Blade) : Blade :=
  let b := startReversal b
  if b.reversePending then
    let r := qualifiedForReverse now b
    { r.2 with command := if r.1 then B.runCommand b.direction else B.stopCommand }
  else { b with command := B.runCommand b.direction }

/-- `blademotor_prepareMsg`. -/
def prepareMsg (B : Board) (s : Firmware) : Firmware :=
  let s := if feedbackHealthy s.tick s.blade then s else s.forceInhibit
  let s := if s.blade.onOff && !onRequestIsAuthorized s.toCore then s.setBlade cancelOnRequest
    else s
  if !s.blade.onOff then
    s.setBlade fun b => { b with
      reversePending := false, offSent := false, zeroSeen := false, command := B.stopCommand }
  else if !s.inhibited && feedbackHealthy s.tick s.blade then
    s.setBlade (chooseCommand B s.tick)
  else s.setBlade fun b => { b with command := B.stopCommand }

/-- What a frame the UART has taken leaves behind. -/
def sent (now : Tick) (b : Blade) : Blade :=
  if b.command &&& 0x80#8 ≠ 0#8 then
    { b with runDirection := b.direction, reversePending := false }
  -- A frame that was not taken must not start the stop timer.
  else if b.reversePending && !b.offSent then
    { b with stopSince := now, lastFeedbackSeq := b.feedback.seq, offSent := true }
  else b

/-- The masked section at the end of a pass. -/
def handOver (B : Board) (transmitted : Bool) (s : Firmware) : Firmware :=
  let s := prepareMsg B s
  let s := s.note (.bladeFrame s.blade.command transmitted)
  if transmitted then s.setBlade (sent s.tick) else s

/-! ## The pass -/

def update (f : Tick → Blade → Blade) : Task Unit := .modify fun s => s.setBlade (f s.tick)

/-- Whether the state has lasted `limit`. -/
def lasted (limit : Tick) : Task Bool :=
  .get fun s => decide (limit ≤ s.tick - s.blade.stateStarted)

def enter (state : BladeState) : Task Unit := do
  update fun now b => { b with stateStarted := now }
  update fun _ b => { b with state := state }

/-- The startup begins again from `BLADEMOTOR_LOGIC_BOOT`, after a longer wait. -/
def retryStartup : Task Unit := do
  update fun _ b => { b with versionRxArmed := false }
  update fun _ b => { b with startupRetryPending := true }
  enter .logicBoot

def retryInhibited : Task Unit := do
  retryStartup
  inhibit

def logicBoot : Task Unit := do
  let retry ← .get fun s => s.blade.startupRetryPending
  if ← lasted (if retry then 1000#32 else 100#32) then
    if ← ask then
      update fun _ b => { b with versionResponseComplete := false }
      update fun _ b => { b with versionResponseValid := false }
      update fun _ b => { b with versionRxArmed := true }
      if ← ask then
        if ← ask then enter .versionWait else retryInhibited
      else retryInhibited
    else pure ()
  else pure ()

def versionAnswer : Task Unit := do
  if ← .get fun s => s.blade.versionResponseComplete then
    if ← .get fun s => s.blade.versionResponseValid then
      if ← ask then
        update fun _ b => { b with versionRxArmed := false }
        update fun _ b => { b with startupRetryPending := false }
        enter .matrixWait
      else retryInhibited
    else retryStartup
  else pure ()

def versionWait : Task Unit := do
  .whenever ((← lasted 20#32) && (← ask)) versionAnswer
  let late ← .get fun s =>
    decide (s.blade.state = .versionWait ∧ 350#32 < s.tick - s.blade.stateStarted)
  .whenever late retryInhibited

/-- The response window of the last command is closed, or still open: `false`. -/
def closeWindow : Task Bool := do
  if ← .get fun s => s.blade.rxArmed then
    if ← ask then
      update fun _ b => { b with rxArmed := false }
      return true
    else if ← .get fun s => decide (s.tick - s.blade.rxStarted < RX_TIMEOUT_MS) then
      return false
    -- The receive is aborted; the HAL may fail to reclaim the DMA.
    else if ← ask then
      update fun _ b => { b with rxArmed := false }
      inhibit
      return true
    else
      update fun now b => { b with rxStarted := now }
      inhibit
      return false
  else return true

/-- The next response window is opened. -/
def openWindow : Task Bool := do
  if ← ask then
    update fun _ b => { b with rxArmed := true }
    update fun now b => { b with rxStarted := now }
    return true
  else
    inhibit
    return false

def running (B : Board) : Task Unit := do
  .whenever (← .get fun s => s.blade.received.getD 6 0#8 != 0#8) (update fun _ b => { b with
    onOff := false, reversePending := false, offSent := false, zeroSeen := false })
  if ← closeWindow then
    if ← openWindow then
      -- A request buffer the DMA still owns is not rewritten.
      .whenever (← ask) (.call fun w s => ((), handOver B w.yes s))
    else pure ()
  else pure ()

/-- `BLADEMOTOR_App`. -/
def app (B : Board) : Task Unit := do
  .whenever (!(← feedbackHealthyUnmasked)) inhibit
  match ← .get fun s => s.blade.state with
  | .resetHold => .whenever (← lasted 50#32) (enter .logicBoot)
  | .logicBoot => logicBoot
  | .versionWait => versionWait
  | .matrixWait => .whenever ((← lasted 20#32) && (← ask)) (enter .powerWait)
  | .powerWait => .whenever (← lasted 50#32) (update fun _ b => { b with state := .run })
  | .init => update fun _ b => { b with state := .run }
  | .run => running B

/-! ## The receive interrupt -/

def versionValid (msg : List Byte) : Bool :=
  msg.take 5 == [0x55#8, 0xAA#8, BitVec.ofNat 8 (LENGTH_VERSION_RESPONSE - 4), 0x02#8, 0xDA#8] &&
    msg.getD (LENGTH_VERSION_RESPONSE - 1) 0#8 == crcCalc msg (LENGTH_VERSION_RESPONSE - 1)

/-- A fault is counted, and the outputs are inhibited. -/
def fault (s : Firmware) : Firmware :=
  (s.setBlade fun b => { b with faultSequence := b.faultSequence + 1#32 }).forceInhibit

def receiveVersion (s : Firmware) : Firmware :=
  let valid := versionValid s.blade.received
  let s := s.setBlade fun b => { b with
    versionRxArmed := false, versionResponseValid := valid, versionResponseComplete := true }
  if valid then s else fault s

def statusValid (B : Board) (msg : List Byte) : Bool :=
  msg.take 2 == [0x55#8, 0xAA#8] &&
    msg.getD (B.receivedLength - 1) 0#8 == crcCalc msg (B.receivedLength - 1)

/-- The fields of a status frame. -/
def decode (msg : List Byte) (f : Feedback) : Feedback :=
  { f with
    activated := msg.getD 5 0#8 &&& 0x80#8 == 0x80#8
    error := msg.getD 6 0#8
    reportedSpeed := msg.getD 8 0#8 ++ msg.getD 7 0#8
    valid := true }

/-- A status frame that passed its checks. -/
def acceptStatus (s : Firmware) : Firmware :=
  let now := s.tick
  let s := s.setBlade fun b => { b with feedback := decode b.received b.feedback }
  let s := if s.blade.seenValid && decide (FEEDBACK_MAX_AGE_MS < now - s.blade.lastValid) then
      fault s
    else s
  let s := s.setBlade fun b => { b with
    seenValid := true, lastValid := now, lastError := b.feedback.error != 0#8 }
  if s.blade.lastError then fault s else s

/-- A reply that is not of a standing blade, or comes after a gap, breaks the epoch. -/
def arrived (now : Tick) (f : Feedback) : Feedback :=
  { f with
    zeroEpoch := if !f.standing || decide (FEEDBACK_MAX_AGE_MS < now - f.tick) then
        f.zeroEpoch + 1#32
      else f.zeroEpoch
    tick := now
    seq := f.seq + 1#32 }

def receiveStatus (B : Board) (s : Firmware) : Firmware :=
  let s := if statusValid B s.blade.received then acceptStatus s
    else fault (s.setBlade fun b => { b with feedback := { b.feedback with valid := false } })
  let f := s.blade.feedback
  let s := s.note (.bladeReply f.valid f.activated f.error f.reportedSpeed)
  s.setBlade fun b => { b with feedback := arrived s.tick b.feedback }

/-- `BLADEMOTOR_ReceiveIT`. -/
def receiveIT (B : Board) (s : Firmware) : Firmware :=
  let s := s.setBlade fun b => { b with rxArmed := false }
  if B.sequencedPower && s.blade.versionRxArmed then receiveVersion s
  -- A late completion of an aborted query is no status frame.
  else if B.sequencedPower && s.blade.state != .run then s
  else receiveStatus B s

end Blade
end Actuation
end Mowgli
