import Mowgli.Lib.Receiver
import Mowgli.Lib.Ring

/-!
# Cdc — the transmit side of the USB serial port

Producers enqueue into a ring of 8192 bytes behind two free-running counters; what stands
at its tail is handed to USB, one transfer at a time, and the tail moves when the transfer
has completed. Producers mask the interrupts, so each call is one step; the completion is
the USB interrupt.

A transfer that stays busy for more than half a second is given up: on most boards **the
queue is emptied** and held until the transfer completes after all, on variant B it is only
held, until a recovery service has restarted USB. (The service, and what the host does to
the connection, are not part of this model.)

What a step does to the ring and to USB is an `Effect`.
-/

namespace Mowgli
namespace Usb

abbrev Byte := BitVec 8
abbrev Tick := BitVec 32

def APP_TX_DATA_SIZE : Nat := 8192
def CDC_DATA_MAX_PACKET_SIZE : Nat := 64
def CDC_TX_BUSY_TIMEOUT_MS : Tick := 500#32
def CDC_TELEMETRY_PROBE_MS : Tick := 1000#32
def CDC_USB_RECOVERY_COOLDOWN_MS : Tick := 5000#32

inductive RecoveryState where
  | running
  | recoveryRequested
  | detached
  | enumerating
deriving DecidableEq

/-- The statics of `usbd_cdc_if.c` on the transmit side, and what they read of the USB class. -/
structure Cdc where
  /-- `UserTxBufferFS`. -/
  buffer : Nat → Byte
  txHead : BitVec 32
  txTail : BitVec 32
  /-- `HAL_GetTick()`. -/
  tick : Tick
  lastTransmitStart : Tick
  lastTransmitComplete : Tick
  lastTransmitSubmit : Tick
  txDropCounterHead : BitVec 32
  txQueueFullCount : BitVec 32
  txPacketFailCount : BitVec 32
  txBusyStuckCount : BitVec 32
  txCompleteMissingCount : BitVec 32
  usbSuspended : Bool
  txPacketArmed : Bool
  txPacketFailPendingRecovery : Bool
  txRecoveryHold : Bool
  recoveryState : RecoveryState
  hasReceived : Bool
  lastReceiveTick : Tick
  hasUsbRecovered : Bool
  lastUsbRecoveryTick : Tick
  /-- `CDC_IsConfiguredInternal()`. -/
  configured : Bool
  /-- `hcdc->TxState` and `hcdc->TxLength`. -/
  txState : Bool
  txLength : Nat
  /-- The controller has a transfer to complete. -/
  onWire : Bool

inductive Effect where
  /-- A buffer is enqueued, or refused. -/
  | accepted (bytes : List Byte)
  | refused (bytes : List Byte)
  /-- A `memcpy` to `UserTxBufferFS + index`. -/
  | wrote (index : Nat) (bytes : List Byte)
  /-- `USBD_CDC_TransmitPacket` has taken the bytes at `UserTxBufferFS + index`. -/
  | handed (index : Nat) (bytes : List Byte)
  /-- A transfer has completed. -/
  | completed
  /-- What is in the queue is thrown away. -/
  | discarded
  | elapsed (milliseconds : BitVec 32)
deriving DecidableEq

namespace Cdc

/-! ## The queue -/

/-- `CDC_TXQueue_GetReadAvailable`. -/
def readAvailable (s : Cdc) : BitVec 32 := s.txHead - s.txTail

/-- `CDC_TXQueue_GetWriteAvailable`. -/
def writeAvailable (s : Cdc) : BitVec 32 := BitVec.ofNat 32 APP_TX_DATA_SIZE - s.readAvailable

/-- `CDC_TXQueue_Enqueue`, of bytes there is room for. -/
def insert (bytes : List Byte) (s : Cdc) : Cdc × List Effect :=
  let first := Ring.firstPart APP_TX_DATA_SIZE s.txHead.toNat bytes
  let second := Ring.secondPart APP_TX_DATA_SIZE s.txHead.toNat bytes
  ({ s with
      buffer := Ring.put APP_TX_DATA_SIZE s.buffer s.txHead.toNat bytes
      txHead := s.txHead + BitVec.ofNat 32 first.length + BitVec.ofNat 32 second.length },
    [.wrote (s.txHead.toNat % APP_TX_DATA_SIZE) first, .wrote 0 second, .accepted bytes])

/-- `CDC_TXQueue_Enqueue`: whether it is `USBD_OK`. -/
def enqueue (bytes : List Byte) (s : Cdc) : Bool × Cdc × List Effect :=
  if s.writeAvailable < BitVec.ofNat 32 bytes.length then (false, s, [.refused bytes])
  else (true, s.insert bytes)

/-- `CDC_TXQueue_Dequeue`: how many bytes from the tail on make the next transfer. -/
def dequeueLength (s : Cdc) : Nat :=
  let queueSize := s.readAvailable.toNat
  if queueSize = 0 then 0
  else
    let sizeTillWrapAround := APP_TX_DATA_SIZE - s.txTail.toNat % APP_TX_DATA_SIZE
    let length := min (min queueSize sizeTillWrapAround) 4096
    -- A multiple of the packet size would cost a transfer of length zero.
    if length % CDC_DATA_MAX_PACKET_SIZE = 0 then length - 1 else length

/-! ## The transfers -/

/-- `CDC_EnterRecoveryHold`. -/
def enterRecoveryHold (s : Cdc) : Cdc :=
  { s with
    txPacketArmed := false, txPacketFailPendingRecovery := false, lastTransmitSubmit := 0#32
    txTail := s.txHead, txRecoveryHold := true }

/-- `CDC_ClearRecoveryHold`; `variantB` is `BOARD_YARDFORCE500_VARIANT_B`. -/
def clearRecoveryHold (variantB : Bool) (s : Cdc) : Cdc :=
  if variantB && s.recoveryState != .running then s else { s with txRecoveryHold := false }

/-- A transfer is armed, and has not completed for too long. -/
def busyStuck (s : Cdc) : Bool :=
  (s.txPacketArmed || s.txPacketFailPendingRecovery) && s.configured && !s.usbSuspended &&
    decide (CDC_TX_BUSY_TIMEOUT_MS < s.tick - s.lastTransmitSubmit)

def recoveryAllowed (s : Cdc) : Bool :=
  s.hasReceived && decide (s.tick - s.lastReceiveTick < CDC_TELEMETRY_PROBE_MS) &&
    (!s.hasUsbRecovered ||
      decide (CDC_USB_RECOVERY_COOLDOWN_MS ≤ s.tick - s.lastUsbRecoveryTick))

/-- The transfer is given up. -/
def giveUp (variantB : Bool) (s : Cdc) : Cdc × List Effect :=
  let s := { s with
    txBusyStuckCount := s.txBusyStuckCount + 1#32
    txCompleteMissingCount := s.txCompleteMissingCount + 1#32 }
  if variantB then
    ({ s with
        txRecoveryHold := true
        recoveryState := if s.recoveryAllowed then .recoveryRequested else s.recoveryState }, [])
  else (enterRecoveryHold { s with txState := false }, [.discarded])

/-- `USBD_CDC_SetTxBuffer`, and `USBD_CDC_TransmitPacket` that is `USBD_OK` or not. -/
def submit (transmitOk : Bool) (s : Cdc) : Cdc × List Effect :=
  let length := s.dequeueLength
  let index := s.txTail.toNat % APP_TX_DATA_SIZE
  if length = 0 then (s, [])
  else if transmitOk then
    ({ s with
        txLength := length % 2 ^ 16, txPacketArmed := true, txPacketFailPendingRecovery := false
        lastTransmitSubmit := s.tick, txState := true, onWire := true },
      [.handed index (Ring.slice s.buffer index length)])
  else
    ({ s with
        txLength := length % 2 ^ 16, txPacketArmed := false, txPacketFailPendingRecovery := true
        lastTransmitSubmit := s.tick, txPacketFailCount := s.txPacketFailCount + 1#32 }, [])

/-- `CDC_ResumeTransmit`. -/
def resumeTransmit (variantB transmitOk : Bool) (s : Cdc) : Cdc × List Effect :=
  if s.txRecoveryHold then (s, [])
  else if s.txState then
    if s.busyStuck then s.giveUp variantB else (s, [])
  else if !s.configured || s.usbSuspended then (s, [])
  else s.submit transmitOk

/-- `CDC_Transmit`: whether it is `USBD_OK`. -/
def transmit (variantB transmitOk : Bool) (bytes : List Byte) (s : Cdc) :
    Bool × Cdc × List Effect :=
  let r := enqueue bytes { s with lastTransmitStart := s.tick }
  let s := if r.1 then r.2.1 else { r.2.1 with
    txDropCounterHead := r.2.1.txDropCounterHead + 1#32
    txQueueFullCount := r.2.1.txQueueFullCount + 1#32 }
  let t := s.resumeTransmit variantB transmitOk
  (r.1, t.1, r.2.2 ++ t.2)

/-- `CDC_TransmitCplt`. -/
def transmitCplt (variantB transmitOk : Bool) (s : Cdc) : Cdc × List Effect :=
  if variantB && s.recoveryState != .running then (s, [])
  else
    let s := { s with
      lastTransmitComplete := s.tick
      txTail := if s.txPacketArmed then s.txTail + BitVec.ofNat 32 s.txLength else s.txTail
      txPacketArmed := false, txPacketFailPendingRecovery := false, lastTransmitSubmit := 0#32 }
    (s.clearRecoveryHold variantB).resumeTransmit variantB transmitOk

/-! ## The interrupts -/

inductive Irq where
  /-- `USBD_CDC_DataIn`: the transfer has completed. -/
  | dataIn (transmitOk : Bool)
  /-- `CDC_Receive`; the receive queue is not looked at here. -/
  | received
  | devState (configured : Bool)
  | tick (milliseconds : BitVec 32)

/-- `CDC_Receive`, on the transmit side. -/
def receive (variantB : Bool) (s : Cdc) : Cdc :=
  if variantB && s.recoveryState != .running then s
  else
    { s.clearRecoveryHold variantB with
      lastReceiveTick := if variantB then s.tick else s.lastReceiveTick
      hasReceived := s.hasReceived || variantB
      txPacketFailPendingRecovery := false }

def irq (variantB : Bool) (s : Cdc) : Irq → Cdc × List Effect
  | .dataIn transmitOk =>
    if s.onWire then
      let r := transmitCplt variantB transmitOk { s with txState := false, onWire := false }
      (r.1, .completed :: r.2)
    else (s, [])
  | .received => (s.receive variantB, [])
  | .devState configured => ({ s with configured := configured }, [])
  | .tick milliseconds => ({ s with tick := s.tick + milliseconds }, [.elapsed milliseconds])

def interrupts (variantB : Bool) : Receiver Irq Cdc Effect := ⟨irq variantB⟩

/-! ## The timed variant -/

/-- A turn of the loop: the interrupts before it, and what USB answers in it. -/
structure Turn where
  irqs : List Irq
  transmitOk : Bool

/-- The loop of `CDC_TransmitTimed` over the bytes at `Buf + offset`; `none` is a loop that is
    still running after all turns. -/
def timedLoop (variantB : Bool) (Buf : Nat → Byte) (start timeoutMs : Tick) :
    List Turn → Nat → Nat → Cdc → Option Bool × Cdc × List Effect
  | _, _, 0, s => (some true, s, [])
  | [], _, _ + 1, s => (none, s, [])
  | turn :: turns, offset, rest + 1, s =>
    let s₁ := (interrupts variantB).state s turn.irqs
    let before := (interrupts variantB).delivered s turn.irqs
    if timeoutMs < s₁.tick - start then (some false, s₁, before)
    else
      let enqueueSize := min (rest + 1) APP_TX_DATA_SIZE
      let r := transmit variantB turn.transmitOk (Ring.slice Buf offset enqueueSize) s₁
      -- The pointer is moved by what is left, not by what was taken.
      let length := if r.1 then rest + 1 - enqueueSize else rest + 1
      let offset := if r.1 then offset + length else offset
      let t := timedLoop variantB Buf start timeoutMs turns offset length r.2.1
      (t.1, t.2.1, before ++ r.2.2 ++ t.2.2)

/-- `CDC_TransmitTimed`. -/
def transmitTimed (variantB transmitOk : Bool) (Buf : Nat → Byte) (Len : BitVec 32)
    (timeoutMs : Tick) (turns : List Turn) (s : Cdc) : Option Bool × Cdc × List Effect :=
  if timeoutMs = 0#32 then
    let r := transmit variantB transmitOk (Ring.slice Buf 0 Len.toNat) s
    (some r.1, r.2)
  else timedLoop variantB Buf s.tick timeoutMs turns 0 Len.toNat s

/-! ## The machine -/

inductive Event where
  | transmit (Buf : Nat → Byte) (Len : BitVec 32) (transmitOk : Bool)
  | transmitTimed (Buf : Nat → Byte) (Len : BitVec 32) (timeoutMs : Tick) (turns : List Turn)
    (transmitOk : Bool)
  | irq (i : Irq)

def next (variantB : Bool) (s : Cdc) : Event → Cdc × List Effect
  | .transmit Buf Len transmitOk =>
    (transmit variantB transmitOk (Ring.slice Buf 0 Len.toNat) s).2
  | .transmitTimed Buf Len timeoutMs turns transmitOk =>
    (transmitTimed variantB transmitOk Buf Len timeoutMs turns s).2
  | .irq i => irq variantB s i

def machine (variantB : Bool) : Receiver Event Cdc Effect := ⟨next variantB⟩

/-- The port before its first transmission, its counters at any common value. -/
def start (counter : BitVec 32) (configured : Bool) : Cdc :=
  { buffer := fun _ => 0#8, txHead := counter, txTail := counter, tick := 0#32
    lastTransmitStart := 0#32, lastTransmitComplete := 0#32, lastTransmitSubmit := 0#32
    txDropCounterHead := 0#32, txQueueFullCount := 0#32, txPacketFailCount := 0#32
    txBusyStuckCount := 0#32, txCompleteMissingCount := 0#32, usbSuspended := false
    txPacketArmed := false, txPacketFailPendingRecovery := false, txRecoveryHold := false
    recoveryState := .running, hasReceived := false, lastReceiveTick := 0#32
    hasUsbRecovered := false, lastUsbRecoveryTick := 0#32, configured := configured
    txState := false, txLength := 0, onWire := false }

end Cdc
end Usb
end Mowgli
