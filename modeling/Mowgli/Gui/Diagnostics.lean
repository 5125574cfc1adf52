import Mowgli.Lib.History
import Mowgli.Lib.Ring

/-!
# Diagnostics — the subscriber whose messages are not coalesced

`ros_diagnostics.go`: a ring of 128 messages that `Publish` fills and one worker empties, under the
mutex of the subscriber; a buffered channel of one token wakes the worker, and `Close` clears the
ring. A step is what one goroutine does between two releases of the mutex: **`Publish` sends its
token after it has let go of the mutex**, so that is a step of its own, and so is every turn of the
worker.
-/

namespace Mowgli
namespace Gui
namespace Diagnostics

/-- `[]byte`; `nil` is `none`. -/
abbrev Msg := Option (List UInt8)

def len (msg : Msg) : Nat := (msg.getD []).length

def diagnosticQueueMaxMessages : Nat := 128

def diagnosticQueueMaxBytes : Int := 2 * 1024 * 1024

structure DiagnosticQueue where
  messages : Nat → Msg := fun _ => none
  head : Nat := 0
  count : Nat := 0
  bytes : Int := 0
  dropped : UInt64 := 0
  droppedBytes : UInt64 := 0
  reported : UInt64 := 0
  canceled : UInt64 := 0
  closed : Bool := false
  /-- The channel `done` is closed. -/
  done : Bool := false

/-- What `reportDiagnosticDrops` logs. -/
structure Loss where
  dropped_messages : UInt64
  dropped_total : UInt64
  dropped_bytes_total : UInt64
  queue_max_messages : Nat
  queue_max_bytes : Int

/-- Where the worker is in `runDiagnostics`. -/
inductive Worker where
  | waiting
  | reporting
  | pacing
  | sleeping
  | checking
  | calling (msg : Msg)
  | leaving
  | finished
  deriving DecidableEq

structure RosSubscriber where
  interval : Int
  diagnostics : DiagnosticQueue := {}
  /-- The channel `close` is closed. -/
  close : Bool := false
  /-- A token is in the channel `wake`. -/
  wake : Bool := false
  /-- Calls of `Publish` that have let go of the mutex and not yet sent their token. -/
  signalling : Nat := 0
  worker : Worker := .waiting
  lastDeliver : Option Int := none
  logged : List Loss := []

/-! ## The queue -/

/-- The incoming message would exceed a limit. -/
def DiagnosticQueue.atLimit (q : DiagnosticQueue) (msg : Msg) : Prop :=
  q.count = diagnosticQueueMaxMessages ∨ diagnosticQueueMaxBytes - q.bytes < len msg

instance (q : DiagnosticQueue) (msg : Msg) : Decidable (q.atLimit msg) :=
  inferInstanceAs (Decidable (_ ∨ _))

def DiagnosticQueue.publish (q : DiagnosticQueue) (msg : Msg) : DiagnosticQueue :=
  if q.atLimit msg then
    { q with
      dropped := q.dropped + 1
      droppedBytes := q.droppedBytes + UInt64.ofNat (len msg) }
  else
    { q with
      messages := Function.update q.messages ((q.head + q.count) % diagnosticQueueMaxMessages) msg
      count := q.count + 1
      bytes := q.bytes + len msg }

def DiagnosticQueue.clear (q : DiagnosticQueue) : DiagnosticQueue :=
  { q with
    closed := true
    canceled := q.canceled + UInt64.ofNat q.count
    messages := fun _ => none
    head := 0
    count := 0
    bytes := 0 }

def DiagnosticQueue.pop (q : DiagnosticQueue) : DiagnosticQueue :=
  { q with
    messages := Function.update q.messages q.head none
    head := (q.head + 1) % diagnosticQueueMaxMessages
    count := q.count - 1
    bytes := q.bytes - len (q.messages q.head) }

/-! ## The callers -/

def publishDiagnostic (r : RosSubscriber) (msg : Msg) : RosSubscriber :=
  if msg = none then r
  else if r.diagnostics.closed then r
  else
    { r with
      diagnostics := r.diagnostics.publish msg
      signalling := r.signalling + 1 }

/-- The `select` behind the mutex: a token that is there already is enough. -/
def signal (r : RosSubscriber) : RosSubscriber :=
  if r.signalling = 0 then r
  else { r with wake := true, signalling := r.signalling - 1 }

def closeDiagnostics (r : RosSubscriber) : RosSubscriber :=
  if r.diagnostics.closed then r
  else { r with diagnostics := r.diagnostics.clear, close := true }

/-! ## The worker -/

def reportDiagnosticDrops (r : RosSubscriber) : RosSubscriber :=
  let q := r.diagnostics
  { r with
    diagnostics := { q with reported := q.dropped }
    logged :=
      if q.dropped ≠ q.reported then
        r.logged ++
          [{ dropped_messages := q.dropped - q.reported
             dropped_total := q.dropped
             dropped_bytes_total := q.droppedBytes
             queue_max_messages := diagnosticQueueMaxMessages
             queue_max_bytes := diagnosticQueueMaxBytes }]
      else r.logged }

/-- What is left of the interval. Before the first delivery there is nothing to wait for. -/
def wait (r : RosSubscriber) (now : Int) : Int :=
  match r.lastDeliver with
  | none => 0
  | some last => r.interval - (now - last)

/-- The clock, and which case a `select` takes where `close` is one of them. -/
structure Turn where
  now : Int := 0
  closing : Bool := false

/-- From the lock to the unlock in front of the callback. -/
def take (r : RosSubscriber) : RosSubscriber :=
  let q := r.diagnostics
  if q.closed ∨ q.count = 0 then
    { r with worker := if q.closed then .leaving else .waiting }
  else
    { r with
      diagnostics := q.pop
      worker := .calling (q.messages q.head) }

/-- `runDiagnostics`, one turn of it. -/
def runDiagnostics (r : RosSubscriber) (turn : Turn) : RosSubscriber :=
  match r.worker with
  | .waiting =>
    if turn.closing then
      if r.close then { r with worker := .leaving } else r
    else
      if r.wake then { r with wake := false, worker := .reporting } else r
  | .reporting => { reportDiagnosticDrops r with worker := .pacing }
  | .pacing =>
    if 0 < r.interval ∧ 0 < wait r turn.now then { r with worker := .sleeping }
    else { r with worker := .checking }
  | .sleeping =>
    if turn.closing then
      if r.close then { r with worker := .leaving } else r
    else { r with worker := .checking }
  | .checking => take r
  | .calling _ => { r with lastDeliver := some turn.now, worker := .reporting }
  | .leaving =>
    let r := reportDiagnosticDrops r
    { r with diagnostics := { r.diagnostics with done := true }, worker := .finished }
  | .finished => r

/-! ## Runs -/

inductive Event where
  | publish (msg : Msg)
  | signal
  | close
  | worker (turn : Turn)

def step (r : RosSubscriber) : Event → RosSubscriber
  | .publish msg => publishDiagnostic r msg
  | .signal => signal r
  | .close => closeDiagnostics r
  | .worker turn => runDiagnostics r turn

structure Mark where
  event : Event
  before : RosSubscriber
  after : RosSubscriber

/-- Any goroutines, in any order, from `NewRosSubscriber` on. -/
def run (interval : Int) (es : List Event) : RosSubscriber × List Mark :=
  History.run step Mark.mk { interval := interval } [] es

end Diagnostics
end Gui
end Mowgli
