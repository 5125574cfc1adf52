import Mowgli.Blackbox.Recorder

/-!
# Collector — the goroutines around the recorder

`recorder.go`: `Ingest` from any number of callers, `Trigger`, `ConfigurePersist` and `Close`, the
collector `run` and the disk worker, interleaved in any order. A step is one operation on an atomic,
a channel or the clock, or all that is done from one `Lock` to the next `Unlock`. **A step that has
to wait is `none`.** `ConfigurePersist` holds the mutex while the settings are being saved, so it is
two steps; in between, what needs the mutex waits, and `Ingest` goes on.
-/

namespace Mowgli
namespace Blackbox
namespace Recording

/-- Where a call of `Ingest` is. -/
inductive Call where
  /-- The settings have been loaded. -/
  | loaded (cfg : Config) (topic data : Bytes)
  /-- About to ask for a permit. -/
  | checked (topic data : Bytes)
  /-- About to ask for the time. -/
  | permitted (topic data : Bytes)
  /-- About to look again whether the recorder is closed. -/
  | stamped (o : Observation)
  | sending (o : Observation)
  /-- About to give the permit back. -/
  | returning
  /-- About to count a message as dropped. -/
  | dropping
  deriving DecidableEq

/-- Which receive of `run` a result is for. -/
inductive Receive where
  /-- The `select`. -/
  | loop
  /-- The worker there was when the recorder was closed. -/
  | last
  /-- The interrupted snapshot. -/
  | interrupted
  deriving DecidableEq

/-- Where `run` is. -/
inductive Phase where
  | selecting
  | received (o : Observation)
  /-- About to give the permit of the message back. -/
  | processed
  | ticked
  | stopping
  | waiting (at' : Receive)
  | took (at' : Receive) (res : WriteResult)
  | done

/-- A case of the `select`. -/
inductive Choice where
  | queue
  | ticker
  | result
  | stop
  deriving DecidableEq

structure Node where
  r : Recorder
  /-- `r.config`, the pointer `Ingest` loads. -/
  config : Config
  queue : List Observation := []
  permits : Nat := 0
  result : List WriteResult := []
  calls : List Call := []
  collector : Phase := .selecting
  resourceTicks : Nat := 0
  /-- The settings a call of `ConfigurePersist` is saving, with the mutex held. -/
  saving : Option Config := none
  now : Int
  /-- What `Ingest` has returned `true` for. -/
  accepted : List Observation := []

inductive Event where
  /-- The monotonic clock. -/
  | wait (d : Nat)
  /-- `Ingest` is called. -/
  | Ingest (topic data : Bytes)
  /-- A call of `Ingest` goes on. -/
  | ingest (i : Nat)
  | Trigger (reason : Bytes)
  | ConfigurePersist (cfg : Config)
  /-- The settings were saved, or not. -/
  | saved (works : Bool) (s : ResourceSample)
  | Close
  /-- A worker is through and sends its result. -/
  | worker (i : Nat) (err : Option WriteError)
  /-- The collector goes on. -/
  | collect (choice : Choice) (s : ResourceSample)

variable (out : Outside)

namespace Node

/-- The mutex is free. -/
def free (s : Node) : Bool := s.saving.isNone

/-- Call `i` of `Ingest` is now at `call`. -/
def moved (s : Node) (i : Nat) (call : Call) : Node := { s with calls := s.calls.set i call }

/-- Call `i` of `Ingest` has returned. -/
def returned (s : Node) (i : Nat) : Node := { s with calls := s.calls.eraseIdx i }

/-! ## Ingest -/

/-- `len(topic) == 0 || len(topic) > 256 || len(data) > cfg.MaxMessageBytes`. -/
def oversized (cfg : Config) (topic data : Bytes) : Prop :=
  topic.length = 0 ∨ 256 < topic.length ∨ cfg.MaxMessageBytes < (data.length : Int)

instance (cfg : Config) (topic data : Bytes) : Decidable (oversized cfg topic data) :=
  inferInstanceAs (Decidable (_ ∨ _))

/-- The message of a call that is about to be sent, at its place among the accepted ones. -/
def numbered (s : Node) (o : Observation) : Observation := { o with seq := s.accepted.length }

def ingest (s : Node) (i : Nat) : Call → Option Node
  | .loaded cfg topic data =>
    if s.r.closed = true ∨ cfg.Enabled = false then some (s.returned i)
    else if oversized cfg topic data then some (s.moved i .dropping)
    else some (s.moved i (.checked topic data))
  | .checked topic data =>
    if s.permits < queueCapacity then
      some ({ s with permits := s.permits + 1 }.moved i (.permitted topic data))
    else some (s.moved i .dropping)
  | .permitted topic data =>
    some (s.moved i (.stamped { stamp := s.now, topic := topic, data := data }))
  | .stamped o => some (s.moved i (if s.r.closed then .returning else .sending o))
  | .sending o =>
    if s.queue.length < queueCapacity then
      some
        ({ s with
          queue := s.queue ++ [s.numbered o]
          accepted := s.accepted ++ [s.numbered o] }.returned i)
    else some (s.moved i .returning)
  | .returning =>
    if s.permits = 0 then none
    else some ({ s with permits := s.permits - 1 }.moved i .dropping)
  | .dropping => some ({ s with r := s.r.drop }.returned i)

/-! ## The collector -/

/-- `select`, with the case the runtime picks. A case that is not ready cannot be picked. -/
def select (s : Node) : Choice → Option Node
  | .queue =>
    match s.queue with
    | [] => none
    | o :: rest => some { s with queue := rest, collector := .received o }
  | .ticker => some { s with collector := .ticked }
  | .result =>
    match s.result with
    | [] => none
    | res :: rest => some { s with result := rest, collector := .took .loop res }
  | .stop => if s.r.closed then some { s with collector := .stopping } else none

/-- `resourceTicks++`, and every fiftieth time a look at the resources. -/
def lookAround (s : Node) (sample : ResourceSample) : Node :=
  if 50 ≤ s.resourceTicks + 1 then { s with resourceTicks := 0, r := s.r.applyPressure sample }
  else { s with resourceTicks := s.resourceTicks + 1 }

/-- `case <-r.stop`, from where no worker is left. -/
def interrupt (s : Node) : Node :=
  if s.r.active.isSome then { s with r := s.r.finishInterrupted, collector := .waiting .interrupted }
  else { s with collector := .done }

/-- `case <-r.stop`: every message in the queue, and its permit. -/
def drain (s : Node) : Option Node :=
  if s.permits < s.queue.length then none
  else
    let s' :=
      { s with
        r := s.queue.foldl Recorder.discard s.r
        permits := s.permits - s.queue.length
        queue := [] }
    if s'.r.writing then some { s' with collector := .waiting .last } else some s'.interrupt

/-- A result, with the mutex held. -/
def receive (s : Node) (res : WriteResult) : Receive → Node
  | .loop => { s with r := (s.r.applyWriteResult res).finishDue s.now, collector := .selecting }
  | .last => { s with r := s.r.applyWriteResult res }.interrupt
  | .interrupted => { s with r := s.r.applyWriteResult res, collector := .done }

/-- The collector with the mutex held, where it needs it. -/
def collect (s : Node) (choice : Choice) (sample : ResourceSample) : Option Node :=
  match s.collector with
  | .selecting => s.select choice
  | .received o =>
    if s.free then some { s with r := s.r.process out o s.now, collector := .processed } else none
  | .processed =>
    if s.permits = 0 then none
    else some { s with permits := s.permits - 1, collector := .selecting }
  | .ticked =>
    if s.free then
      some ({ s with r := s.r.tick s.now, collector := .selecting }.lookAround sample)
    else none
  | .stopping => if s.free then s.drain else none
  | .waiting k =>
    match s.result with
    | [] => none
    | res :: rest => some { s with result := rest, collector := .took k res }
  | .took k res => if s.free then some (s.receive res k) else none
  | .done => none

/-! ## The others -/

/-- The result of a worker. A goroutine whose result does not fit waits. -/
def send (s : Node) (i : Nat) (err : Option WriteError) : Option Node :=
  match s.r.workers[i]? with
  | none => none
  | some w =>
    if 1 ≤ s.result.length then none
    else
      some
        { s with
          r := { s.r with workers := s.r.workers.eraseIdx i }
          result := s.result ++ [⟨err, decide (w = .maintain)⟩] }

/-- `ConfigurePersist` up to the call of `persist`, or to the return of an error. -/
def configurePersist (s : Node) (cfg : Config) : Node :=
  if (s.r.refusal cfg).isSome then s else { s with saving := some cfg }

/-- `ConfigurePersist` from there on. -/
def saved (s : Node) (cfg : Config) (works : Bool) (sample : ResourceSample) : Node :=
  if works then { s with r := s.r.configure cfg sample s.now, config := cfg, saving := none }
  else { s with saving := none }

def step (s : Node) : Event → Option Node
  | .wait d => some { s with now := s.now + d }
  | .Ingest topic data => some { s with calls := s.calls ++ [.loaded s.config topic data] }
  | .ingest i => s.calls[i]?.bind (s.ingest i)
  | .Trigger reason => if s.free then some { s with r := (s.r.trigger out reason s.now).1 } else none
  | .ConfigurePersist cfg =>
    if cfg.Validate.isSome ∨ s.free = true then some (s.configurePersist cfg) else none
  | .saved works sample => s.saving.map fun cfg => s.saved cfg works sample
  | .Close => some { s with r := { s.r with closed := true } }
  | .worker i err => s.send i err
  | .collect choice sample => s.collect out choice sample

/-- `newRecorder`, with settings that have been validated. -/
def start (cfg : Config) (sample : ResourceSample) (hasCompleted : Bool) (now : Int) : Node where
  r := Recorder.start cfg sample hasCompleted
  config := cfg
  now := now

end Node

end Recording
end Blackbox
end Mowgli
