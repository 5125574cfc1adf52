import Mowgli.Blackbox.Storage
import Mowgli.Lib.Ring

/-!
# Recorder — history in a ring, an incident in a capture

`recorder.go`: what the recorder keeps under its mutex, and what is done to it from one `Lock` to
the next `Unlock`. A `time.Time` is a number of nanoseconds. The durations that go into the metadata
as floats and the identifiers copied there are left out.

`encoding/json`, `crypto/rand` and the name of a capture are parameters (`Outside`). **What has been
handled is written down in `handled`, and every capture given to the disk worker in `snapshots`**;
the code keeps neither.
-/

namespace Mowgli
namespace Blackbox
namespace Recording

def text (s : String) : Bytes := s.toList.map fun c => UInt8.ofNat c.toNat

/-- `time.Duration(n) * time.Second`. -/
def seconds (n : Int) : Int := n * 1000000000

/-- `n << 20`. -/
def mebi (n : Int) : Int := n * 1048576

/-! ## Settings -/

def queueCapacity : Nat := 64

def maxPayload : Nat := 16 * 1024

def recordOverhead : Nat := 256

def maxReasons : Nat := 8

structure Config where
  Enabled : Bool
  PreSeconds : Int
  PostSeconds : Int
  MemoryBytes : Int
  MaxMessageBytes : Int
  MaxSnapshots : Int
  MaxDiskBytes : Int
  CooldownSeconds : Int
  MinFreeDiskBytes : Int
  deriving DecidableEq

def Config.Validate (c : Config) : Option String :=
  if c.PreSeconds < 1 ∨ 300 < c.PreSeconds ∨ c.PostSeconds < 1 ∨ 60 < c.PostSeconds then
    some "blackbox windows must be pre 1..300 and post 1..60 seconds"
  else if c.MemoryBytes < mebi 4 ∨ mebi 64 < c.MemoryBytes then
    some "blackbox memory must be 4..64 MiB"
  else if c.MaxMessageBytes < 256 ∨ (maxPayload : Int) < c.MaxMessageBytes then
    some "blackbox maximum message must be 256..16384 bytes"
  else if c.MaxSnapshots < 1 ∨ 200 < c.MaxSnapshots ∨ c.MaxDiskBytes < mebi 4 ∨
      mebi 4096 < c.MaxDiskBytes then
    some "blackbox disk limits must be 1..200 snapshots and 4 MiB..4 GiB"
  else if c.CooldownSeconds < 1 ∨ 3600 < c.CooldownSeconds ∨ c.MinFreeDiskBytes < 0 ∨
      mebi 1024 < c.MinFreeDiskBytes then
    some "invalid blackbox cooldown or free disk reserve"
  else none

def DefaultConfig : Config where
  Enabled := true
  PreSeconds := 60
  PostSeconds := 15
  MemoryBytes := mebi 16
  MaxMessageBytes := 8192
  MaxSnapshots := 20
  MaxDiskBytes := mebi 256
  CooldownSeconds := 60
  MinFreeDiskBytes := mebi 32

structure ResourceSample where
  total : Int
  available : Int
  known : Bool

def least (a b : Int) : Int := if a ≤ b then a else b

def initialMemoryBudget (requested : Int) (s : ResourceSample) : Int :=
  if s.known = false then least requested (mebi 8)
  else
    let budget := least requested (least (s.total.tdiv 32) (s.available.tdiv 8))
    if mebi 4 ≤ budget then budget else mebi 4

def ResourceSample.scarce (s : ResourceSample) : Bool := s.known && decide (s.available < mebi 32)

theorem le_initialMemoryBudget {requested : Int} {s : ResourceSample} (h : mebi 4 ≤ requested) :
    mebi 4 ≤ initialMemoryBudget requested s := by
  unfold initialMemoryBudget
  split
  · unfold least
    split
    · exact h
    · decide
  · simp only
    split
    · assumption
    · exact Int.le_refl _

theorem Config.memory_of_validate {c : Config} (h : c.Validate = none) :
    mebi 4 ≤ c.MemoryBytes := by
  unfold Config.Validate at h
  split at h
  · cases h
  · split at h
    · cases h
    · rename_i hmem
      exact Int.not_lt.1 fun hlt => hmem (.inl hlt)

/-! ## The ring -/

structure Observation where
  /-- `at`: when `Ingest` received it. -/
  stamp : Int
  topic : Bytes
  data : Bytes
  /-- Its place among what `Ingest` accepted. The code has no such number. -/
  seq : Nat := 0
  deriving DecidableEq

def Observation.cost (o : Observation) : Int :=
  ((o.data.length + o.topic.length + recordOverhead : Nat) : Int)

/-- `observation{}`. -/
def Observation.zero : Observation where
  stamp := 0
  topic := []
  data := []

structure Ring where
  slots : Nat → Observation := fun _ => .zero
  /-- `len(slots)`. -/
  size : Nat
  start : Nat := 0
  count : Nat := 0
  bytes : Int := 0

def Ring.first (b : Ring) : Observation := b.slots b.start

def Ring.pop (b : Ring) : Ring :=
  if b.count = 0 then b
  else
    { b with
      bytes := b.bytes - b.first.cost
      slots := Function.update b.slots b.start .zero
      start := (b.start + 1) % b.size
      count := b.count - 1 }

def Ring.popFor (goes : Ring → Bool) : Nat → Ring → Ring
  | 0, b => b
  | n + 1, b => if goes b then Ring.popFor goes n b.pop else b

/-- `for b.count > 0 && goes { b.pop() }`. -/
def Ring.popWhile (b : Ring) (goes : Ring → Bool) : Ring := Ring.popFor goes b.count b

def Ring.expire (b : Ring) (cutoff : Int) : Ring :=
  b.popWhile fun b => decide (b.first.stamp < cutoff)

/-- `for b.count > 0 { b.pop() }`. -/
def Ring.clear (b : Ring) : Ring := b.popWhile fun _ => true

/-- `false` is `none`, and the ring is then as it was. -/
def Ring.append (b : Ring) (o : Observation) (limit : Int) : Option Ring :=
  if limit < o.cost then none
  else
    let b := b.popWhile fun b => decide (limit < b.bytes + o.cost ∨ b.count = b.size)
    some
      { b with
        slots := Function.update b.slots ((b.start + b.count) % b.size) o
        bytes := b.bytes + o.cost
        count := b.count + 1 }

/-- What the ring holds, oldest first. -/
def Ring.entries (b : Ring) : List Observation := Mowgli.Ring.window b.size b.slots b.start b.count

def total : List Observation → Int
  | [] => 0
  | o :: os => o.cost + total os

theorem Observation.cost_nonneg (o : Observation) : 0 ≤ o.cost := Int.natCast_nonneg _

@[simp] theorem total_nil : total [] = 0 := rfl

@[simp] theorem total_cons (o : Observation) (os : List Observation) :
    total (o :: os) = o.cost + total os := rfl

@[simp] theorem total_append (os ps : List Observation) :
    total (os ++ ps) = total os + total ps := by
  induction os with
  | nil => exact (Int.zero_add _).symm
  | cons o os ih =>
    rw [List.cons_append, total_cons, total_cons, ih, Int.add_assoc]

/-- The counters of the ring are those of what it holds. -/
structure Ring.Sound (b : Ring) : Prop where
  room : 0 < b.size
  start_lt : b.start < b.size
  count_le : b.count ≤ b.size
  bytes_eq : b.bytes = total b.entries

@[simp] theorem Ring.length_entries (b : Ring) : b.entries.length = b.count :=
  Mowgli.Ring.length_window _ _ _

variable {b : Ring}

theorem Ring.entries_pop (h : b.Sound) (hc : b.count ≠ 0) :
    b.entries = b.first :: b.pop.entries := by
  obtain ⟨n, hn⟩ := Nat.exists_eq_succ_of_ne_zero hc
  have hstart : b.start % b.size = b.start := Nat.mod_eq_of_lt h.start_lt
  have hlt : n < b.size := by
    have := h.count_le
    omega
  have hpop := Mowgli.Ring.window_pop (p := b.start) b.slots hlt Observation.zero
  rw [hstart] at hpop
  simp only [Ring.entries, Ring.pop, hc, if_false]
  rw [Mowgli.Ring.window_mod, hn, Mowgli.Ring.window_succ, hstart, Nat.succ_sub_one, hpop]
  rfl

theorem Ring.Sound.pop (h : b.Sound) : b.pop.Sound := by
  by_cases hc : b.count = 0
  · simpa [Ring.pop, hc] using h
  · have hsize : b.pop.size = b.size := by simp [Ring.pop, hc]
    have hentries := Ring.entries_pop h hc
    have hbytes := h.bytes_eq
    rw [hentries, total_cons] at hbytes
    refine ⟨by rw [hsize]; exact h.room, ?_, ?_, ?_⟩
    · simp only [Ring.pop, hc, if_false]
      exact Nat.mod_lt _ h.room
    · have := h.count_le
      simp only [Ring.pop, hc, if_false]
      omega
    · have : b.pop.bytes = b.bytes - b.first.cost := by simp [Ring.pop, hc]
      omega

/-- What a loop of pops leaves: the ring without some of its oldest entries. -/
structure Ring.Shed (b b' : Ring) : Prop where
  sound : b'.Sound
  size_eq : b'.size = b.size
  suffix : b'.entries <:+ b.entries

theorem Ring.Shed.pop (h : b.Sound) : b.Shed b.pop := by
  refine ⟨h.pop, ?_, ?_⟩
  · unfold Ring.pop
    split <;> rfl
  · by_cases hc : b.count = 0
    · simp [Ring.pop, hc]
    · rw [Ring.entries_pop h hc]
      exact List.suffix_cons _ _

theorem Ring.popFor_shed {goes : Ring → Bool} {n : Nat} (h : b.Sound) :
    b.Shed (Ring.popFor goes n b) := by
  induction n generalizing b with
  | zero => exact ⟨h, rfl, List.suffix_refl _⟩
  | succ n ih =>
    unfold Ring.popFor
    split
    · have hpop := Ring.Shed.pop h
      have hrest := ih hpop.sound
      exact ⟨hrest.sound, hrest.size_eq.trans hpop.size_eq, hrest.suffix.trans hpop.suffix⟩
    · exact ⟨h, rfl, List.suffix_refl _⟩

theorem Ring.popWhile_shed (h : b.Sound) (goes : Ring → Bool) :
    b.Shed (b.popWhile goes) := Ring.popFor_shed h

/-- The loop ends at an empty ring, or where its condition is false. -/
theorem Ring.popFor_ends {goes : Ring → Bool} {n : Nat} (hn : b.count ≤ n) :
    (Ring.popFor goes n b).count = 0 ∨ goes (Ring.popFor goes n b) = false := by
  induction n generalizing b with
  | zero => exact .inl (Nat.le_zero.1 hn)
  | succ n ih =>
    unfold Ring.popFor
    split
    · refine ih ?_
      unfold Ring.pop
      split
      · omega
      · simp only
        omega
    · rename_i hgoes
      exact .inr (Bool.eq_false_iff.2 hgoes)

theorem total_nonneg (os : List Observation) : 0 ≤ total os := by
  induction os with
  | nil => exact Int.le_refl _
  | cons o os ih =>
    rw [total_cons]
    exact Int.add_nonneg o.cost_nonneg ih

theorem total_suffix {os ps : List Observation} (h : os <:+ ps) : total os ≤ total ps := by
  obtain ⟨front, rfl⟩ := h
  have hfront := total_nonneg front
  rw [total_append]
  omega

theorem Ring.Shed.bytes_le {b' : Ring} (h : b.Sound) (hs : b.Shed b') : b'.bytes ≤ b.bytes := by
  rw [h.bytes_eq, hs.sound.bytes_eq]
  exact total_suffix hs.suffix

/-- **An entry is put behind what was left, and all of it is within the limit.** -/
theorem Ring.append_spec {b' : Ring} {o : Observation} {limit : Int} (h : b.Sound)
    (ha : b.append o limit = some b') :
    b'.Sound ∧ b'.size = b.size ∧ b'.bytes ≤ limit ∧
      ∃ kept, kept <:+ b.entries ∧ b'.entries = kept ++ [o] := by
  unfold Ring.append at ha
  split at ha
  · cases ha
  · rename_i hcost
    simp only [Option.some.injEq] at ha
    generalize hgoes :
      (fun b : Ring => decide (limit < b.bytes + o.cost ∨ b.count = b.size)) = goes at ha
    have hshed := Ring.popWhile_shed h goes
    have hends : (b.popWhile goes).count = 0 ∨ goes (b.popWhile goes) = false :=
      Ring.popFor_ends (Nat.le_refl _)
    generalize b.popWhile goes = p at ha hshed hends
    subst hgoes ha
    have hp := hshed.sound
    have hbytes := hp.bytes_eq
    -- an empty ring has room, and one the loop stopped at was found to have it
    have hroom : p.count < p.size ∧ p.bytes + o.cost ≤ limit := by
      rcases hends with h0 | hstop
      · have hnil : p.entries = [] := List.eq_nil_of_length_eq_zero (by simp [h0])
        rw [hnil, total_nil] at hbytes
        have := hp.room
        constructor
        · omega
        · omega
      · have hstop := of_decide_eq_false hstop
        have := hp.count_le
        have hnot : ¬limit < p.bytes + o.cost ∧ p.count ≠ p.size := by
          constructor
          · exact fun hlt => hstop (.inl hlt)
          · exact fun heq => hstop (.inr heq)
        exact ⟨by omega, by omega⟩
    have hentries : Mowgli.Ring.window p.size
        (Function.update p.slots ((p.start + p.count) % p.size) o) p.start (p.count + 1) =
          p.entries ++ [o] := Mowgli.Ring.window_push p.slots hroom.1 o
    refine ⟨⟨hp.room, hp.start_lt, hroom.1, ?_⟩, hshed.size_eq, hroom.2, p.entries, hshed.suffix,
      hentries⟩
    simp only [Ring.entries]
    rw [hentries, total_append]
    simp only [total_cons, total_nil]
    omega

/-! ## A capture -/

structure Metadata where
  CaptureID : String
  TriggeredAt : Int
  Reasons : List Bytes
  Config : Config
  Records : Nat := 0
  DroppedMessages : Nat := 0
  CaptureDroppedMessages : Nat := 0
  Interrupted : Bool := false

structure Capture where
  metadata : Metadata
  trigger : Int
  deadline : Int
  observations : List Observation := []
  /-- `cap(observations)`. -/
  capacity : Nat
  bytes : Int := 0
  limit : Int
  drops : Nat := 0
  startDrops : Nat
  /-- How many messages had been handled when it was opened. The code has no such number. -/
  opened : Nat

/-- `appendCapture`. -/
def Capture.append (c : Capture) (o : Observation) : Capture :=
  if c.limit < c.bytes + o.cost ∨ c.observations.length = c.capacity then
    { c with drops := c.drops + 1 }
  else
    { c with
      observations := c.observations ++ [o]
      bytes := c.bytes + o.cost }

/-! ## The state under the mutex -/

structure WriteError where
  text : String
  /-- `publishedError`: the snapshot is there, what came after it failed. -/
  published : Bool

structure WriteResult where
  err : Option WriteError
  pruning : Bool

/-- What a goroutine that will send a result was started for. -/
inductive Worker where
  | maintain
  | write
  deriving DecidableEq

structure Recorder where
  cfg : Config
  buffer : Ring
  active : Option Capture := none
  writing : Bool := false
  pruning : Bool := false
  lastTrigger : Option Int := none
  lastError : String := ""
  completed : Nat := 0
  coalesced : Nat := 0
  historyEvictions : Nat := 0
  skippedTriggerSources : Nat := 0
  dropped : Nat := 0
  closed : Bool := false
  emergency : Bool := false
  diagnosticErrors : AList fun _ : Bytes => Bool := ∅
  effectiveMemory : Int
  pressure : Bool
  /-- Goroutines started and not yet done with their send. -/
  workers : List Worker := []
  /-- Calls of `rand.Read`. -/
  draws : Nat := 0
  handled : List Observation := []
  snapshots : List Capture := []

structure EmergencyMessage where
  Active : Bool
  Latched : Bool
  Reason : Bytes

structure DiagnosticStatus where
  /-- `Level.Int64()`. -/
  Level : Option Int
  Name : Bytes
  HardwareID : Bytes

/-- What the recorder asks of packages. -/
structure Outside where
  /-- `json.Valid`. -/
  Valid : Bytes → Bool
  /-- `json.Unmarshal` into the two messages the recorder looks at. -/
  emergency : Bytes → Option EmergencyMessage
  diagnostics : Bytes → Option (List DiagnosticStatus)
  /-- `rand.Read`, call by call. -/
  Read : Nat → Except String Nat
  captureID : Int → Nat → String

def historyLimitOf (effectiveMemory : Int) : Int :=
  (effectiveMemory - effectiveMemory.tdiv 4 - 65536 -
    ((queueCapacity * (maxPayload + 256 + recordOverhead) : Nat) : Int)).tdiv 3

def allocateBuffer (effectiveMemory : Int) : Ring :=
  let n := ((historyLimitOf effectiveMemory).tdiv 512).toNat
  { size := if 32768 < n then 32768 else if n < 1 then 1 else n }

namespace Recorder

def historyLimit (r : Recorder) : Int := historyLimitOf r.effectiveMemory

def captureLimit (r : Recorder) : Int := 2 * r.historyLimit

/-- `r.dropped.Add(1)`. -/
def drop (r : Recorder) : Recorder := { r with dropped := r.dropped + 1 }

/-- `r.buffer.expire(now.Add(-PreSeconds))`. -/
def expire (r : Recorder) (now : Int) : Recorder :=
  { r with buffer := r.buffer.expire (now - seconds r.cfg.PreSeconds) }

/-! ## Triggers -/

variable (out : Outside)

/-- One more trigger for the incident there is. -/
def coalesce (r : Recorder) (c : Capture) (reason : Bytes) : Recorder :=
  let m := c.metadata
  { r with
    coalesced := r.coalesced + 1
    active := some
      { c with
        metadata :=
          if m.Reasons.length < maxReasons ∧ reason ∉ m.Reasons then
            { m with Reasons := m.Reasons ++ [reason] }
          else m } }

/-- A snapshot is being written, or the last incident was just now. -/
def occupied (r : Recorder) (reason : Bytes) (now : Int) : Prop :=
  (r.writing = true ∧ r.pruning = false) ∨
    ((text "manual").isPrefixOf reason = false ∧
      r.lastTrigger.any (fun last => decide (now - last < seconds r.cfg.CooldownSeconds)) = true)

instance (r : Recorder) (reason : Bytes) (now : Int) : Decidable (r.occupied reason now) :=
  inferInstanceAs (Decidable (_ ∨ _))

/-- The capture of `trigger` before the history is copied into it. -/
def newCapture (r : Recorder) (reason : Bytes) (now : Int) (id : String) : Capture where
  metadata := { CaptureID := id, TriggeredAt := now, Reasons := [reason], Config := r.cfg }
  trigger := now
  deadline := now + seconds r.cfg.PostSeconds
  capacity :=
    if r.pressure then 0
    else
      let n := (r.captureLimit.tdiv 512).toNat
      if 32768 < n then 32768 else n
  limit := r.captureLimit
  startDrops := r.dropped
  opened := r.handled.length

def pin (r : Recorder) (reason : Bytes) (now : Int) (id : String) : Recorder :=
  let r := r.expire now
  { r with
    active := some (r.buffer.entries.foldl Capture.append (r.newCapture reason now id))
    lastTrigger := some now }

def trigger (r : Recorder) (reason : Bytes) (now : Int) : Recorder × String × Bool :=
  if r.closed = true ∨ r.cfg.Enabled = false then (r, "", false)
  else
    let reason := reason.take 256
    let reason := if reason = [] then text "manual" else reason
    match r.active with
    | some c => (r.coalesce c reason, c.metadata.CaptureID, false)
    | none =>
      if r.occupied reason now then ({ r with coalesced := r.coalesced + 1 }, "", false)
      else
        let r' := { r with draws := r.draws + 1 }
        match out.Read r.draws with
        | .error e => ({ r' with lastError := e }, "", false)
        | .ok random =>
          let id := out.captureID now random
          (r'.pin reason now id, id, true)

/-! ## Messages that trigger -/

/-- `%t`. -/
def showBool (b : Bool) : Bytes := text (if b then "true" else "false")

def emergencyReason (m : EmergencyMessage) : Bytes :=
  text "emergency: active=" ++ showBool m.Active ++ text " latched=" ++ showBool m.Latched ++
    text ": " ++ m.Reason

def detectEmergency (r : Recorder) (o : Observation) (now : Int) : Recorder :=
  match out.emergency o.data with
  | none => r
  | some m =>
    let active := m.Active || m.Latched
    let r' :=
      if active && !r.emergency then (r.trigger out (emergencyReason m) now).1 else r
    { r' with emergency := active }

def sourceKey (topic : Bytes) (s : DiagnosticStatus) : Bytes :=
  topic ++ [0] ++ s.Name ++ [0] ++ s.HardwareID

def detectStatus (topic : Bytes) (now : Int) (r : Recorder) (s : DiagnosticStatus) : Recorder :=
  let key := sourceKey topic s
  if 128 < s.Name.length ∨ 128 < s.HardwareID.length ∨
      (key ∉ r.diagnosticErrors ∧ 128 ≤ r.diagnosticErrors.entries.length) then
    { r with skippedTriggerSources := r.skippedTriggerSources + 1 }
  else
    match s.Level with
    | none => r
    | some level =>
      let active := decide (2 ≤ level)
      let r' :=
        if active = true ∧ (r.diagnosticErrors.lookup key).getD false = false then
          (r.trigger out (text "diagnostic ERROR: " ++ s.Name) now).1
        else r
      { r' with diagnosticErrors := r'.diagnosticErrors.insert key active }

def detectDiagnostics (r : Recorder) (o : Observation) (now : Int) : Recorder :=
  match out.diagnostics o.data with
  | none => r
  | some status => status.foldl (detectStatus out o.topic now) r

def isEmergency (topic : Bytes) : Bool :=
  topic == text "emergency" || (text "/emergency").isSuffixOf topic

/-- `strings.Contains(topic, "diagnostic")`, and two topics by name. -/
def isDiagnostics (topic : Bytes) : Bool :=
  topic == text "diagnostics" || topic == text "fusionDiag" ||
    topic.tails.any (text "diagnostic").isPrefixOf

def detect (r : Recorder) (o : Observation) (now : Int) : Recorder :=
  let r := if isEmergency o.topic then r.detectEmergency out o now else r
  if isDiagnostics o.topic then r.detectDiagnostics out o now else r

/-! ## A message from the queue -/

/-- Into the ring, or counted. -/
def keep (r : Recorder) (o : Observation) (now : Int) : Recorder :=
  if o.stamp < now - seconds r.cfg.PreSeconds then r.drop
  else
    match r.buffer.append o r.historyLimit with
    | none => r.drop
    | some b =>
      { r with
        buffer := b
        historyEvictions := r.historyEvictions + (r.buffer.count + 1 - b.count) }

/-- Into the capture, unless it came after the deadline. -/
def record (r : Recorder) (o : Observation) : Recorder :=
  match r.active with
  | some c => if o.stamp ≤ c.deadline then { r with active := some (c.append o) } else r
  | none => r

/-- The same recorder, with one more message handled. -/
def handling (r : Recorder) (o : Observation) : Recorder := { r with handled := r.handled ++ [o] }

/-- `process`, of a message that has been written down. -/
def take (r : Recorder) (o : Observation) (now : Int) : Recorder :=
  if r.cfg.MaxMessageBytes < (o.data.length : Int) then r.drop
  else if r.cfg.Enabled = true ∧ r.pressure = false then
    let r := r.expire now
    if out.Valid o.data = false then r.drop
    else ((r.keep o now).record o).detect out o now
  else if r.cfg.Enabled = true then r.drop.detect out o now
  else r

def process (r : Recorder) (o : Observation) (now : Int) : Recorder := (r.handling o).take out o now

/-! ## The disk worker -/

def startPrune (r : Recorder) : Recorder :=
  if r.active.isSome = true ∨ r.writing = true ∨ r.closed = true then r
  else { r with writing := true, pruning := true, workers := r.workers ++ [.maintain] }

/-- `finish`, as far as the metadata goes. -/
def finished (r : Recorder) (c : Capture) (interrupted : Bool) : Capture :=
  { c with
    metadata :=
      { c.metadata with
        Interrupted := interrupted
        Records := c.observations.length
        DroppedMessages := r.dropped
        CaptureDroppedMessages := c.drops + r.dropped - c.startDrops } }

def finish (r : Recorder) (c : Capture) (interrupted : Bool) : Recorder :=
  { r with
    active := none
    writing := true
    workers := r.workers ++ [.write]
    snapshots := r.snapshots ++ [r.finished c interrupted] }

/-- What the ticker and a result both do at the end: an incident past its deadline is over. -/
def finishDue (r : Recorder) (now : Int) : Recorder :=
  match r.active with
  | some c => if r.closed = false ∧ c.deadline ≤ now then r.finish c false else r
  | none => r

def applyWriteResult (r : Recorder) (res : WriteResult) : Recorder :=
  { r with
    writing := false
    pruning := false
    completed :=
      if res.pruning = false ∧ (res.err.all fun e => e.published) = true then r.completed + 1
      else r.completed
    lastError := (res.err.map WriteError.text).getD "" }

def applyPressure (r : Recorder) (s : ResourceSample) : Recorder :=
  { r with
    pressure := s.scarce
    buffer := if s.scarce then r.buffer.clear else r.buffer }

/-- What the ticker does before it looks at the resources. -/
def tick (r : Recorder) (now : Int) : Recorder :=
  let r := r.expire now
  if r.writing then r else r.finishDue now

/-- `case <-r.stop`, one message of the queue. -/
def discard (r : Recorder) (o : Observation) : Recorder :=
  { r.drop with handled := r.handled ++ [o] }

/-- `case <-r.stop`, once no worker is left. -/
def finishInterrupted (r : Recorder) : Recorder :=
  match r.active with
  | some c => r.finish c true
  | none => r

/-! ## Settings -/

/-- Why `ConfigurePersist` does not come to saving anything. -/
def refusal (r : Recorder) (cfg : Config) : Option String :=
  match cfg.Validate with
  | some e => some e
  | none =>
    if r.closed then some "blackbox is shut down"
    else if r.active.isSome = true ∨ r.writing = true then
      some "wait for the current blackbox capture to finish"
    else none

/-- `r.buffer.append`, where what does not fit is left out. -/
def carry (cfg : Config) (limit : Int) (b : Ring) (o : Observation) : Ring :=
  if (o.data.length : Int) ≤ cfg.MaxMessageBytes then (b.append o limit).getD b else b

/-- The memory budget is measured again and the history moves to a ring of its size. -/
def resize (r : Recorder) (cfg previous : Config) (s : ResourceSample) : Recorder :=
  if cfg.MemoryBytes ≠ previous.MemoryBytes ∨ cfg.MaxMessageBytes ≠ previous.MaxMessageBytes then
    let memory := initialMemoryBudget cfg.MemoryBytes s
    { r with
      effectiveMemory := memory
      buffer := r.buffer.entries.foldl (carry cfg (historyLimitOf memory)) (allocateBuffer memory) }
  else r

/-- What `ConfigurePersist` does to the history of a recorder that is switched off. -/
def forget (r : Recorder) : Recorder := { r with buffer := r.buffer.clear }

/-- `ConfigurePersist` once the settings are saved. -/
def configure (r : Recorder) (cfg : Config) (s : ResourceSample) (now : Int) : Recorder :=
  let previous := r.cfg
  let r := ({ r with cfg := cfg }.resize cfg previous s).expire now
  let r := if cfg.Enabled then r else r.forget
  if cfg.MaxSnapshots ≠ previous.MaxSnapshots ∨ cfg.MaxDiskBytes ≠ previous.MaxDiskBytes ∨
      r.lastError ≠ "" then
    r.startPrune
  else r

/-- `newRecorder`, with settings that have been validated. -/
def start (cfg : Config) (s : ResourceSample) (hasCompleted : Bool) : Recorder :=
  let memory := initialMemoryBudget cfg.MemoryBytes s
  let r : Recorder :=
    { cfg := cfg
      buffer := allocateBuffer memory
      effectiveMemory := memory
      pressure := s.scarce }
  if hasCompleted then r.startPrune else r

end Recorder

end Recording
end Blackbox
end Mowgli
