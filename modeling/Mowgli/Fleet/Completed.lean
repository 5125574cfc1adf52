import Mathlib.Algebra.Order.Ring.Rat
import Mowgli.Fleet.Coordinator

/-!
# Completed — the areas the fleet has mowed

`memberFromRobotAt` and `updateCompletedMemory` of `fleet_coordinator_logic.go`, with the
`tick` and the `Reset` that call them. A map is a partial function, and a topic is given as
`json.Unmarshal` leaves it.

The time of a completion is the receipt that first reported the area, **not the one it was
last seen in**: a robot that goes on reporting an area adds nothing.
-/

namespace Mowgli
namespace Fleet
namespace Completed

/-- A `float64` age. -/
inductive Age
  | nan
  | inf (negative : Bool)
  | seconds (s : ℚ)

namespace Age

def isNaN : Age → Bool
  | .nan => true
  | _ => false

def isInf : Age → Bool
  | .inf _ => true
  | _ => false

def below : Age → ℚ → Bool
  | .nan, _ => false
  | .inf negative, _ => negative
  | .seconds s, bound => s < bound

def above : Age → ℚ → Bool
  | .nan, _ => false
  | .inf negative, _ => !negative
  | .seconds s, bound => bound < s

/-- `age >= 0 && age <= bound`. -/
def within (age : Age) (bound : ℚ) : Bool :=
  !age.isNaN && !age.below 0 && !age.above bound

end Age

structure HighLevelStatus where
  state : Option Int
  stateName : String
  currentArea : Option Int

structure CoverageSession where
  sessionActive : Option Bool
  currentArea : Option Int
  completedAreas : Option (List UInt32)

/-- One delivery of the topic. The pointer is what tells two deliveries apart. -/
structure CoverageObservation where
  pointer : Nat
  receivedAt : Time
  sequence : UInt64
deriving DecidableEq

structure FleetRobot where
  id : String
  self : Bool
  online : Bool
  /-- `none` when the topic is absent or does not decode. -/
  highLevelStatus : Option HighLevelStatus
  highLevelStatusAge : Option Age
  /-- `none` when the topic is absent, `some none` when it does not decode. -/
  coverageSession : Option (Option CoverageSession)
  coverageSessionAge : Option Age
  coverageObservation : Option CoverageObservation

inductive CoverageState
  | absent
  | unknown
  | stale
  | fresh
  | contradictory
deriving DecidableEq

/-- The part of a `fleetMember` that the assignment reads. -/
structure Member where
  id : String
  self : Bool
  online : Bool
  autonomous : Bool
  stopHold : Bool
  stateName : String
  currentArea : Int
  completed : List UInt32
  sessionActive : Bool
  sessionState : CoverageState
  sessionObservation : Option CoverageObservation

def hlStateAutonomous : Int := 2

/-- `peerOnlineMaxAge.Seconds()`. -/
def peerOnlineMaxAgeSeconds : ℚ := 10
def peerOnlineMaxAge : Int := 10000000000

/-- The member before its session is looked at. -/
def FleetRobot.plain (r : FleetRobot) : Member :=
  { id := r.id, self := r.self, online := r.online,
    autonomous := r.highLevelStatus.any fun hl => hl.state == some hlStateAutonomous,
    stopHold := r.highLevelStatus.any fun hl => hl.state == some 1 && hl.stateName == "IDLE",
    stateName := (r.highLevelStatus.map (·.stateName)).getD "",
    currentArea := (r.highLevelStatus.bind (·.currentArea)).getD (-1),
    completed := [], sessionActive := false, sessionState := .absent,
    sessionObservation := none }

/-- A session that is whole and recent. -/
def FleetRobot.withSession (r : FleetRobot) (active : Bool) (area : Int) (areas : List UInt32) :
    Member :=
  let hlArea := r.highLevelStatus.bind (·.currentArea)
  let hlFresh := r.highLevelStatusAge.any fun age => age.within peerOnlineMaxAgeSeconds
  if hlFresh && hlArea.any fun hl => hl != area then
    { r.plain with sessionState := .contradictory }
  else
    { r.plain with
      sessionState := .fresh
      sessionActive := active
      completed := areas
      sessionObservation := r.coverageObservation
      currentArea :=
        if hlArea.isNone || r.highLevelStatusAge.any fun age => age.above peerOnlineMaxAgeSeconds
        then area else r.plain.currentArea }

def memberFromRobotAt (r : FleetRobot) : Member :=
  match r.coverageSession with
  | none => r.plain
  | some session =>
    let unknown := { r.plain with sessionState := .unknown }
    match r.coverageSessionAge with
    | none => unknown
    | some age =>
      if !r.online || r.id == "" || age.isNaN || age.isInf || age.below 0 then unknown
      else if age.above peerOnlineMaxAgeSeconds then { r.plain with sessionState := .stale }
      else if r.coverageObservation.all fun o => o.receivedAt.isZero then unknown
      else
        match session with
        | some ⟨some active, some area, some areas⟩ =>
          if area < -1 then unknown else r.withSession active area areas
        | _ => unknown

/-- A `map[uint32]time.Time`. -/
abbrev Areas := UInt32 → Option Time

/-- The last membership that was accepted from a robot. -/
structure CompletionObservation where
  receipt : Option CoverageObservation
  areas : Areas

abbrev Observations := String → CompletionObservation

def completionObservationZero : CompletionObservation :=
  { receipt := none, areas := fun _ => none }

/-- Neither in the future nor older than the time to live. -/
def Lives (ttl now seen : Time) : Prop := seen ≤ now ∧ Clock.sub now seen ≤ ttl

instance (ttl now seen : Time) : Decidable (Lives ttl now seen) :=
  inferInstanceAs (Decidable (_ ∧ _))

def prune (ttl now : Time) (memory : Areas) : Areas := fun area =>
  (memory area).filter fun seen => decide (Lives ttl now seen)

/-- The receipt of a member, when it counts. -/
def qualified (now : Time) (m : Member) : Option CoverageObservation :=
  match m.sessionObservation with
  | none => none
  | some receipt =>
    if !m.online || m.id == "" || m.sessionState != .fresh || receipt.receivedAt.isZero
      || decide (now < receipt.receivedAt)
      || decide (peerOnlineMaxAge < Clock.sub now receipt.receivedAt) then none
    else some receipt

/-- An out-of-order snapshot is not a new publication. -/
def outOfOrder (receipt previous : CoverageObservation) : Bool :=
  receipt.pointer != previous.pointer &&
    (decide (receipt.receivedAt < previous.receivedAt) ||
      receipt.receivedAt == previous.receivedAt && decide (receipt.sequence ≤ previous.sequence))

/-- Since when an area that a receipt reports is completed. -/
def seenAt (memory : Areas) (previous : CompletionObservation) (receipt : CoverageObservation)
    (area : UInt32) : Time :=
  match previous.areas area with
  | some seen => seen
  | none =>
    match memory area with
    | some saved =>
      if previous.receipt.isNone && decide (saved < receipt.receivedAt) then saved
      else receipt.receivedAt
    | none => receipt.receivedAt

def accept (memory : Areas) (previous : CompletionObservation) (receipt : CoverageObservation)
    (completed : List UInt32) : CompletionObservation :=
  { receipt := some receipt
    areas := completed.foldl (fun areas area =>
      Function.update areas area (some (seenAt memory previous receipt area))) fun _ => none }

/-- A zero time is a membership that `Reset` suppressed. -/
def merge (ttl now : Time) (out areas : Areas) : Areas := fun area =>
  match areas area with
  | none => out area
  | some seen =>
    if !seen.isZero && decide (Lives ttl now seen) && decide ((out area).getD 0 < seen) then some seen
    else out area

def consume (ttl now : Time) (memory : Areas) (st : Areas × Observations) (m : Member) :
    Areas × Observations :=
  match qualified now m with
  | none => st
  | some receipt =>
    let previous := st.2 m.id
    if previous.receipt.any fun old => outOfOrder receipt old then st
    else if previous.receipt.any fun old => receipt.pointer == old.pointer then
      (merge ttl now st.1 previous.areas, st.2)
    else
      let current := accept memory previous receipt m.completed
      (merge ttl now st.1 current.areas, Function.update st.2 m.id current)

def updateCompletedMemory (memory : Areas) (members : List Member) (now ttl : Time)
    (observations : Observations) : Areas × Observations :=
  members.foldl (consume ttl now memory) (prune ttl now memory, observations)

/-- The part of the coordinator that remembers. -/
structure Coordinator where
  memory : Areas
  completionObservations : Observations

namespace Coordinator

/-- `newFleetCoordinator`, with what `loadMemory` found. -/
def new (saved : Areas) : Coordinator :=
  { memory := saved, completionObservations := fun _ => completionObservationZero }

/-- `tick`. A snapshot that fails leaves everything as it is. -/
def tick (ttl : Time) (c : Coordinator) (enabled : Bool) (rows : Option (List FleetRobot))
    (now : Time) : Coordinator :=
  match enabled, rows with
  | true, some rows =>
    let r := updateCompletedMemory c.memory (rows.map memberFromRobotAt) now ttl
      c.completionObservations
    { memory := r.1, completionObservations := r.2 }
  | _, _ => c

/-- `Reset`, up to the tick it ends with. -/
def reset (c : Coordinator) : Coordinator :=
  { memory := fun _ => none
    completionObservations := fun id =>
      { c.completionObservations id with
        areas := fun area => ((c.completionObservations id).areas area).map fun _ => 0 } }

end Coordinator

end Completed
end Fleet
end Mowgli
