import Mowgli.Fleet.Yield
import Mowgli.Lib.Trace

/-!
# Tree — everything that touches the fleet stop of one mower

The callbacks of the behavior tree node that reach `fleet_yield` or `current_command`. They
share one callback group, so **a callback runs to its end**, and each is a short row of
operations here. Every operation is logged with the context before and after it, newest
first.

The environment brings with an event what the callback finds outside: the interlocks of that
moment, and whether the pause checkpoint could be saved.
-/

namespace Mowgli
namespace Fleet

/-- What `refreshFleetYieldLocked` looks at. -/
structure Interlocks where
  maintenance : Bool
  emergencyActiveOrStale : Bool
  isCharging : Bool
  chargerEnabled : Bool
  boundaryViolation : Bool
  lethalBoundaryViolation : Bool
  criticalChargeStopLatched : Bool
  criticalDockFailureLatched : Bool
deriving DecidableEq

namespace Interlocks

/-- Nothing is in the way. -/
def clear : Interlocks :=
  { maintenance := false, emergencyActiveOrStale := false, isCharging := false,
    chargerEnabled := false, boundaryViolation := false, lethalBoundaryViolation := false,
    criticalChargeStopLatched := false, criticalDockFailureLatched := false }

def any (now : Interlocks) : Bool :=
  now.maintenance || now.emergencyActiveOrStale || now.isCharging || now.chargerEnabled ||
    now.boundaryViolation || now.lethalBoundaryViolation || now.criticalChargeStopLatched ||
    now.criticalDockFailureLatched

end Interlocks

/-- The part of the context that a fleet stop is about. -/
structure Context where
  currentCommand : UInt8
  fleetYield : FleetYieldState
deriving DecidableEq

inductive Op
  | revoke
  | refresh (now : Interlocks)
  | safetyHold
  | observeStatus (state : UInt8) (name : String)
  | apply (operation : UInt8) (t : Identity)
  | setCommand (command : UInt8)
deriving DecidableEq

variable (draw : Nat → String)

/-- `refreshFleetYieldLocked`. -/
def refreshFleetYield (now : Interlocks) (c : Context) : Context :=
  { currentCommand := if now.maintenance then 8 else c.currentCommand
    fleetYield := c.fleetYield.observeInterlock draw now.any }

def Op.run (c : Context) : Op → Context
  | revoke => { c with fleetYield := c.fleetYield.revoke draw }
  | refresh now => refreshFleetYield draw now c
  | safetyHold => { c with fleetYield := c.fleetYield.safetyHold draw }
  | observeStatus state name => { c with fleetYield := c.fleetYield.observeStatus draw state name }
  | apply operation t =>
    let applied := c.fleetYield.apply draw operation t c.currentCommand
    { currentCommand := applied.2.1, fleetYield := applied.2.2 }
  | setCommand command => { c with currentCommand := command }

/-- The operation is no write of the command. -/
def Op.Plain (op : Op) : Prop := ∀ command, op ≠ .setCommand command

/-- The operation is no request. -/
def Op.Own (op : Op) : Prop := ∀ operation t, op ≠ .apply operation t

structure Entry where
  before : Context
  op : Op
  after : Context
deriving DecidableEq

structure Tree where
  context : Context
  log : List Entry
deriving DecidableEq

/-- What a request is answered. -/
structure Response where
  result : Result
  epoch : String
  held : Bool
deriving DecidableEq

namespace Tree

/-- The node comes up, with the command that was restored. -/
def boot (command : UInt8) : Tree :=
  { context := { currentCommand := command, fleetYield := .new draw }, log := [] }

def perform (op : Op) (m : Tree) : Tree :=
  let after := op.run draw m.context
  { context := after, log := { before := m.context, op := op, after := after } :: m.log }

def respond (result : Result) (m : Tree) : Response :=
  { result := result, epoch := m.context.fleetYield.epoch, held := m.context.fleetYield.held }

/-- The result that `apply` gives. -/
def result (operation : UInt8) (t : Identity) (m : Tree) : Result :=
  (m.context.fleetYield.apply draw operation t m.context.currentCommand).1

/-- `FleetYieldService`. -/
def fleetYield (operation : UInt8) (t : Identity) (now : Interlocks) (saved : Bool) (m : Tree) :
    Tree × Response :=
  if operation = RESUME ∧ m.context.fleetYield.completed = some t then
    (m, m.respond .ALREADY_RESUMED)
  else
    let m := m.perform draw (.refresh now)
    let wasHeld := m.context.fleetYield.held
    let result := m.result draw operation t
    let m := m.perform draw (.apply operation t)
    if result = .HELD ∧ wasHeld = false ∧ saved = false then
      let m := m.perform draw .revoke
      (m, m.respond .INELIGIBLE)
    else (m, m.respond result)

/-- `~/high_level_control`. The maintenance gate lets only a STOP through, and S2 is a START. -/
def highLevelControl (maintenance : Bool) (command : UInt8) (m : Tree) : Tree :=
  if maintenance ∧ command ≠ 8 then m
  else (m.perform draw .revoke).perform draw (.setCommand (if command = 4 then 1 else command))

/-- `~/start_in_area`. -/
def startInArea (maintenance : Bool) (m : Tree) : Tree :=
  if maintenance then m else (m.perform draw .revoke).perform draw (.setCommand 1)

/-- `ClearCommand`, and every end of `RecordArea` that clears the command. -/
def clearCommand (m : Tree) : Tree :=
  (m.perform draw .revoke).perform draw (.setCommand 0)

/-- `EndSession`. A session whose progress is kept takes the command out of the snapshot. -/
def endSession (keptIncomplete : Bool) (m : Tree) : Tree :=
  let m := m.perform draw .revoke
  if keptIncomplete then m.perform draw (.setCommand 0) else m

end Tree

/-- The callbacks that are no request of a fleet. -/
inductive Callback
  | highLevelControl (maintenance : Bool) (command : UInt8)
  | startInArea (maintenance : Bool)
  | clearCoverageResume
  | clearCommand
  | endSession (keptIncomplete : Bool)
  /-- `PublishHighLevelStatus`. -/
  | publishStatus (state : UInt8) (name : String)
  | markGuardHalt
  /-- A subscription, or the start of a tick. -/
  | refresh (now : Interlocks)
deriving DecidableEq

inductive Event
  | fleetYield (operation : UInt8) (t : Identity) (now : Interlocks) (saved : Bool)
  | callback (c : Callback)
  /-- Any other write of the tree. -/
  | treeCommand (command : UInt8)
deriving DecidableEq

namespace Tree

def call (m : Tree) : Callback → Tree
  | .highLevelControl maintenance command => m.highLevelControl draw maintenance command
  | .startInArea maintenance => m.startInArea draw maintenance
  | .clearCoverageResume => m.perform draw .revoke
  | .clearCommand => m.clearCommand draw
  | .endSession keptIncomplete => m.endSession draw keptIncomplete
  | .publishStatus state name => m.perform draw (.observeStatus state name)
  | .markGuardHalt => m.perform draw .safetyHold
  | .refresh now => m.perform draw (.refresh now)

def handle (m : Tree) : Event → Tree
  | .fleetYield operation t now saved => (m.fleetYield draw operation t now saved).1
  | .callback c => m.call draw c
  | .treeCommand command => m.perform draw (.setCommand command)

def run (m : Tree) (events : List Event) : Tree := events.foldl (handle draw) m

/-! ## What operations keep, runs keep -/

variable {draw} {P : Tree → Prop} {m : Tree}

theorem fleetYield_keeps (h : ∀ op m, op.Plain → P m → P (m.perform draw op)) (hm : P m)
    (operation : UInt8) (t : Identity) (now : Interlocks) (saved : Bool) :
    P (m.fleetYield draw operation t now saved).1 := by
  unfold fleetYield
  split
  · exact hm
  have happlied := h (.apply operation t) _ nofun (h (.refresh now) m nofun hm)
  dsimp only
  split
  · exact h _ _ nofun happlied
  · exact happlied

/-- A callback writes the command only behind a `revoke`. -/
theorem call_keeps (h : ∀ op m, op.Plain → op.Own → P m → P (m.perform draw op))
    (hset : ∀ command m, P m → P ((m.perform draw .revoke).perform draw (.setCommand command)))
    (hm : P m) (c : Callback) : P (m.call draw c) := by
  cases c with
  | highLevelControl maintenance command =>
    show P (m.highLevelControl draw maintenance command)
    unfold highLevelControl
    split
    · exact hm
    · exact hset _ _ hm
  | startInArea maintenance =>
    show P (m.startInArea draw maintenance)
    unfold startInArea
    split
    · exact hm
    · exact hset _ _ hm
  | clearCoverageResume => exact h _ _ nofun nofun hm
  | clearCommand => exact hset _ _ hm
  | endSession keptIncomplete =>
    show P (m.endSession draw keptIncomplete)
    unfold endSession
    dsimp only
    split
    · exact hset _ _ hm
    · exact h _ _ nofun nofun hm
  | publishStatus state name => exact h _ _ nofun nofun hm
  | markGuardHalt => exact h _ _ nofun nofun hm
  | refresh now => exact h _ _ nofun nofun hm

theorem handle_keeps (h : ∀ op m, P m → P (m.perform draw op)) (hm : P m) (e : Event) :
    P (m.handle draw e) := by
  cases e with
  | fleetYield operation t now saved =>
    exact fleetYield_keeps (fun op m _ => h op m) hm operation t now saved
  | callback c =>
    exact call_keeps (fun op m _ _ => h op m) (fun _ _ hm => h _ _ (h _ _ hm)) hm c
  | treeCommand command => exact h _ _ hm

theorem run_keeps (h : ∀ op m, P m → P (m.perform draw op)) (hm : P m) (events : List Event) :
    P (m.run draw events) := by
  induction events generalizing m with
  | nil => exact hm
  | cons e events ih => exact ih (handle_keeps h hm e)

end Tree
end Fleet
end Mowgli
